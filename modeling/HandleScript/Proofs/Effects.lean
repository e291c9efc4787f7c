import HandleScript.Proofs.Plan
import HandleScript.Proofs.Reading

/-!
# Operations on states that are alike

In two states that are alike an operation decides on corresponding effects, or fails for
the same cause; and corresponding effects leave the states alike, under a renaming that
grows by the new cells.
-/

namespace HandleScript

namespace Renaming

variable (ρ : Renaming)

/-- New handles that name alike contents. -/
inductive OnContents : Content → Content → Prop
  | number (n : Number) : OnContents (.number n) (.number n)
  | bool (b : Bool) : OnContents (.bool b) (.bool b)
  | text (s : String) : OnContents (.text s) (.text s)
  | list {xs ys : Array Value} (h : List.Forall₂ ρ.OnValues xs.toList ys.toList) :
      OnContents (.list xs) (.list ys)
  | array {xs ys : Array Value} (h : List.Forall₂ ρ.OnValues xs.toList ys.toList) :
      OnContents (.array xs) (.array ys)
  | iterator {a b : Nat} (h : ρ.rel .items a b) : OnContents (.iterator a) (.iterator b)
  | lambda {c d : Closure} (h : ρ.OnClosures c d) : OnContents (.lambda c) (.lambda d)

/-- Effects that do the same to corresponding places. -/
inductive OnEffects : Effect → Effect → Prop
  | give {v w : Value} (h : ρ.OnValues v w) : OnEffects (.give v) (.give w)
  | fresh {c d : Content} (h : ρ.OnContents c d) : OnEffects (.fresh c) (.fresh d)
  | freshTexts (parts : List String) : OnEffects (.freshTexts parts) (.freshTexts parts)
  | freshArray (slots : Nat) : OnEffects (.freshArray slots) (.freshArray slots)
  | write {v w : Value} (h : ρ.OnValues v w) (content : Content) :
      OnEffects (.write v content) (.write w content)
  | setItem {v w x y : Value} {a b : Nat} (h : ρ.OnValues v w)
      (hab : ρ.rel .items a b) (index : Nat)
      (hxy : ρ.OnValues x y) : OnEffects (.setItem v a index x) (.setItem w b index y)
  | addItem {v w x y : Value} {a b : Nat} (h : ρ.OnValues v w) (hab : ρ.rel .items a b)
      (kind : ρ.kinds a .list) (hxy : ρ.OnValues x y) :
        OnEffects (.addItem v a x) (.addItem w b y)
  | removeItem {x y : Value} {a b : Nat} (hab : ρ.rel .items a b)
      (kind : ρ.kinds a .list) (index : Nat)
      (hxy : ρ.OnValues x y) : OnEffects (.removeItem a index x) (.removeItem b index y)
  | advance {x y : Value} {a b : Nat} (hab : ρ.rel .cursor a b) (hxy : ρ.OnValues x y) :
      OnEffects (.advance a x) (.advance b y)

end Renaming

/-! ## Effects that arise -/

section Arising

variable {ρ : Renaming} {s t : State} {v w : Value} {vs ws : List Value}

theorem Renaming.OnValues.container?_pair
    {a b : Nat} (h : ρ.OnValues v w) (ha : Store.container? v = some a)
    (hb : Store.container? w = some b) : ρ.rel .items a b := by
  have hcells := h.container?_rel
  rw [ha, hb] at hcells
  cases hcells with
  | some hab => exact hab

theorem Content.IsScalar.onContents {content : Content} (h : content.IsScalar) :
    ρ.OnContents content content := by
  cases content with
  | number n => exact .number n
  | bool b => exact .bool b
  | text s => exact .text s
  | list | array | iterator | lambda => cases h

/-- Effects of one sketch do the same to corresponding places. Only the length of a list
changes. -/
theorem Corresponds.onEffects
    {op : Operation} {e e' : Effect} (he : Corresponds s.store t.store v w vs ws op e e')
    (h : Related ρ s t) (hvw : ρ.OnValues v w)
    (hkind : ∀ growth, op = .eager (.growth growth) → v.kind = .list)
    (hvws : List.Forall₂ ρ.OnValues vs ws) : ρ.OnEffects e e' := by
  have hlist : ∀ {growth a}, op = .eager (.growth growth) →
      Store.container? v = some a → ρ.kinds a .list := by
    intro growth a hop ha
    have hv := hkind growth hop
    cases hvw with
    | list _ kind =>
        cases ha
        exact kind
    | int | long | double | bool | text | array | iterator | file | lambda | void
    | dispatcher | factory => cases hv
  obtain ⟨sketch, hleft, hright⟩ := he
  cases hleft with
  | scalar hscalar =>
      cases hright
      exact .fresh hscalar.onContents
  | texts parts =>
      cases hright
      exact .freshTexts parts
  | list =>
      cases hright
      exact .fresh (.list (by simpa using hvws))
  | @array _ slots =>
      cases hright
      exact .freshArray slots
  | @file _ path =>
      cases hright
      exact .give (.file path)
  | self =>
      cases hright
      exact .give hvw
  | copyList hv =>
      subst hv
      cases hvw with
      | list hab =>
          cases hright with
          | copyList hw =>
              cases hw
              exact .fresh (.list (h.elements hab))
          | copyArray hw => cases hw
  | copyArray hv =>
      subst hv
      cases hvw with
      | array hab =>
          cases hright with
          | copyArray hw =>
              cases hw
              exact .fresh (.array (h.elements hab))
          | copyList hw => cases hw
  | @element _ index ha =>
      cases hright with
      | element hb =>
          exact .give (Related.elementAt_rel
            (h.elements (hvw.container?_pair ha hb)) index)
  | iterator ha =>
      cases hright with
      | iterator hb => exact .fresh (.iterator (hvw.container?_pair ha hb))
  | write =>
      cases hright
      exact .write hvw _
  | @setItem _ index _ _ ha _ hvs =>
      cases hright with
      | setItem hb _ hws =>
          subst hvs hws
          cases hvws with
          | cons _ hrest =>
              cases hrest with
              | cons hxy _ => exact .setItem hvw (hvw.container?_pair ha hb) index hxy
  | addItem ha hvs =>
      cases hright with
      | addItem hb hws =>
          subst hvs hws
          cases hvws with
          | cons hxy _ =>
              exact .addItem hvw (hvw.container?_pair ha hb) (hlist rfl ha) hxy
  | @removeItem _ index ha =>
      cases hright with
      | removeItem hb =>
          have hab := hvw.container?_pair ha hb
          exact .removeItem hab (hlist rfl ha) index
            (Related.elementAt_rel (h.elements hab) index)
  | advance hv =>
      subst hv
      cases hvw with
      | iterator hab =>
          cases hright with
          | advance hw =>
              cases hw
              obtain ⟨hitems, hnext⟩ := h.cursor hab
              rw [hnext]
              exact .advance hab (Related.elementAt_rel (h.elements hitems) _)

/-- On states that are alike, an operation decides on corresponding effects, or fails for
the same cause. -/
theorem EagerOp.plan_alike
    (op : EagerOp) (method : String) (files : Files) (h : Related ρ s t)
    (hvw : ρ.OnValues v w) (hkind : ∀ growth, op = .growth growth → v.kind = .list)
    (hvws : List.Forall₂ ρ.OnValues vs ws) :
    Concurs ρ.OnEffects (fun _ => True) (op.plan files s.store v method vs)
      (op.plan files t.store w method ws) :=
  (op.plan_concurs method files (h.sameView hvw hvws)).mono
    (fun _ _ he => he.onEffects h hvw
      (fun growth hop => hkind growth (Operation.eager.inj hop)) hvws)
    fun _ _ => trivial

theorem Connective.plan_alike
    (op : Connective) (method : String) (h : Related ρ s t)
    (hvws : List.Forall₂ ρ.OnValues vs ws) :
    Concurs ρ.OnEffects (fun _ => True) (Connective.plan s.store method vs)
      (Connective.plan t.store method ws) :=
  (op.plan_concurs method (h.looksLikeAll hvws)).mono
    (fun _ _ he => he.onEffects h .void nofun hvws) fun _ _ => trivial

theorem FactoryOp.plan_alike
    (op : FactoryOp) (method : String) (h : Related ρ s t)
    (hvws : List.Forall₂ ρ.OnValues vs ws) :
    Concurs ρ.OnEffects (fun _ => True) (op.plan s.store method vs)
      (op.plan t.store method ws) :=
  (op.plan_concurs method (h.looksLikeAll hvws)).mono
    (fun _ _ he => he.onEffects h .factory nofun hvws) fun _ _ => trivial

end Arising

/-! ## Carrying out effects -/

section Commit

variable {ρ : Renaming} {s t : State}

theorem Renaming.OnContents.region_eq {c d : Content} (h : ρ.OnContents c d) :
    c.region = d.region := by
  cases h with
  | number n => rfl
  | bool | text | list | array | iterator | lambda => rfl

theorem Renaming.OnContents.item
    {c d : Content} (h : ρ.OnContents c d) (a b : Nat) :
    ρ.OnItems a b c.region c.item d.item := by
  cases h with
  | number n =>
      cases n with
      | int n => exact .integer n
      | long n => exact .integer n
      | double x => exact .double x
  | bool b => exact .bool b
  | text s => exact .text s
  | list hxys => exact .items hxys
  | array hxys => exact .items hxys
  | iterator hab => exact .cursor 0 hab
  | lambda hcd => exact .closure hcd

theorem Renaming.OnContents.mono
    {ρ' : Renaming} {c d : Content} (h : ρ.OnContents c d) (hρ : ρ.Within ρ') :
    ρ'.OnContents c d := by
  cases h with
  | number n => exact .number n
  | bool b => exact .bool b
  | text s => exact .text s
  | list hxys => exact .list (forall₂_mono hxys hρ)
  | array hxys => exact .array (forall₂_mono hxys hρ)
  | iterator hab => exact .iterator (hρ.rel hab)
  | lambda hcd => exact .lambda (hcd.mono hρ)

theorem Renaming.OnContents.value
    {c d : Content} (h : ρ.OnContents c d) {ρ' : Renaming} (left right : Store)
    (hrel : ρ'.rel c.region (left.count c.region) (right.count c.region))
    (hkind : c.region = .items → ρ'.kinds (left.count c.region) (left.alloc c).1.kind) :
    ρ'.OnValues (left.alloc c).1 (right.alloc d).1 := by
  cases h with
  | number n =>
      cases n with
      | int n => exact .int hrel
      | long n => exact .long hrel
      | double x => exact .double hrel
  | bool b => exact .bool hrel
  | text s => exact .text hrel
  | list => exact .list hrel (hkind rfl)
  | array => exact .array hrel (hkind rfl)
  | iterator => exact .iterator hrel
  | lambda => exact .lambda hrel

theorem Related.alloc {c d : Content} (h : Related ρ s t) (hcd : ρ.OnContents c d) :
    Ends ρ s t Renaming.OnValues (Run.alloc c s) (Run.alloc d t) := by
  have hnone : ∀ (u : State) (content : Content),
      u.item? ⟨content.region, u.store.count content.region⟩ = none := by
    intro u content
    rw [State.item?_of_ne_scope u content.region_ne_scope]
    exact u.store.item?_next content.region
  have ha := hnone s c
  have hb := hnone t d
  have hs := s.writes_alloc c
  have ht := t.writes_alloc d
  simp only [Store.next, ← hcd.region_eq] at ha hb hs ht
  let kinds : Kind → Prop := fun kind => kind = (s.store.alloc c).1.kind
  have hgrows := h.within_add ha (t.store.count c.region) (fun _ => False) kinds
  refine .done (h.extends_add (fun _ => False) kinds ha hb hs ht ?_)
    (h.add ha hb hs ht ?_ ?_) ?_
  · rintro - ⟨hlist, harray⟩
    exact Kind.noConfusion (hlist.trans harray.symm)
  · exact (hcd.mono hgrows).item _ _
  · exact fun hscope => absurd hscope c.region_ne_scope
  · refine hcd.value s.store t.store (Or.inr ⟨rfl, rfl, rfl⟩) fun hitems => ?_
    simp only [Renaming.add, hitems, and_self, if_true, kinds]

theorem Related.allocTexts (h : Related ρ s t) (parts : List String) :
    Ends ρ s t (fun ρ' vs ws => List.Forall₂ ρ'.OnValues vs ws)
      (.done (s.store.allocTexts parts).1
        { s with store := (s.store.allocTexts parts).2 })
      (.done (t.store.allocTexts parts).1
        { t with store := (t.store.allocTexts parts).2 }) := by
  induction parts generalizing ρ s t with
  | nil => exact .pure h .nil
  | cons part rest ih =>
      cases h.alloc (.text part) with
      | done hgrown hrelated hvw =>
          cases ih hrelated with
          | done hgrown' hrelated' hvws =>
              exact .done (hgrown.trans hgrown') hrelated'
                (.cons (hvw.mono hgrown'.grows) hvws)

theorem Renaming.OnValues.place
    {v w : Value} (h : ρ.OnValues v w) {r : Region} {a : Nat}
    (hv : v.loc? = some ⟨r, a⟩) : ∃ b, w.loc? = some ⟨r, b⟩ ∧ ρ.rel r a b := by
  cases h with
  | int h | long h | double h | bool h | text h | list h | array h | iterator h
  | lambda h =>
      cases hv
      exact ⟨_, rfl, h⟩
  | file | void | dispatcher | factory => cases hv

theorem Content.loc?_of_suits {content : Content} {v : Value}
    (h : content.suits v.kind = true) : ∃ a, v.loc? = some ⟨content.region, a⟩ := by
  rcases Store.cases_of_suits h with
    ⟨cell, x, rfl, rfl⟩ | ⟨cell, x, rfl, rfl⟩ |
        ⟨cell, x, rfl, rfl⟩ | ⟨cell, x, rfl, rfl⟩ |
      ⟨cell, x, rfl, rfl⟩ <;>
    exact ⟨cell, rfl⟩

theorem Content.region_ne_items {content : Content} {kind : Kind}
    (h : content.suits kind = true) : content.region ≠ .items := by
  cases content with
  | number n => cases n <;> simp [Content.region]
  | bool | text | iterator | lambda => simp [Content.region]
  | list | array => simp [Content.suits] at h

theorem Content.onContents_of_suits
    (ρ : Renaming) {content : Content} {kind : Kind} (h : content.suits kind = true) :
    ρ.OnContents content content := by
  cases content with
  | number n => exact .number n
  | bool b => exact .bool b
  | text s => exact .text s
  | list | array | iterator | lambda => simp [Content.suits] at h

theorem Related.write
    {v w : Value} (h : Related ρ s t) (hvw : ρ.OnValues v w) (content : Content) :
    Ends ρ s t Renaming.OnValues
      (.done v { s with store := s.store.write v content })
      (.done w { t with store := t.store.write w content }) := by
  by_cases hsuits : content.suits v.kind = true
  · obtain ⟨a, hv⟩ := Content.loc?_of_suits hsuits
    obtain ⟨b, hw, hab⟩ := hvw.place hv
    have hs := s.writes_write hsuits hv (h.isSome_left hab)
    have ht := t.writes_write (hvw.kind_eq ▸ hsuits) hw (h.isSome_right hab)
    have hcontent := (Content.onContents_of_suits ρ hsuits).item a b
    refine .done (.of_writes h hab hs ht ?_ ?_) (h.update hab hs ht hcontent) hvw
    · exact fun hscope => absurd hscope content.region_ne_scope
    · exact fun hitems => absurd hitems (content.region_ne_items hsuits)
  · rw [Bool.not_eq_true] at hsuits
    rw [Store.write_of_not_suits _ hsuits,
      Store.write_of_not_suits _ (hvw.kind_eq ▸ hsuits)]
    exact .pure h hvw

theorem Related.modifyItems
    {v w : Value} {a b : Nat} (h : Related ρ s t) (hab : ρ.rel .items a b)
    (hvw : ρ.OnValues v w) {f g : Array Value → Array Value}
    (hlength : ¬ρ.kinds a .list →
      (f (s.store.elements a)).size = (s.store.elements a).size)
    (hfg : List.Forall₂ ρ.OnValues (f (s.store.elements a)).toList
      (g (t.store.elements b)).toList) :
    Ends ρ s t Renaming.OnValues
      (.done v { s with store := { s.store with items := s.store.items.modify a f } })
      (.done w
        { t with store := { t.store with items := t.store.items.modify b g } }) := by
  have hs := s.writes_modifyItems f (h.lt_size_left hab)
  have ht := t.writes_modifyItems g (h.lt_size_right hab)
  refine .done (.of_writes h hab hs ht (fun hscope => nomatch hscope) fun _ hkind => ?_)
    (h.update hab hs ht (.items hfg)) hvw
  rw [Store.elements, Pool.get_modify _ _ (h.lt_size_left hab)]
  exact hlength hkind

theorem Related.advance
    {v w : Value} {a b : Nat} (h : Related ρ s t) (hab : ρ.rel .cursor a b)
    (hvw : ρ.OnValues v w) :
    let f := fun cursor : Cursor => { cursor with next := cursor.next + 1 }
    Ends ρ s t Renaming.OnValues
      (.done v { s with store := { s.store with cursors := s.store.cursors.modify a f } })
      (.done w
        { t with store := { t.store with cursors := t.store.cursors.modify b f } }) := by
  intro f
  have hleft : a < s.store.cursors.size := by
    simpa [State.item?, Store.item?, Pool.size] using h.isSome_left hab
  have hright : b < t.store.cursors.size := by
    simpa [State.item?, Store.item?, Pool.size] using h.isSome_right hab
  obtain ⟨hitems, hnext⟩ := h.cursor hab
  have hs := s.writes_modifyCursors f hleft
  have ht := t.writes_modifyCursors f hright
  simp only [f, hnext] at hs ht
  refine .done (.of_writes h hab hs ht ?_ ?_) (h.update hab hs ht (.cursor _ hitems)) hvw
  · intro hscope
    cases hscope
  · intro hitems
    cases hitems

theorem forall₂_set
    {α β : Type} {R : α → β → Prop} {xs : List α} {ys : List β} {x : α} {y : β}
    (h : List.Forall₂ R xs ys) (hxy : R x y) (index : Nat) :
    List.Forall₂ R (xs.set index x) (ys.set index y) := by
  induction h generalizing index with
  | nil => exact .nil
  | cons hfirst hrest ih =>
      cases index with
      | zero => exact .cons hxy hrest
      | succ index => exact .cons hfirst (ih index)

theorem forall₂_eraseIdx
    {α β : Type} {R : α → β → Prop} {xs : List α} {ys : List β} (h : List.Forall₂ R xs ys)
    (index : Nat) : List.Forall₂ R (xs.eraseIdx index) (ys.eraseIdx index) := by
  induction h generalizing index with
  | nil => exact .nil
  | cons hfirst hrest ih =>
      cases index with
      | zero => exact hrest
      | succ index => exact .cons hfirst (ih index)

/-- Carrying out corresponding effects leaves the states alike. -/
theorem Related.commit {e e' : Effect} (h : Related ρ s t) (he : ρ.OnEffects e e') :
    Ends ρ s t Renaming.OnValues
      (.done (s.store.commit e).1 { s with store := (s.store.commit e).2 })
      (.done (t.store.commit e').1 { t with store := (t.store.commit e').2 }) := by
  cases he with
  | give hvw => exact .pure h hvw
  | fresh hcd => exact h.alloc hcd
  | freshTexts parts =>
      cases h.allocTexts parts with
      | done hgrown hrelated hvws =>
          exact (hrelated.alloc (.list (by simpa using hvws))).later hgrown
  | freshArray slots =>
      refine h.alloc (.array (List.forall₂_same.mpr fun x hx => ?_))
      rw [Array.toList_replicate] at hx
      rw [List.eq_of_mem_replicate hx]
      exact .void
  | write hvw content => exact h.write hvw content
  | setItem hvw hab index hxy =>
      refine h.modifyItems hab hvw (fun _ => Array.size_setIfInBounds) ?_
      simpa using forall₂_set (h.elements hab) hxy index
  | addItem hvw hab kind hxy =>
      refine h.modifyItems hab hvw (fun hkind => absurd kind hkind) ?_
      simpa using List.rel_append (h.elements hab) (.cons hxy .nil)
  | removeItem hab kind index hxy =>
      refine h.modifyItems hab hxy (fun hkind => absurd kind hkind) ?_
      simpa using forall₂_eraseIdx (h.elements hab) index
  | advance hab hxy => exact h.advance hab hxy

theorem Renaming.OnEffects.fits_eq {e e' : Effect} (h : ρ.OnEffects e e') :
    e.fits = e'.fits := by
  cases h <;> rfl

theorem Related.carryOut
    {plan plan' : Store → Plan} {causes : Cause → Prop} (h : Related ρ s t)
    (hplan : Concurs ρ.OnEffects causes (plan s.store) (plan' t.store)) :
    Ends ρ s t Renaming.OnValues (Run.carryOut plan s) (Run.carryOut plan' t) := by
  unfold Run.carryOut
  generalize plan s.store = decided, plan' t.store = decided' at hplan
  cases hplan with
  | error => exact .fail h _
  | @ok e e' he =>
      dsimp only
      rw [he.fits_eq]
      split
      · exact h.commit he
      · exact .crashed (.refl ρ s t) h

end Commit

end HandleScript
