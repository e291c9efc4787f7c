import HandleScript.Proofs.Plan
import HandleScript.Proofs.Renaming
import Mathlib.Data.List.Perm.Subperm
import Mathlib.Data.List.Range

/-!
# Reading states that are alike

Everything that a script can read comes out the same in two states that are alike: the
contents and the texts of corresponding values, the equality of values, the meaning of
clear names and the names that may be suggested.
-/

namespace HandleScript

namespace Related

variable {ρ : Renaming} {s t : State} {a b : Nat}

/-! ## Cells -/

theorem integer_eq (h : Related ρ s t) (hab : ρ.rel .integer a b) :
    s.store.integers.get a = t.store.integers.get b := by
  obtain ⟨x, y, hx, hy, hxy⟩ := h.item hab
  cases hxy
  rw [Pool.get_of_map_eq_some Item.integer.inj hx,
    Pool.get_of_map_eq_some Item.integer.inj hy]

theorem double_eq (h : Related ρ s t) (hab : ρ.rel .double a b) :
    s.store.doubles.get a = t.store.doubles.get b := by
  obtain ⟨x, y, hx, hy, hxy⟩ := h.item hab
  cases hxy
  rw [Pool.get_of_map_eq_some Item.double.inj hx,
    Pool.get_of_map_eq_some Item.double.inj hy]

theorem bool_eq (h : Related ρ s t) (hab : ρ.rel .bool a b) :
    s.store.bools.get a = t.store.bools.get b := by
  obtain ⟨x, y, hx, hy, hxy⟩ := h.item hab
  cases hxy
  rw [Pool.get_of_map_eq_some Item.bool.inj hx, Pool.get_of_map_eq_some Item.bool.inj hy]

theorem text_eq (h : Related ρ s t) (hab : ρ.rel .text a b) :
    s.store.texts.get a = t.store.texts.get b := by
  obtain ⟨x, y, hx, hy, hxy⟩ := h.item hab
  cases hxy
  rw [Pool.get_of_map_eq_some Item.text.inj hx, Pool.get_of_map_eq_some Item.text.inj hy]

theorem elements (h : Related ρ s t) (hab : ρ.rel .items a b) :
    List.Forall₂ ρ.OnValues (s.store.elements a).toList (t.store.elements b).toList := by
  obtain ⟨x, y, hx, hy, hxy⟩ := h.item hab
  cases hxy with
  | items hvalues =>
      rw [Store.elements, Store.elements, Pool.get_of_map_eq_some Item.items.inj hx,
        Pool.get_of_map_eq_some Item.items.inj hy]
      exact hvalues

theorem cursor (h : Related ρ s t) (hab : ρ.rel .cursor a b) :
    ρ.rel .items (s.store.cursors.get a).items (t.store.cursors.get b).items ∧
      (s.store.cursors.get a).next = (t.store.cursors.get b).next := by
  obtain ⟨x, y, hx, hy, hxy⟩ := h.item hab
  cases hxy with
  | cursor next hitems =>
      rw [Pool.get_of_map_eq_some Item.cursor.inj hx,
        Pool.get_of_map_eq_some Item.cursor.inj hy]
      exact ⟨hitems, rfl⟩

theorem closure (h : Related ρ s t) (hab : ρ.rel .closure a b) :
    ρ.OnClosures (s.store.closures.get a) (t.store.closures.get b) := by
  obtain ⟨x, y, hx, hy, hxy⟩ := h.item hab
  cases hxy with
  | closure hclosures =>
      rw [Pool.get_of_map_eq_some Item.closure.inj hx,
        Pool.get_of_map_eq_some Item.closure.inj hy]
      exact hclosures

theorem scope (h : Related ρ s t) (hab : ρ.rel .scope a b) :
    ∃ sc sd, s.scopes.scopes[a]? = some sc ∧ t.scopes.scopes[b]? = some sd ∧
      ρ.OnScopes a b sc sd := by
  obtain ⟨x, y, hx, hy, hxy⟩ := h.item hab
  cases hxy with
  | @scope sc sd hscopes =>
      obtain ⟨sc', hleft, hsc⟩ := Option.map_eq_some_iff.mp hx
      obtain ⟨sd', hright, hsd⟩ := Option.map_eq_some_iff.mp hy
      cases hsc
      cases hsd
      exact ⟨sc, sd, hleft, hright, hscopes⟩

end Related

/-! ## Values -/

theorem Renaming.OnValues.kind_eq {ρ : Renaming} {v w : Value} (h : ρ.OnValues v w) :
    v.kind = w.kind := by
  cases h <;> rfl

namespace Related

variable {ρ : Renaming} {s t : State} {v w v' w' : Value}

theorem beq_eq {r : Region} {a b a' b' : Nat}
    (h : Related ρ s t) (hab : ρ.rel r a b) (hab' : ρ.rel r a' b') :
    (a == a') = (b == b') := by
  rw [Bool.eq_iff_iff, beq_iff_eq, beq_iff_eq]
  constructor
  · rintro rfl
    exact h.leftUnique hab hab'
  · rintro rfl
    exact h.rightUnique hab hab'

theorem scriptEq_eq (h : Related ρ s t) (hvw : ρ.OnValues v w) (hvw' : ρ.OnValues v' w') :
    s.store.scriptEq v v' = t.store.scriptEq w w' := by
  cases hvw with
  | int hab =>
      cases hvw' with
      | int hab' => simp only [Store.scriptEq, h.integer_eq hab, h.integer_eq hab']
      | _ => rfl
  | long hab =>
      cases hvw' with
      | long hab' => simp only [Store.scriptEq, h.integer_eq hab, h.integer_eq hab']
      | _ => rfl
  | double hab =>
      cases hvw' with
      | double hab' => simp only [Store.scriptEq, h.double_eq hab, h.double_eq hab']
      | _ => rfl
  | bool hab =>
      cases hvw' with
      | bool hab' => simp only [Store.scriptEq, h.bool_eq hab, h.bool_eq hab']
      | _ => rfl
  | text hab =>
      cases hvw' with
      | text hab' => simp only [Store.scriptEq, h.text_eq hab, h.text_eq hab']
      | _ => rfl
  | list hab =>
      cases hvw' with
      | list hab' => exact h.beq_eq hab hab'
      | _ => rfl
  | array hab =>
      cases hvw' with
      | array hab' => exact h.beq_eq hab hab'
      | _ => rfl
  | iterator hab =>
      cases hvw' with
      | iterator hab' => exact h.beq_eq hab hab'
      | _ => rfl
  | lambda hab =>
      cases hvw' with
      | lambda hab' => exact h.beq_eq hab hab'
      | _ => rfl
  | file | void | dispatcher | factory => cases hvw' <;> rfl

theorem renderSimple_eq (h : Related ρ s t) (hvw : ρ.OnValues v w) :
    s.store.renderSimple v = t.store.renderSimple w := by
  cases hvw with
  | int hab => simp only [Store.renderSimple, h.integer_eq hab]
  | long hab => simp only [Store.renderSimple, h.integer_eq hab]
  | double hab => simp only [Store.renderSimple, h.double_eq hab]
  | bool hab => simp only [Store.renderSimple, h.bool_eq hab]
  | text hab => simp only [Store.renderSimple, h.text_eq hab]
  | lambda hab => simp only [Store.renderSimple, (h.closure hab).function]
  | list | array | iterator | file | void | dispatcher | factory => rfl

theorem lt_size_left {a b : Nat} (h : Related ρ s t) (hab : ρ.rel .items a b) :
    a < s.store.items.size := by
  simpa [State.item?, Store.item?, Pool.size] using h.isSome_left hab

theorem lt_size_right {a b : Nat} (h : Related ρ s t) (hab : ρ.rel .items a b) :
    b < t.store.items.size := by
  simpa [State.item?, Store.item?, Pool.size] using h.isSome_right hab

end Related

theorem Renaming.OnValues.container?_rel {ρ : Renaming} {v w : Value}
    (h : ρ.OnValues v w) :
    Option.Rel (ρ.rel .items) (Store.container? v) (Store.container? w) := by
  cases h with
  | list hab => exact .some hab
  | array hab => exact .some hab
  | int | long | double | bool | text | iterator | file | lambda | void | dispatcher
  | factory =>
      exact .none

theorem map_eq_of_forall₂
    {α β γ : Type} {R : α → β → Prop} {f : α → γ} {g : β → γ} {xs : List α} {ys : List β}
    (h : List.Forall₂ R xs ys) (hfg : ∀ x y, R x y → f x = g y) :
    xs.map f = ys.map g := by
  induction h with
  | nil => rfl
  | cons hxy _ ih => rw [List.map_cons, List.map_cons, hfg _ _ hxy, ih]

theorem exists_rel_of_mem
    {α β : Type} {R : α → β → Prop} {xs : List α} {ys : List β} (h : List.Forall₂ R xs ys)
    {x : α} (hx : x ∈ xs) : ∃ y, R x y := by
  induction h with
  | nil => cases hx
  | cons hfirst _ ih =>
      rcases List.mem_cons.mp hx with rfl | hrest
      · exact ⟨_, hfirst⟩
      · exact ih hrest

namespace Related

variable {ρ : Renaming} {s t : State} {v w v' w' : Value} {xs ys : List Nat}

theorem contains_eq {a b : Nat}
    (h : Related ρ s t) (hab : ρ.rel .items a b)
    (hxys : List.Forall₂ (ρ.rel .items) xs ys) : xs.contains a = ys.contains b := by
  induction hxys with
  | nil => rfl
  | cons hxy _ ih => rw [List.contains_cons, List.contains_cons, h.beq_eq hab hxy, ih]

/-- Containers that are open at once are no more than there are cells. -/
theorem length_le_size
    (h : Related ρ s t) (hxys : List.Forall₂ (ρ.rel .items) xs ys) (hxs : xs.Nodup)
    (hys : ys.Nodup) :
    xs.length ≤ s.store.items.size ∧ ys.length ≤ t.store.items.size := by
  have hleft : xs ⊆ List.range s.store.items.size := by
    intro x hx
    obtain ⟨y, hrel⟩ := exists_rel_of_mem hxys hx
    exact List.mem_range.mpr (h.lt_size_left hrel)
  have hright : ys ⊆ List.range t.store.items.size := by
    intro y hy
    obtain ⟨x, hrel⟩ := exists_rel_of_mem hxys.flip hy
    exact List.mem_range.mpr (h.lt_size_right hrel)
  constructor
  · simpa using (hxs.subperm hleft).length_le
  · simpa using (hys.subperm hright).length_le

/-- The open containers do not repeat, so the steps that are granted are used up on
neither side. -/
theorem renderFrom_eq
    (h : Related ρ s t) {m n : Nat} (hvw : ρ.OnValues v w)
    (hxys : List.Forall₂ (ρ.rel .items) xs ys) (hxs : xs.Nodup) (hys : ys.Nodup)
    (hm : s.store.items.size < m + xs.length) (hn : t.store.items.size < n + ys.length) :
    s.store.renderFrom m xs v = t.store.renderFrom n ys w := by
  induction m generalizing n xs ys v w with
  | zero =>
      have hle := (h.length_le_size hxys hxs hys).1
      omega
  | succ m ih =>
      cases n with
      | zero =>
          have hle := (h.length_le_size hxys hxs hys).2
          omega
      | succ n =>
          rw [Store.renderFrom, Store.renderFrom]
          have hcontainer := hvw.container?_rel
          generalize Store.container? v = cell, Store.container? w = cell' at hcontainer
          cases hcontainer with
          | none => exact h.renderSimple_eq hvw
          | @some a b hab =>
              simp only [h.contains_eq hab hxys]
              by_cases hopen : ys.contains b = true
              · rw [if_pos hopen, if_pos hopen]
              · rw [if_neg hopen, if_neg hopen]
                have hleft : a ∉ xs := by
                  rwa [← List.contains_iff_mem, h.contains_eq hab hxys]
                have hright : b ∉ ys := by
                  rwa [← List.contains_iff_mem]
                have hparts := map_eq_of_forall₂ (h.elements hab) fun x y hxy =>
                  ih hxy (.cons hab hxys) (List.nodup_cons.mpr ⟨hleft, hxs⟩)
                    (List.nodup_cons.mpr ⟨hright, hys⟩) (n := n)
                    (by simp only [List.length_cons]; omega)
                      (by simp only [List.length_cons]; omega)
                rw [hparts]

theorem render_eq (h : Related ρ s t) (hvw : ρ.OnValues v w) :
    s.store.render v = t.store.render w :=
  h.renderFrom_eq hvw .nil .nil .nil (Nat.lt_succ_self _) (Nat.lt_succ_self _)

theorem renderAll_eq
    {vs ws : List Value} (h : Related ρ s t) (hvws : List.Forall₂ ρ.OnValues vs ws) :
    s.store.renderAll vs = t.store.renderAll ws := by
  rw [Store.renderAll, Store.renderAll, map_eq_of_forall₂ hvws
    fun _ _ hvw => h.render_eq hvw]

/-! ## Scopes -/

variable {a b : Nat}

theorem rootOf_rel (h : Related ρ s t) (hab : ρ.rel .scope a b) :
    ρ.rel .scope (s.scopes.rootOf a) (t.scopes.rootOf b) ∧
      ∀ name, ρ.clear (s.scopes.rootOf a) (t.scopes.rootOf b) name := by
  obtain ⟨sc, sd, hsc, hsd, hscopes⟩ := h.scope hab
  rw [Scopes.rootOf, Scopes.rootOf, hsc, hsd]
  exact ⟨hscopes.root, hscopes.rootClear⟩

/-- The scopes around two corresponding ones. -/
theorem parents
    (h : Related ρ s t) {sc sd : Scope Value}
    (hsc : s.scopes.scopes[a]? = some sc) (hsd : t.scopes.scopes[b]? = some sd)
    (hscopes : ρ.OnScopes a b sc sd) :
    (sc.parent = none ∧ sd.parent = none) ∨
      ∃ p q, sc.parent = some p ∧ sd.parent = some q ∧ p < a ∧ q < b ∧ ρ.rel .scope p q ∧
        ∀ name, ρ.clear a b name → ρ.clear p q name := by
  have hparent := hscopes.parent
  have hleft := h.leftLinked a sc hsc
  have hright := h.rightLinked b sd hsd
  generalize sc.parent = p at hparent hleft ⊢
  generalize sd.parent = q at hparent hright ⊢
  cases hparent with
  | none => exact Or.inl ⟨rfl, rfl⟩
  | @some p q hpq =>
      refine Or.inr ⟨p, q, rfl, rfl, ?_, ?_, hpq.1, hpq.2⟩
      · obtain ⟨hnone, -⟩ | ⟨p', hp', hlt, -⟩ := hleft
        · cases hnone
        · cases hp'
          exact hlt
      · obtain ⟨hnone, -⟩ | ⟨q', hq', hlt, -⟩ := hright
        · cases hnone
        · cases hq'
          exact hlt

theorem contains_binding_eq
    {sc sd : Scope Value} (hscopes : ρ.OnScopes a b sc sd) {name : String}
    (hclear : ρ.clear a b name) :
    sc.bindings.contains name = sd.bindings.contains name := by
  have hvalues := hscopes.values name hclear
  simp only [Bindings.contains]
  generalize sc.bindings.get? name = o, sd.bindings.get? name = o' at hvalues
  cases hvalues <;> rfl

/-- A clear name is bound nearest in corresponding scopes, or nowhere in both states. -/
theorem holder?_rel
    (h : Related ρ s t) (hab : ρ.rel .scope a b) {name : String}
    (hclear : ρ.clear a b name) :
    Option.Rel (fun c d => ρ.rel .scope c d ∧ ρ.clear c d name)
      (s.scopes.holder? name a) (t.scopes.holder? name b) := by
  induction a using Nat.strongRecOn generalizing b with
  | ind a ih =>
      obtain ⟨sc, sd, hsc, hsd, hscopes⟩ := h.scope hab
      rw [Scopes.holder?, Scopes.holder?, hsc, hsd]
      simp only [contains_binding_eq hscopes hclear]
      by_cases hbound : sd.bindings.contains name = true
      · rw [if_pos hbound, if_pos hbound]
        exact .some ⟨hab, hclear⟩
      · rw [if_neg hbound, if_neg hbound]
        obtain ⟨hp, hq⟩ | ⟨p, q, hp, hq, hlt, hlt', hpq, hup⟩ := h.parents hsc hsd hscopes
        · rw [hp, hq]
          exact .none
        · rw [hp, hq]
          simp only [if_pos hlt, if_pos hlt']
          exact ih p hlt hpq (hup name hclear)

theorem get?_rel
    (h : Related ρ s t) (hab : ρ.rel .scope a b) {name : String}
    (hclear : ρ.clear a b name) :
    Option.Rel ρ.OnValues (s.scopes.get? a name) (t.scopes.get? b name) := by
  rw [Scopes.get?_eq_holder?, Scopes.get?_eq_holder?]
  have hholder := h.holder?_rel hab hclear
  generalize s.scopes.holder? name a = o, t.scopes.holder? name b = o' at hholder
  cases hholder with
  | none => exact .none
  | some hcd =>
      obtain ⟨sc, sd, hsc, hsd, hscopes⟩ := h.scope hcd.1
      simp only [Option.bind_some, Scopes.bindings, hsc, hsd]
      exact hscopes.values name hcd.2

theorem suggestable_eq (h : Related ρ s t) (hab : ρ.rel .scope a b) :
    Run.suggestable (s.scopes.visibleNames a) = Run.suggestable
      (t.scopes.visibleNames b) := by
  induction a using Nat.strongRecOn generalizing b with
  | ind a ih =>
      obtain ⟨sc, sd, hsc, hsd, hscopes⟩ := h.scope hab
      rw [Scopes.visibleNames, Scopes.visibleNames, hsc, hsd]
      dsimp only
      obtain ⟨hp, hq⟩ | ⟨p, q, hp, hq, hlt, hlt', hpq, -⟩ := h.parents hsc hsd hscopes
      · rw [hp, hq]
        exact hscopes.names
      · rw [hp, hq]
        simp only [if_pos hlt, if_pos hlt']
        have hhere := hscopes.names
        have hup := ih p hlt hpq
        simp only [Run.suggestable, List.filter_append] at hhere hup ⊢
        rw [hhere, hup]

/-! ## Operands -/

theorem size_elements_eq (h : Related ρ s t) (hab : ρ.rel .items a b) :
    (s.store.elements a).size = (t.store.elements b).size :=
  (h.elements hab).length_eq

/-- Operations read the same of corresponding values. -/
theorem looksLike (h : Related ρ s t) (hvw : ρ.OnValues v w) :
    LooksLike s.store t.store v w := by
  have hrender := h.render_eq hvw
  cases hvw with
  | int hab => exact .int (h.integer_eq hab)
  | long hab => exact .long (h.integer_eq hab)
  | double hab => exact .double (h.double_eq hab)
  | bool hab => exact .bool (h.bool_eq hab)
  | text hab => exact .text (h.text_eq hab)
  | list hab => exact .list (h.size_elements_eq hab) hrender
  | array hab => exact .array (h.size_elements_eq hab) hrender
  | iterator hab =>
      obtain ⟨hitems, hnext⟩ := h.cursor hab
      exact .iterator hnext (h.size_elements_eq hitems)
  | file path => exact .file path
  | lambda hab => exact .lambda hrender
  | void => exact .void
  | dispatcher => exact .dispatcher
  | factory => exact .factory

theorem looksLikeAll
    {vs ws : List Value} (h : Related ρ s t) (hvws : List.Forall₂ ρ.OnValues vs ws) :
    List.Forall₂ (LooksLike s.store t.store) vs ws :=
  hvws.imp fun _ _ hxy => h.looksLike hxy

theorem sameView
    {vs ws : List Value} (h : Related ρ s t) (hvw : ρ.OnValues v w)
    (hvws : List.Forall₂ ρ.OnValues vs ws) : SameView s.store t.store v w vs ws where
  receiver := h.looksLike hvw
  args := h.looksLikeAll hvws
  equal := hvws.imp fun _ _ hxy => h.scriptEq_eq hvw hxy

theorem elementAt_rel
    {xs ys : Array Value} (hxys : List.Forall₂ ρ.OnValues xs.toList ys.toList)
    (index : Nat) : ρ.OnValues (elementAt xs index) (elementAt ys index) := by
  simp only [elementAt, Array.getD_eq_getD_getElem?, ← Array.getElem?_toList]
  generalize xs.toList = us, ys.toList = ws at hxys
  induction hxys generalizing index with
  | nil => exact .void
  | cons hxy _ ih =>
      cases index with
      | zero => exact hxy
      | succ index => exact ih index

end Related

end HandleScript
