import HandleScript.Proofs.History
import HandleScript.Proofs.Simulation

/-!
# What evaluation can reach

Code that runs in a scope changes nothing but what that scope reaches and what it makes
itself, and hands out nothing else; a call of a function depends on nothing but what the
outermost scope and the arguments reach. Both follow from running the code in a state
beside itself, where every visible place corresponds to itself and no other place
corresponds to any.
-/

namespace HandleScript

/-! ## A state beside itself -/

/-- Every visible place corresponds to itself, and every name is clear. -/
def Renaming.beside (visible : Loc → Prop) (hidden : String → Prop)
    (kinds : Nat → Kind → Prop) : Renaming where
  rel r a b := a = b ∧ visible ⟨r, a⟩
  clear _ _ _ := True
  hidden := hidden
  kinds := kinds

/-- Every visible place corresponds to itself; no name is hidden, and handles of any kind
name any container. -/
def Renaming.identity (visible : Loc → Prop) : Renaming :=
  .beside visible (fun _ => False) fun _ _ => True

/-- If the handle is a list or an array, then such handles can name its cell. -/
def Value.Fits (kinds : Nat → Kind → Prop) : Value → Prop
  | list cell => kinds cell .list
  | array cell => kinds cell .array
  | _ => True

theorem Value.fits_any (v : Value) : v.Fits fun _ _ => True := by
  cases v <;> trivial

/-- The handle is in the item, as what a name is bound to or as an element. -/
def Item.Holds : Item → Value → Prop
  | scope sc, v => ∃ name, sc.bindings.get? name = some v
  | items elements, v => v ∈ elements.toList
  | _, _ => False

/-- The handles in some places of the state are of the given kinds. -/
def State.Sorted (s : State) (visible : Loc → Prop) (kinds : Nat → Kind → Prop) : Prop :=
  ∀ loc x v, visible loc → s.item? loc = some x → x.Holds v → v.Fits kinds

/-- Places of a state that lead nowhere else. With a scope they hold the outermost scope
around it. -/
structure State.Closed (s : State) (visible : Loc → Prop) : Prop where
  exist : ∀ loc, visible loc → (s.item? loc).isSome
  points : ∀ a b, visible a → s.Points a b → visible b
  roots : ∀ id, visible ⟨.scope, id⟩ → visible ⟨.scope, s.scopes.rootOf id⟩

/-- What some places reach is closed. -/
theorem State.WellFormed.closed_reachable
    {s : State} (hs : s.WellFormed) {starts : Loc → Prop}
    (h : ∀ a, starts a → (s.item? a).isSome) :
    s.Closed fun loc => ∃ a, starts a ∧ s.Reaches a loc := by
  have hexist : ∀ loc, (∃ a, starts a ∧ s.Reaches a loc) → (s.item? loc).isSome := by
    rintro loc ⟨a, ha, hreach⟩
    exact hs.isSome_of_reaches (h a ha) hreach
  constructor
  · exact hexist
  · rintro b c ⟨a, ha, hreach⟩ hpoints
    exact ⟨a, ha, hreach.tail hpoints⟩
  · rintro id ⟨a, ha, hreach⟩
    have hid : id < s.scopes.size := isSome_item?_scope.mp (hexist _ ⟨a, ha, hreach⟩)
    exact ⟨a, ha, hreach.trans (hs.reaches_rootOf hid)⟩

theorem State.WellFormed.closed_reaches
    {s : State} (hs : s.WellFormed) {a : Loc} (ha : (s.item? a).isSome) :
    s.Closed (s.Reaches a) := by
  have hclosed : s.Closed fun loc => ∃ b, b = a ∧ s.Reaches b loc :=
    hs.closed_reachable fun b hb => hb ▸ ha
  simpa using hclosed

theorem State.WellFormed.closed_all {s : State} (hs : s.WellFormed) :
    s.Closed fun loc => (s.item? loc).isSome := by
  refine ⟨fun _ h => h, fun a b _ hab => hs.closed a b hab, fun id hid => ?_⟩
  exact hs.isSome_of_reaches hid (hs.reaches_rootOf (isSome_item?_scope.mp hid))

theorem Renaming.onValues_beside
    {visible : Loc → Prop} {kinds : Nat → Kind → Prop} (hidden : String → Prop)
    {v : Value} (h : ∀ loc, v.loc? = some loc → visible loc) (hfits : v.Fits kinds) :
    (beside visible hidden kinds).OnValues v v := by
  cases v with
  | int cell => exact .int ⟨rfl, h _ rfl⟩
  | long cell => exact .long ⟨rfl, h _ rfl⟩
  | double cell => exact .double ⟨rfl, h _ rfl⟩
  | bool cell => exact .bool ⟨rfl, h _ rfl⟩
  | text cell => exact .text ⟨rfl, h _ rfl⟩
  | list cell => exact .list ⟨rfl, h _ rfl⟩ hfits
  | array cell => exact .array ⟨rfl, h _ rfl⟩ hfits
  | iterator cell => exact .iterator ⟨rfl, h _ rfl⟩
  | lambda cell => exact .lambda ⟨rfl, h _ rfl⟩
  | file path => exact .file path
  | void => exact .void
  | dispatcher => exact .dispatcher
  | factory => exact .factory

theorem Renaming.onValues_identity
    {visible : Loc → Prop} {v : Value} (h : ∀ loc, v.loc? = some loc → visible loc) :
    (identity visible).OnValues v v :=
  onValues_beside _ h v.fits_any

theorem optionRel_refl
    {α : Type} {R : α → α → Prop} {o : Option α} (h : ∀ a, o = some a → R a a) :
    Option.Rel R o o := by
  cases o with
  | none => exact .none
  | some a => exact .some (h a rfl)

section Identity

variable {s t : State} {visible : Loc → Prop} {kinds : Nat → Kind → Prop}

theorem State.Closed.onItems
    (h : s.Closed visible) (hsorted : s.Sorted visible kinds) (hidden : String → Prop)
    {r : Region} {a : Nat} {x : Item} (ha : visible ⟨r, a⟩)
    (hx : s.item? ⟨r, a⟩ = some x) :
    (Renaming.beside visible hidden kinds).OnItems a a r x x := by
  have hrefers : ∀ loc, x.RefersTo loc → visible loc :=
    fun loc hloc => h.points _ loc ha ⟨x, hx, hloc⟩
  cases r with
  | scope =>
      obtain ⟨sc, hsc, rfl⟩ := Option.map_eq_some_iff.mp hx
      have hroot : s.scopes.rootOf a = sc.root := by simp [Scopes.rootOf, hsc]
      refine .scope ⟨optionRel_refl fun p hp => ?_, ?_,
        fun _ => trivial, rfl, fun name _ => ?_⟩
      · exact ⟨⟨rfl, hrefers _ (Or.inl ⟨p, hp, rfl⟩)⟩, fun _ _ => trivial⟩
      · exact ⟨rfl, hroot ▸ h.roots a ha⟩
      · refine optionRel_refl fun v hv =>
          Renaming.onValues_beside _ (fun loc hloc => ?_) ?_
        · exact hrefers loc (Or.inr ⟨name, v, hv, hloc⟩)
        · exact hsorted _ _ v ha hx ⟨name, hv⟩
  | items =>
      obtain ⟨elements, -, rfl⟩ := Option.map_eq_some_iff.mp hx
      refine .items (List.forall₂_same.mpr fun v hv =>
        Renaming.onValues_beside _ (fun loc hloc => ?_) ?_)
      · exact hrefers loc ⟨v, hv, hloc⟩
      · exact hsorted _ _ v ha hx hv
  | cursor =>
      obtain ⟨c, -, rfl⟩ := Option.map_eq_some_iff.mp hx
      exact .cursor c.next ⟨rfl, hrefers _ rfl⟩
  | closure =>
      obtain ⟨c, -, rfl⟩ := Option.map_eq_some_iff.mp hx
      exact .closure ⟨rfl, ⟨rfl, hrefers _ rfl⟩, fun _ _ => trivial⟩
  | integer =>
      obtain ⟨n, -, rfl⟩ := Option.map_eq_some_iff.mp hx
      exact .integer n
  | double =>
      obtain ⟨n, -, rfl⟩ := Option.map_eq_some_iff.mp hx
      exact .double n
  | bool =>
      obtain ⟨n, -, rfl⟩ := Option.map_eq_some_iff.mp hx
      exact .bool n
  | text =>
      obtain ⟨n, -, rfl⟩ := Option.map_eq_some_iff.mp hx
      exact .text n

/-- Two states that agree on what is visible are alike. -/
theorem State.Closed.related_beside
    (h : s.Closed visible) (hsorted : s.Sorted visible kinds) (hidden : String → Prop)
    (hs : s.scopes.Linked) (ht : t.scopes.Linked)
    (hsame : ∀ loc, visible loc → t.item? loc = s.item? loc)
    (hfunctions : s.functions = t.functions) (hconsole : s.console = t.console)
    (hdepth : s.depth = t.depth) : Related (.beside visible hidden kinds) s t := by
  constructor
  · rintro r a b b' ⟨rfl, -⟩ ⟨rfl, -⟩
    rfl
  · rintro r a a' b ⟨rfl, -⟩ ⟨rfl, -⟩
    rfl
  · rintro r a b ⟨rfl, ha⟩
    obtain ⟨x, hx⟩ := Option.isSome_iff_exists.mp (h.exist _ ha)
    exact ⟨x, x, hx, (hsame _ ha).trans hx, h.onItems hsorted hidden ha hx⟩
  · exact fun _ _ _ => trivial
  · exact hs
  · exact ht
  · exact hfunctions
  · exact hconsole
  · exact hdepth

theorem State.Closed.related
    (h : s.Closed visible) (hs : s.scopes.Linked) (ht : t.scopes.Linked)
    (hsame : ∀ loc, visible loc → t.item? loc = s.item? loc)
    (hfunctions : s.functions = t.functions) (hconsole : s.console = t.console)
    (hdepth : s.depth = t.depth) : Related (.identity visible) s t :=
  h.related_beside (fun _ _ v _ _ _ => v.fits_any)
    _ hs ht hsame hfunctions hconsole hdepth

theorem State.Closed.related_self (h : s.Closed visible) (hs : s.scopes.Linked) :
    Related (.identity visible) s s :=
  h.related hs hs (fun _ _ => rfl) rfl rfl rfl

end Identity

/-! ## What is in sight afterwards -/

section Sight

variable {ρ : Renaming} {s t : State}

theorem Renaming.OnValues.domain
    {v w : Value} (h : ρ.OnValues v w) {loc : Loc} (hv : v.loc? = some loc) :
    ρ.Domain loc := by
  obtain ⟨b, -, hab⟩ := h.place hv
  exact ⟨b, hab⟩

theorem optionRel_some_left
    {α β : Type} {R : α → β → Prop} {a : α} {o : Option β} (h : Option.Rel R (some a) o) :
    ∃ b, R a b := by
  cases h with
  | some hab => exact ⟨_, hab⟩

/-- Where no name is hidden, places with a counterpart lead to places with a
counterpart. -/
theorem Related.domain_of_points
    (h : Related ρ s t) (hhidden : ∀ name, ¬ρ.hidden name) {a b : Loc} (ha : ρ.Domain a)
    (hab : s.Points a b) : ρ.Domain b := by
  obtain ⟨r, n⟩ := a
  obtain ⟨x, hx, hrefers⟩ := hab
  obtain ⟨m, hnm⟩ := ha
  obtain ⟨x', y, hx', -, hxy⟩ := h.item hnm
  cases hx.symm.trans hx'
  cases hxy with
  | scope hscopes =>
      rcases hrefers with ⟨p, hp, rfl⟩ | ⟨name, v, hv, hloc⟩
      · obtain ⟨q, hpq, -⟩ := optionRel_some_left (hp ▸ hscopes.parent)
        exact ⟨q, hpq⟩
      · have hclear := h.plain hnm name (hhidden name)
        obtain ⟨w, hvw⟩ := optionRel_some_left (hv ▸ hscopes.values name hclear)
        exact hvw.domain hloc
  | items hvalues =>
      obtain ⟨v, hv, hloc⟩ := hrefers
      obtain ⟨w, hvw⟩ := exists_rel_of_mem hvalues hv
      exact hvw.domain hloc
  | cursor next hitems =>
      cases hrefers
      exact ⟨_, hitems⟩
  | closure hclosures =>
      cases hrefers
      exact ⟨_, hclosures.scope⟩
  | integer | double | bool | text => cases hrefers

theorem Related.domain_of_reaches
    (h : Related ρ s t) (hhidden : ∀ name, ¬ρ.hidden name) {a b : Loc} (ha : ρ.Domain a)
    (hab : s.Reaches a b) : ρ.Domain b := by
  induction hab with
  | refl => exact ha
  | tail _ hlast ih => exact h.domain_of_points hhidden ih hlast

end Sight

/-- A later state differs from an earlier one in visible and in new places only. -/
def State.UnchangedOutside (s : State) (visible : Loc → Prop) (s' : State) : Prop :=
  ∀ loc, (s.item? loc).isSome → ¬visible loc → s'.item? loc = s.item? loc

/-- What a handle leads to in a later state was visible in the earlier one, or is new. -/
def State.LeadsInto (s : State) (visible : Loc → Prop) (s' : State) (v : Value) : Prop :=
  ∀ loc, s'.ReachesFrom v loc → visible loc ∨ s.item? loc = none

section Outcomes

variable {α β : Type} {R : Renaming → α → β → Prop} {s t : State} {visible : Loc → Prop}
variable {o : Outcome State Failure α} {o' : Outcome State Failure β}

theorem Extends.not_hidden
    {kinds : Nat → Kind → Prop} {ρ' : Renaming} {s' t' : State}
    (h : Extends (.beside visible (fun _ => False) kinds) s t ρ' s' t') (name : String) :
    ¬ρ'.hidden name := by
  rw [h.grows.hidden]
  exact id

theorem Extends.unchangedOutside
    {ρ' : Renaming} {s' t' : State} (h : Extends (.identity visible) s t ρ' s' t') :
    s.UnchangedOutside visible s' := by
  intro loc hloc hout
  refine h.left.unchanged loc hloc ?_
  rintro ⟨b, -, hin⟩
  exact hout hin

theorem Extends.leadsInto
    {ρ' : Renaming} {s' t' : State} (h : Extends (.identity visible) s t ρ' s' t')
    (hrelated : Related ρ' s' t') {v w : Value} (hvw : ρ'.OnValues v w) :
    s.LeadsInto visible s' v := by
  rintro loc ⟨start, hv, hreach⟩
  obtain ⟨b, hb⟩ := hrelated.domain_of_reaches h.not_hidden (hvw.domain hv) hreach
  rcases h.fresh hb with ⟨-, hin⟩ | ⟨hnone, -⟩
  · exact Or.inl hin
  · exact Or.inr hnone

/-- Only visible and new places change, and a value leads to such places only. -/
theorem Ends.value_inSight
    {o o' : Outcome State Failure Value}
    (h : Ends (.identity visible) s t Renaming.OnValues o o') :
    o.Meets (fun v s' => s.UnchangedOutside visible s' ∧ s.LeadsInto visible s' v)
      (fun _ s' => s.UnchangedOutside visible s') := by
  cases h with
  | done hgrown hrelated hvw =>
      exact ⟨hgrown.unchangedOutside, hgrown.leadsInto hrelated hvw⟩
  | failed failure hgrown hrelated => exact hgrown.unchangedOutside
  | crashed | exhausted => trivial

theorem Ends.flow_inSight
    {o o' : Outcome State Failure Flow}
    (h : Ends (.identity visible) s t Renaming.OnFlows o o') :
    o.Meets
      (fun flow s' => s.UnchangedOutside visible s' ∧
        ∀ v, flow = .giveBack v → s.LeadsInto visible s' v)
      (fun _ s' => s.UnchangedOutside visible s') := by
  cases h with
  | done hgrown hrelated hflow =>
      refine ⟨hgrown.unchangedOutside, ?_⟩
      rintro v rfl
      cases hflow with
      | giveBack hvw => exact hgrown.leadsInto hrelated hvw
  | failed failure hgrown hrelated => exact hgrown.unchangedOutside
  | crashed | exhausted => trivial

section All

variable {kinds : Nat → Kind → Prop} {ρ' : Renaming} {s' t' : State}

/-- Where all places are visible, all places of the later state have a counterpart. -/
theorem Extends.domain_of_isSome
    (h : Extends (.beside (fun loc => (s.item? loc).isSome) (fun _ => False) kinds)
      s t ρ' s' t')
    {loc : Loc} (hloc : (s'.item? loc).isSome) : ρ'.Domain loc := by
  cases hold : s.item? loc with
  | none => exact h.covers loc hold hloc
  | some x =>
      exact ⟨loc.number, h.grows.rel ⟨rfl, Option.isSome_iff_exists.mpr ⟨x, hold⟩⟩⟩

/-- Where all places are visible, the state stays well-formed. -/
theorem Extends.wellFormed
    (h : Extends (.beside (fun loc => (s.item? loc).isSome) (fun _ => False) kinds)
      s t ρ' s' t')
    (hrelated : Related ρ' s' t') : s'.WellFormed := by
  refine ⟨fun a b hab => ?_, hrelated.leftLinked⟩
  have ha : ρ'.Domain a := by
    obtain ⟨x, hx, -⟩ := hab
    exact h.domain_of_isSome (Option.isSome_iff_exists.mpr ⟨x, hx⟩)
  obtain ⟨c, hbc⟩ := hrelated.domain_of_points h.not_hidden ha hab
  exact hrelated.isSome_left hbc

theorem Ends.wellFormed
    (h : Ends (.beside (fun loc => (s.item? loc).isSome) (fun _ => False) kinds)
      s t R o o') :
    o.Meets
      (fun _ s' => s'.WellFormed ∧ s.scopes.size ≤ s'.scopes.size)
      (fun _ s' => s'.WellFormed ∧ s.scopes.size ≤ s'.scopes.size) := by
  cases h with
  | done hgrown hrelated _ => exact ⟨hgrown.wellFormed hrelated, hgrown.left.size_le⟩
  | failed failure hgrown hrelated =>
      exact ⟨hgrown.wellFormed hrelated, hgrown.left.size_le⟩
  | crashed | exhausted => trivial

end All

end Outcomes

/-! ## Whole histories -/

/-- The cell that a handle names exists. -/
def State.Holds (s : State) (v : Value) : Prop :=
  ∀ loc, v.loc? = some loc → (s.item? loc).isSome

/-- A use that gives the interpreter none but handles of its own. -/
def Interpreter.OwnHandles (i : Interpreter) : Interpreter.Use → Prop
  | .load _ => True
  | .run _ _ => True
  | .call _ _ values => ∀ v ∈ values, i.state.Holds v
  | .make content _ => ∀ loc, content.item.RefersTo loc → (i.state.item? loc).isSome
  | .define _ v => i.state.Holds v

/-- The state is well-formed and has an outermost scope. -/
def State.Sane (s : State) : Prop :=
  s.WellFormed ∧ globalScope < s.scopes.size

theorem State.Sane.of_eq
    {s s' : State} (h : s.Sane) (hstore : s'.store = s.store)
    (hscopes : s'.scopes = s.scopes) : s'.Sane := by
  obtain ⟨hs, hglobal⟩ := h
  refine ⟨⟨fun a b hab => ?_, ?_⟩, ?_⟩
  · obtain ⟨x, hx, hrefers⟩ := hab
    rw [State.item?_eq hstore hscopes] at hx ⊢
    exact hs.closed a b ⟨x, hx, hrefers⟩
  · rw [hscopes]
    exact hs.linked
  · rw [hscopes]
    exact hglobal

/-- The outermost scope before anything has run. -/
def Scope.initial : Scope Value :=
  ⟨⟨[(dispatcherName, .dispatcher), (factoryName, .factory)]⟩, none, globalScope⟩

theorem State.scopes_initial (console : Console) :
    (State.initial console).scopes = ⟨#[.initial]⟩ :=
  rfl

theorem Scope.get?_initial {name : String} {v : Value}
    (h : Scope.initial.bindings.get? name = some v) : v = .dispatcher ∨ v = .factory := by
  simp only [Scope.initial, Bindings.get?, List.lookup_cons, List.lookup_nil] at h
  split at h
  · cases h
    exact .inl rfl
  · split at h <;> cases h
    exact .inr rfl

/-- Before anything has run there is one scope and nothing else. -/
theorem State.item?_initial
    {console : Console} {loc : Loc} {x : Item}
    (h : (State.initial console).item? loc = some x) :
    loc = ⟨.scope, globalScope⟩ ∧ x = .scope .initial := by
  obtain ⟨r, n⟩ := loc
  cases r with
  | scope =>
      rw [State.item?_scope, State.scopes_initial, List.getElem?_toArray,
        List.getElem?_singleton] at h
      split at h <;> cases h
      next hn => exact ⟨by rw [hn]; rfl, rfl⟩
  | integer | double | bool | text | items | cursor | closure => cases h

theorem State.initial_sane (console : Console) : (State.initial console).Sane := by
  refine ⟨⟨fun a b hab => ?_, fun id sc hsc => ?_⟩, Nat.zero_lt_one⟩
  · obtain ⟨x, hx, hrefers⟩ := hab
    obtain ⟨-, rfl⟩ := State.item?_initial hx
    rcases hrefers with ⟨parent, hparent, -⟩ | ⟨name, v, hv, hloc⟩
    · cases hparent
    · rcases Scope.get?_initial hv with rfl | rfl <;> cases hloc
  · have hx : (State.initial console).item? ⟨.scope, id⟩ = some (.scope sc) := by
      rw [State.item?_scope, hsc]
      rfl
    obtain ⟨hid, hscope⟩ := State.item?_initial hx
    cases hid
    cases hscope
    exact .inl ⟨rfl, rfl⟩

section Uses

variable {s : State}

theorem State.Holds.onValues {v : Value} (h : s.Holds v) :
    (Renaming.identity fun loc => (s.item? loc).isSome).OnValues v v :=
  Renaming.onValues_identity h

theorem State.Sane.related (h : s.Sane) :
    Related (.identity fun loc => (s.item? loc).isSome) s s :=
  h.1.closed_all.related_self h.1.linked

/-- What a run leaves of a sane state is sane. -/
theorem Ends.sane
    {α β : Type} {R : Renaming → α → β → Prop} {t : State} {o : Outcome State Failure α}
    {o' : Outcome State Failure β} (h : s.Sane)
    (hends : Ends (.identity fun loc => (s.item? loc).isSome) s t R o o') :
    o.Meets (fun _ s' => s'.Sane ∧ s.scopes.size ≤ s'.scopes.size)
      (fun _ s' => s'.Sane ∧ s.scopes.size ≤ s'.scopes.size) :=
  hends.wellFormed.mono (fun _ _ hd => ⟨⟨hd.1, Nat.lt_of_lt_of_le h.2 hd.2⟩, hd.2⟩)
    fun _ _ hf => ⟨⟨hf.1, Nat.lt_of_lt_of_le h.2 hf.2⟩, hf.2⟩

theorem Renaming.onContents_identity
    {visible : Loc → Prop} {content : Content}
    (h : ∀ loc, content.item.RefersTo loc → visible loc) :
    (identity visible).OnContents content content := by
  cases content with
  | number n => exact .number n
  | bool b => exact .bool b
  | text s => exact .text s
  | list elements =>
      refine .list (List.forall₂_same.mpr fun v hv =>
        onValues_identity fun loc hloc => ?_)
      exact h loc ⟨v, hv, hloc⟩
  | array elements =>
      refine .array (List.forall₂_same.mpr fun v hv =>
        onValues_identity fun loc hloc => ?_)
      exact h loc ⟨v, hv, hloc⟩
  | iterator items => exact .iterator ⟨rfl, h _ rfl⟩
  | lambda closure => exact .lambda ⟨rfl, ⟨rfl, h _ rfl⟩, fun _ _ => trivial⟩

/-- An interpreter in whose state nothing is missing, and which lacks no scope that an
earlier one had. -/
def Interpreter.SaneAfter (i i' : Interpreter) : Prop :=
  i'.state.Sane ∧ i.state.scopes.size ≤ i'.state.scopes.size

theorem Interpreter.execute_sane
    {α : Type} {R : Renaming → α → α → Prop} {i : Interpreter} {run : Host → Run α}
    (hi : i.state.Sane)
    (h : ∀ host, Ends (.identity fun loc => (i.state.item? loc).isSome) i.state i.state R
      (run host i.state) (run host i.state)) :
    (i.execute run).Meets (fun _ => i.SaneAfter) (fun _ => i.SaneAfter) := by
  obtain ⟨settings, files, listing, s⟩ := i
  exact Outcome.Meets.lift ((h ⟨settings.maxDepth, files, listing⟩).sane hi)

theorem Interpreter.call_sane
    {i : Interpreter} (hi : i.state.Sane) (fuel : Nat) (name : String)
    {values : List Value} (hvalues : ∀ v ∈ values, i.state.Holds v) :
    (i.call fuel name values).Meets (fun _ => i.SaneAfter) (fun _ => i.SaneAfter) := by
  have hglobal : (i.state.item? ⟨.scope, globalScope⟩).isSome :=
    State.isSome_item?_scope.mpr hi.2
  refine execute_sane hi fun host =>
    (Simulates.always host fuel).callNamed hi.related ?_ ?_
  · exact ⟨hi.2, hi.2, ⟨rfl, hi.1.closed_all.roots _ hglobal⟩, fun _ => trivial⟩
  · exact .ready (List.forall₂_same.mpr fun v hv => (hvalues v hv).onValues)

theorem Interpreter.declared_sane {i : Interpreter} (hi : i.state.Sane) (p : Program) :
    i.SaneAfter (i.declared p) :=
  ⟨hi.of_eq rfl rfl, Nat.le_refl _⟩

theorem Interpreter.load_sane {i : Interpreter} (hi : i.state.Sane) (p : Program) :
    (i.load p).Meets (fun _ => i.SaneAfter) (fun _ => i.SaneAfter) := by
  obtain ⟨e, -, hload⟩ | ⟨-, hload⟩ := i.load_cases p
  · rw [hload]
    exact ⟨hi, Nat.le_refl _⟩
  · rw [hload]
    exact declared_sane hi p

theorem Interpreter.use_sane
    {i : Interpreter} (hi : i.state.Sane) {u : Interpreter.Use} (hu : i.OwnHandles u) :
    (i.use u).Meets (fun _ => i.SaneAfter) (fun _ => i.SaneAfter) := by
  cases u with
  | load p => exact Outcome.Meets.map (load_sane hi p)
  | run fuel p =>
      refine Outcome.Meets.map ?_
      cases hcheck : p.check with
      | error e =>
          rw [run_of_error hcheck]
          exact ⟨hi, Nat.le_refl _⟩
      | ok _ =>
          rw [run_of_ok hcheck]
          exact call_sane (declared_sane hi p).1 fuel i.settings.entry
            fun v (hv : v ∈ []) => nomatch hv
  | call fuel name values => exact Outcome.Meets.map (call_sane hi fuel name hu)
  | make content data =>
      exact (hi.related.alloc (Renaming.onContents_identity hu)).sane hi
  | define name v =>
      have hglobal : (i.state.item? ⟨.scope, globalScope⟩).isSome :=
        State.isSome_item?_scope.mpr hi.2
      exact (hi.related.define ⟨rfl, hglobal⟩ name trivial hu.onValues).sane hi

theorem Interpreter.Reached.sane {i : Interpreter} (h : Reached OwnHandles i) :
    i.state.Sane := by
  induction h with
  | fresh settings files listing console => exact State.initial_sane console
  | @next i i' u before permitted hnext ih =>
      have hkept := (use_sane ih permitted).mono (fun _ _ hd => hd.1) (fun _ _ hf => hf.1)
      exact hkept.of_state? hnext

end Uses

/-- The session's interpreter is sane, and the session's scope exists. -/
def Session.Sane (session : Session) : Prop :=
  session.interpreter.state.Sane ∧ session.scope < session.interpreter.state.scopes.size

theorem Session.new_sane {i : Interpreter} (hi : i.state.Sane) :
    (Session.new i).Sane := by
  have hglobal : (i.state.item? ⟨.scope, globalScope⟩).isSome :=
    State.isSome_item?_scope.mpr hi.2
  have hopened := (hi.related.openScope ⟨rfl, hglobal⟩).sane hi
  refine ⟨hopened.1, ?_⟩
  simp [Session.new, Interpreter.openScope, Interpreter.modifyState,
    Scopes.child, Scopes.size]

theorem Session.use_sane {session : Session} (hs : session.Sane) (u : Session.Use) :
    (session.use u).Meets (fun _ => Session.Sane) (fun _ => Session.Sane) := by
  cases u with
  | reset => exact new_sane hs.1
  | eval fuel input =>
      change (session.eval fuel input).Meets _ _
      obtain ⟨i, scope⟩ := session
      obtain ⟨hi, hscope⟩ := hs
      have hkept : ∀ i', i.SaneAfter i' → Session.Sane ⟨i', scope⟩ :=
        fun i' h => ⟨h.1, Nat.lt_of_lt_of_le hscope h.2⟩
      cases hread : Session.read input with
      | error e =>
          rw [Session.eval_of_error hread]
          exact ⟨hi, hscope⟩
      | ok asked =>
          rw [Session.eval_of_read hread]
          cases asked with
          | declarations p =>
              have hload := Interpreter.load_sane hi p
              exact Outcome.Meets.map
                (Outcome.Meets.lift (hload.mono (fun _ => hkept) fun _ => hkept))
          | statements stmts =>
              have hsees : (Renaming.identity fun loc =>
                  (i.state.item? loc).isSome).Sees scope scope
                  (Stmt.usedAll stmts) :=
                ⟨⟨rfl, State.isSome_item?_scope.mpr hscope⟩, fun _ _ => trivial⟩
              have hrun : (i.evalIn fuel scope stmts).Meets (fun _ => i.SaneAfter)
                  (fun _ => i.SaneAfter) :=
                Interpreter.execute_sane hi fun host =>
                  hi.related.evalStatements host fuel hsees .none
              exact Outcome.Meets.lift (hrun.mono (fun _ => hkept) fun _ => hkept)

theorem Session.Reached.sane
    {session : Session} (h : Reached Interpreter.OwnHandles session) : session.Sane := by
  induction h with
  | new before => exact new_sane before.sane
  | @next session session' u before hnext ih => exact (use_sane ih u).of_state? hnext

/-! ## Evaluation stays in sight -/

/-- What a call sees: all that the outermost scope around the caller and the arguments
lead to. -/
def State.CallSees (s : State) (scope : Nat) (values : List Value) (loc : Loc) : Prop :=
  ∃ start, (start = ⟨.scope, s.scopes.rootOf scope⟩ ∨ ∃ v ∈ values, v.loc? = some start) ∧
    s.Reaches start loc

section Calls

variable {s t : State} {scope : Nat} {values : List Value}

theorem State.WellFormed.closed_callSees
    (hs : s.WellFormed) (hscope : scope < s.scopes.size)
    (hvalues : ∀ v ∈ values, s.Holds v) : s.Closed (s.CallSees scope values) := by
  refine hs.closed_reachable fun start hstart => ?_
  rcases hstart with rfl | ⟨v, hv, hloc⟩
  · exact hs.isSome_of_reaches (isSome_item?_scope.mpr hscope) (hs.reaches_rootOf hscope)
  · exact hvalues v hv start hloc

theorem State.CallSees.root (s : State) (scope : Nat) (values : List Value) :
    s.CallSees scope values ⟨.scope, s.scopes.rootOf scope⟩ :=
  ⟨_, Or.inl rfl, .refl⟩

theorem State.CallSees.onArguments (s : State) (scope : Nat) (values : List Value) :
    (Renaming.identity (s.CallSees scope values)).OnArguments
      (.ready values) (.ready values) := by
  refine .ready (List.forall₂_same.mpr fun v hv =>
    Renaming.onValues_identity fun loc hloc => ?_)
  exact ⟨loc, Or.inr ⟨v, hv, hloc⟩, .refl⟩

/-- A call comes out alike in states that agree on what it sees, whichever scope it is
made from. -/
theorem callNamed_alike
    (hs : s.WellFormed) (ht : t.WellFormed) (hfunctions : s.functions = t.functions)
    (hconsole : s.console = t.console) (hdepth : s.depth = t.depth) {scope' : Nat}
    (hscope : scope < s.scopes.size) (hscope' : scope' < t.scopes.size)
    (hroot : s.scopes.rootOf scope = t.scopes.rootOf scope')
    (hvalues : ∀ v ∈ values, s.Holds v)
    (hsame : ∀ loc, s.CallSees scope values loc → t.item? loc = s.item? loc) (host : Host)
    (fuel : Nat) (name : String) :
    Ends (.identity (s.CallSees scope values)) s t Renaming.OnValues
      (callNamed host fuel scope name (.ready values) s)
      (callNamed host fuel scope' name (.ready values) t) := by
  have hclosed := hs.closed_callSees hscope hvalues
  have hrelated := hclosed.related hs.linked ht.linked hsame hfunctions hconsole hdepth
  refine (Simulates.always host fuel).callNamed hrelated ?_
    (State.CallSees.onArguments s scope values)
  exact ⟨hscope, hscope', ⟨hroot, State.CallSees.root s scope values⟩, fun _ => trivial⟩

end Calls

/-- Code that runs in a scope changes no place that existed and that the scope did not
reach, whatever the outcome, and what it hands out leads to places that the scope reached
or that are new. A call is independent of everything but what the outermost scope and the
arguments reach: two states that agree on that, and two callers with their own variables,
give outcomes that are alike, up to the numbers of new places. All states that an
interpreter or a session comes to are well-formed, so this holds of all of them. -/
theorem evaluation_stays_in_sight :
    (∀ i, Interpreter.Reached Interpreter.OwnHandles i → i.state.WellFormed) ∧
    (∀ session, Session.Reached Interpreter.OwnHandles session →
      session.interpreter.state.WellFormed ∧
        session.scope < session.interpreter.state.scopes.size) ∧
    (∀ s : State, s.WellFormed → ∀ scope, scope < s.scopes.size → ∀ host fuel,
      (∀ e, (eval host fuel scope e s).Meets
        (fun v s' => s.UnchangedOutside (s.Reaches ⟨.scope, scope⟩) s' ∧
          s.LeadsInto (s.Reaches ⟨.scope, scope⟩) s' v)
        (fun _ s' => s.UnchangedOutside (s.Reaches ⟨.scope, scope⟩) s')) ∧
      (∀ stmt, (exec host fuel scope stmt s).Meets
        (fun flow s' => s.UnchangedOutside (s.Reaches ⟨.scope, scope⟩) s' ∧
          ∀ v, flow = .giveBack v → s.LeadsInto (s.Reaches ⟨.scope, scope⟩) s' v)
        (fun _ s' => s.UnchangedOutside (s.Reaches ⟨.scope, scope⟩) s'))) ∧
    (∀ s t : State, s.WellFormed → t.WellFormed → s.functions = t.functions →
      s.console = t.console → s.depth = t.depth →
      ∀ scope scope', scope < s.scopes.size → scope' < t.scopes.size →
      s.scopes.rootOf scope = t.scopes.rootOf scope' →
      ∀ values, (∀ v ∈ values, s.Holds v) →
      (∀ loc, s.CallSees scope values loc → t.item? loc = s.item? loc) → ∀ host fuel name,
      Ends (.identity (s.CallSees scope values)) s t Renaming.OnValues
        (callNamed host fuel scope name (.ready values) s)
        (callNamed host fuel scope' name (.ready values) t) ∧
      (callNamed host fuel scope name (.ready values) s).Meets
        (fun v s' => s.UnchangedOutside (s.CallSees scope values) s' ∧
          s.LeadsInto (s.CallSees scope values) s' v)
        (fun _ s' => s.UnchangedOutside (s.CallSees scope values) s')) := by
  refine ⟨fun i hi => hi.sane.1, fun session hsession =>
    ⟨hsession.sane.1.1, hsession.sane.2⟩, ?_, ?_⟩
  · intro s hs scope hscope host fuel
    have hrelated :=
      (hs.closed_reaches (State.isSome_item?_scope.mpr hscope)).related_self hs.linked
    have hhere : (Renaming.identity (s.Reaches ⟨.scope, scope⟩)).rel .scope scope scope :=
      ⟨rfl, .refl⟩
    have hruns := Simulates.always host fuel
    constructor
    · intro e
      exact (hruns.eval hrelated ⟨hhere, fun _ _ => trivial⟩).value_inSight
    · intro stmt
      exact (hruns.exec hrelated ⟨hhere, fun _ _ => trivial⟩).flow_inSight
  · intro s t hs ht hfunctions hconsole hdepth scope scope' hscope hscope'
        hroot values hvalues hsame
      host fuel name
    have hends := callNamed_alike hs ht hfunctions hconsole hdepth hscope
        hscope' hroot hvalues hsame
      host fuel name
    exact ⟨hends, hends.value_inSight⟩

/-- A session with a list of its own: adding to the list stays in the session's sight, and
a function that asks for the list comes out the same whether it is called from the
session's scope or from the outermost one. -/
theorem evaluation_stays_in_sight_session :
    ∃ session, Session.Reached Interpreter.OwnHandles session ∧ session.scope = 1 ∧
      let s := session.interpreter.state
      let add : Expr := .call (.name "xs" default) ⟨"add", default⟩
        [.literal (.int 2) default] default
      (s.functions.get? "f").isSome ∧
      (eval ⟨100, .empty, .asBound⟩ 40 1 add s).Meets
        (fun v s' => s.UnchangedOutside (s.Reaches ⟨.scope, 1⟩) s' ∧
          s.LeadsInto (s.Reaches ⟨.scope, 1⟩) s' v)
        (fun _ s' => s.UnchangedOutside (s.Reaches ⟨.scope, 1⟩) s') ∧
      Ends (.identity (s.CallSees 1 [])) s s Renaming.OnValues
        (callNamed ⟨100, .empty, .asBound⟩ 40 1 "f" (.ready []) s)
        (callNamed ⟨100, .empty, .asBound⟩ 40 0 "f" (.ready []) s) := by
  let start := Session.new (.fresh {} .empty .asBound (.ofLines [] none))
  let first := start.use (.eval 40 "fun f() { return xs }")
  let second := (first.state?.getD default).use (.eval 40 "var xs = new.list(1)")
  have hfirst : first.state?.isSome := by decide +kernel
  have hsecond : second.state?.isSome := by decide +kernel
  have hscope : (second.state?.getD default).scope = 1 := by decide +kernel
  have hroot : (second.state?.getD default).interpreter.state.scopes.rootOf 1 =
      (second.state?.getD default).interpreter.state.scopes.rootOf 0 := by decide +kernel
  have hloaded :
      ((second.state?.getD default).interpreter.state.functions.get? "f").isSome := by
    decide +kernel
  obtain ⟨before, hbefore⟩ := Option.isSome_iff_exists.mp hfirst
  obtain ⟨session, hsession⟩ := Option.isSome_iff_exists.mp hsecond
  rw [hsession, Option.getD_some] at hscope hroot hloaded
  simp only [second, hbefore, Option.getD_some] at hsession
  have hreached : Session.Reached Interpreter.OwnHandles session :=
    .next (.next (.new (.fresh {} .empty .asBound (.ofLines [] none))) hbefore) hsession
  obtain ⟨hwell, hlt⟩ := evaluation_stays_in_sight.2.1 session hreached
  rw [hscope] at hlt
  refine ⟨session, hreached, hscope, hloaded, ?_, ?_⟩
  · exact (evaluation_stays_in_sight.2.2.1 _ hwell 1 hlt ⟨100, .empty, .asBound⟩ 40).1 _
  · exact (evaluation_stays_in_sight.2.2.2 _ _ hwell hwell rfl rfl rfl 1 0 hlt
        (Nat.zero_lt_of_lt hlt)
      hroot [] (fun _ hv => nomatch hv) (fun _ _ => rfl) ⟨100, .empty, .asBound⟩ 40 "f").1

end HandleScript
