import HandleScript.Proofs.Frame

/-!
# Arrays keep their length

Lists and arrays have cells of one pool, and only lists grow and shrink. No code gives a
list's handle to the cell of an array, so as long as no cell is named both ways, no array
changes its length, whatever runs and however it ends.
-/

namespace HandleScript

namespace State

/-- The handle is somewhere in the state. -/
def Mentions (s : State) (v : Value) : Prop :=
  ∃ loc x, s.item? loc = some x ∧ x.Holds v

/-- No container is both a list and an array. -/
def Apart (s : State) : Prop :=
  ∀ cell, ¬(s.Mentions (.list cell) ∧ s.Mentions (.array cell))

/-- The kinds of the handles to a container that are in the state. -/
def kinds (s : State) (cell : Nat) : Kind → Prop
  | .list => s.Mentions (.list cell)
  | .array => s.Mentions (.array cell)
  | _ => True

/-- All places of the state correspond to themselves, with the handles that are there. -/
def beside (s : State) : Renaming :=
  .beside (fun loc => (s.item? loc).isSome) (fun _ => False) s.kinds

theorem WellFormed.related_beside {s : State} (hs : s.WellFormed) :
    Related s.beside s s := by
  have hsorted : s.Sorted (fun loc => (s.item? loc).isSome) s.kinds := by
    intro loc x v _ hx hv
    cases v with
    | list cell => exact ⟨loc, x, hx, hv⟩
    | array cell => exact ⟨loc, x, hx, hv⟩
    | int | long | double | bool | text | iterator | file | lambda | void | dispatcher
    | factory => trivial
  exact hs.closed_all.related_beside hsorted _ hs.linked hs.linked
    (fun _ _ => rfl) rfl rfl rfl

theorem sees_beside {s : State} {scope : Nat} (hscope : scope < s.scopes.size)
    (names : List String) : s.beside.Sees scope scope names :=
  ⟨⟨rfl, isSome_item?_scope.mpr hscope⟩, fun _ _ => trivial⟩

end State

section Kinds

variable {ρ : Renaming} {s t s' t' : State}

theorem Renaming.OnValues.fits {v w : Value} (h : ρ.OnValues v w) : v.Fits ρ.kinds := by
  cases h with
  | list _ kind => exact kind
  | array _ kind => exact kind
  | int | long | double | bool | text | iterator | file | lambda | void | dispatcher
  | factory => trivial

/-- What is in a place with a counterpart corresponds to something. -/
theorem Related.exists_onValues
    (h : Related ρ s t) (hhidden : ∀ name, ¬ρ.hidden name) {loc : Loc} {x : Item}
    {v : Value} (hloc : ρ.Domain loc) (hx : s.item? loc = some x) (hv : x.Holds v) :
    ∃ w, ρ.OnValues v w := by
  obtain ⟨r, a⟩ := loc
  obtain ⟨b, hab⟩ := hloc
  obtain ⟨x', y, hx', -, hxy⟩ := h.item hab
  cases hx.symm.trans hx'
  cases hxy with
  | scope hscopes =>
      obtain ⟨name, hname⟩ := hv
      exact optionRel_some_left
        (hname ▸ hscopes.values name (h.plain hab name (hhidden name)))
  | items hvalues => exact exists_rel_of_mem hvalues hv
  | cursor | closure | integer | double | bool | text => cases hv

theorem Extends.exists_onValues
    (h : Extends s.beside s t ρ s' t') (hrelated : Related ρ s' t') {v : Value}
    (hv : s'.Mentions v) : ∃ w, ρ.OnValues v w := by
  obtain ⟨loc, x, hx, hholds⟩ := hv
  have hloc := h.domain_of_isSome (Option.isSome_iff_exists.mpr ⟨x, hx⟩)
  exact hrelated.exists_onValues h.not_hidden hloc hx hholds

/-- What was apart stays apart: a container that is new is a list or an array and not
both. -/
theorem Extends.apart
    (h : Extends s.beside s t ρ s' t') (hrelated : Related ρ s' t') (hs : s.Apart) :
    s'.Apart := by
  rintro cell ⟨hlist, harray⟩
  obtain ⟨w, hw⟩ := h.exists_onValues hrelated hlist
  obtain ⟨w', hw'⟩ := h.exists_onValues hrelated harray
  cases hw with
  | list hcell hkind =>
      cases hw' with
      | array _ hkind' =>
          rcases h.sorted hcell with hold | hapart
          · exact hs cell ⟨(h.grows.kinds hold .list).mp hkind,
              (h.grows.kinds hold .array).mp hkind'⟩
          · exact hapart ⟨hkind, hkind'⟩

/-- No list comes to name an old container that none named, and its length stays. -/
theorem Extends.not_mentions_list
    (h : Extends s.beside s t ρ s' t') (hrelated : Related ρ s' t') {cell : Nat}
    (hcell : (s.item? ⟨.items, cell⟩).isSome) (hlist : ¬s.Mentions (.list cell)) :
    ¬s'.Mentions (.list cell) ∧
      (s'.store.elements cell).size = (s.store.elements cell).size := by
  have hold : s.beside.rel .items cell cell := ⟨rfl, hcell⟩
  refine ⟨fun hmentions => ?_, h.lengths hold hlist⟩
  obtain ⟨w, hw⟩ := h.exists_onValues hrelated hmentions
  exact hlist ((h.grows.kinds hold .list).mp hw.fits)

end Kinds

theorem State.initial_apart (console : Console) : (State.initial console).Apart := by
  rintro cell ⟨⟨loc, x, hx, hv⟩, -⟩
  obtain ⟨-, rfl⟩ := State.item?_initial hx
  obtain ⟨name, hname⟩ := hv
  rcases Scope.get?_initial hname with heq | heq <;> cases heq

section Runs

variable {α β : Type} {R : Renaming → α → β → Prop} {s t : State}
  {o : Outcome State Failure α}
variable {o' : Outcome State Failure β}

theorem Ends.apart (h : Ends s.beside s t R o o') (hs : s.Apart) :
    o.Meets (fun _ s' => s'.Apart) (fun _ s' => s'.Apart) := by
  cases h with
  | done hgrown hrelated _ => exact hgrown.apart hrelated hs
  | failed failure hgrown hrelated => exact hgrown.apart hrelated hs
  | crashed | exhausted => trivial

/-- The statements of a session leave lists and arrays apart. -/
theorem State.WellFormed.evalStatements_apart
    (hs : s.WellFormed) (hapart : s.Apart) {scope : Nat} (hscope : scope < s.scopes.size)
    (host : Host) (fuel : Nat) (stmts : List Stmt) :
    (evalStatements host fuel scope none stmts s).Meets (fun _ s' => s'.Apart)
      (fun _ s' => s'.Apart) :=
  (hs.related_beside.evalStatements host fuel (State.sees_beside hscope _) .none).apart
    hapart

end Runs

end HandleScript
