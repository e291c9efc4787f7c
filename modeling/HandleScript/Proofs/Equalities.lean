import HandleScript.Proofs.Arguments
import HandleScript.Proofs.Bisimilarity
import HandleScript.Proofs.Heap

/-!
# The three equalities are nested

Handles that name one payload name the same content, and the same content is the same
structure. The one exception is a double that is not a number: two handles of it are the
same, and yet scripts see that it differs from itself. No equality looks across kinds. The
methods `equal` and `notEqual` answer by the equality that scripts see, whatever the
argument is.
-/

namespace HandleScript

theorem float_beq_self_iff {x : Float} : (x == x) = true ↔ x.isNaN = false := by
  rw [float_beq_iff_compare]
  change _ ↔ x.toModel.unpack.isNaN = false
  constructor
  · intro h
    cases hx : x.toModel.unpack with
    | notANumber =>
      rw [hx] at h
      cases h
    | zero | infinity | finite => rfl
  · exact compare_self_of_number

namespace Store

variable {store : Store} {v w : Value}

/-! ## Equality with oneself -/

/-- Whether the value is a double that is not a number. -/
def isNaN (store : Store) : Value → Bool
  | .double cell => (store.doubles.get cell).isNaN
  | _ => false

theorem scriptEq_self_iff (store : Store) (v : Value) :
    store.scriptEq v v = true ↔ store.isNaN v = false := by
  cases v with
  | double cell => exact float_beq_self_iff
  | int | long | bool | text | list | array | iterator | file | lambda =>
      simp [scriptEq, isNaN, Text.samePath]
  | void | dispatcher | factory => simp [scriptEq, isNaN]

theorem sameHandle_self (store : Store) (v : Value) : store.sameHandle v v = true := by
  cases v with
  | int | long | double | bool | text => exact beq_self_eq_true _
  | list | array | iterator | file | lambda | void | dispatcher | factory =>
      simp [sameHandle, scriptEq_self_iff, isNaN]

/-! ## From one equality to the next -/

/-- The handles of scalars that name one payload are one handle. All other values are
compared by what scripts see. -/
theorem eq_or_scriptEq_of_sameHandle (h : store.sameHandle v w = true) :
    v = w ∨ store.scriptEq v w = true := by
  unfold sameHandle at h
  split at h
  case h_6 => exact .inr h
  -- In the other cases the handles name cells of one kind, and the cells are the same.
  all_goals exact .inl (congrArg _ (eq_of_beq h))

theorem scriptEq_or_isNaN_of_sameHandle (h : store.sameHandle v w = true) :
    store.scriptEq v w = true ∨ v = w ∧ store.isNaN v = true := by
  rcases eq_or_scriptEq_of_sameHandle h with rfl | heq
  · rw [scriptEq_self_iff, ← Bool.not_eq_true]
    by_cases hnan : store.isNaN v = true
    · exact .inr ⟨rfl, hnan⟩
    · exact .inl hnan
  · exact .inl heq

/-- Containers that scripts see as equal are one container, so the equality that scripts
see is a bisimulation. -/
theorem isBisimulation_scriptEq (store : Store) :
    store.IsBisimulation fun v w => store.scriptEq v w = true := by
  intro v w h
  unfold Agree
  split
  case h_1 a b hboth =>
    unfold containers? at hboth
    split at hboth <;> cases hboth <;> exact .inl (eq_of_beq h)
  case h_2 => exact h

theorem structuralEq_of_scriptEq (h : store.scriptEq v w = true) :
    store.structuralEq v w = true :=
  (store.structuralEq_iff_bisimilar v w).mpr ⟨_, store.isBisimulation_scriptEq, h⟩

/-! ## No equality across kinds -/

theorem kind_eq_of_scriptEq (h : store.scriptEq v w = true) : v.kind = w.kind := by
  unfold scriptEq at h
  split at h
  case h_14 => cases h
  all_goals rfl

theorem kind_eq_of_sameHandle (h : store.sameHandle v w = true) : v.kind = w.kind := by
  rcases eq_or_scriptEq_of_sameHandle h with rfl | heq
  · rfl
  · exact kind_eq_of_scriptEq heq

theorem kind_eq_of_containers? {p : Nat × Nat} (h : containers? v w = some p) :
    v.kind = w.kind := by
  unfold containers? at h
  split at h
  case h_3 => cases h
  all_goals rfl

theorem kind_eq_of_structuralEq (h : store.structuralEq v w = true) :
    v.kind = w.kind := by
  rw [structuralEq_iff_bisimilar] at h
  have hagree := bisimilar_isBisimulation store v w h
  unfold Agree at hagree
  split at hagree
  case h_1 hboth => exact kind_eq_of_containers? hboth
  case h_2 => exact kind_eq_of_scriptEq hagree

end Store

/-! ## The methods -/

/-- A run from `s` comes back with a truth value in a new cell, and leaves all else as it
is. -/
def State.Answers (s : State) (b : Bool) (o : Outcome State Failure Value) : Prop :=
  ∃ cell s', o = .done (.bool cell) s' ∧ s.item? ⟨.bool, cell⟩ = none ∧
    s.Writes ⟨.bool, cell⟩ (.bool b) s'

theorem State.answers_alloc (s : State) (b : Bool) :
    s.Answers b (Run.alloc (.bool b) s) :=
  ⟨s.store.bools.size, _, rfl, s.store.item?_next .bool, s.writes_alloc (.bool b)⟩

theorem Kind.operation?_equal {kind : Kind} (h : kind ∉ [.void, .dispatcher, .factory]) :
    kind.operation? "equal" = some (.common .equal) ∧
      kind.operation? "notEqual" = some (.common .notEqual) := by
  cases kind <;> revert h <;> decide

theorem answers_equal
    {v : Value} (h : v.kind ∉ [.void, .dispatcher, .factory]) (host : Host)
    (fuel scope : Nat) (w : Value) (s : State) :
    s.Answers (s.store.scriptEq v w)
        (dispatch host (fuel + 3) scope v "equal" (.ready [w]) s) ∧
      s.Answers (!s.store.scriptEq v w)
        (dispatch host (fuel + 3) scope v "notEqual" (.ready [w]) s) := by
  obtain ⟨hequal, hnotEqual⟩ := Kind.operation?_equal h
  rw [dispatch_of_eager hequal rfl, dispatch_of_eager hnotEqual rfl,
    Run.carryOut_fresh rfl, Run.carryOut_fresh rfl]
  exact ⟨s.answers_alloc _, s.answers_alloc _⟩

/-- The equality that scripts see is symmetric and transitive, and a value equals itself
unless it is a double that is not a number. It lies between the sameness of handles, but
for that double, and structural equality. None of the three holds across kinds. Any value
but `void`, the dispatcher and the factory says whether it equals another one, and says
the opposite when it is asked whether it differs. -/
theorem equalities_are_nested (store : Store) :
    (∀ v w, store.scriptEq v w = true → store.scriptEq w v = true) ∧
    (∀ u v w, store.scriptEq u v = true → store.scriptEq v w = true →
      store.scriptEq u w = true) ∧
    (∀ v, store.scriptEq v v = true ↔ store.isNaN v = false) ∧
    (∀ v, store.sameHandle v v = true) ∧
    (∀ v w, store.sameHandle v w = true → store.scriptEq v w = true ∨
      v = w ∧ store.isNaN v = true) ∧
    (∀ v w, store.scriptEq v w = true → store.structuralEq v w = true) ∧
    (∀ v w, v.kind ≠ w.kind →
      store.sameHandle v w = false ∧ store.scriptEq v w = false ∧
        store.structuralEq v w = false) ∧
    ∀ host fuel scope (s : State) v w, s.store = store →
        v.kind ∉ [.void, .dispatcher, .factory] →
      s.Answers (store.scriptEq v w)
          (dispatch host (fuel + 3) scope v "equal" (.ready [w]) s) ∧
        s.Answers (!store.scriptEq v w)
          (dispatch host (fuel + 3) scope v "notEqual" (.ready [w]) s) := by
  refine ⟨fun v w => Store.scriptEq_symm, fun u v w => Store.scriptEq_trans,
      store.scriptEq_self_iff,
    store.sameHandle_self, fun v w => Store.scriptEq_or_isNaN_of_sameHandle,
      fun v w => Store.structuralEq_of_scriptEq,
    ?_, ?_⟩
  · intro v w hkinds
    refine ⟨?_, ?_, ?_⟩ <;> rw [← Bool.not_eq_true] <;> intro h
    · exact hkinds (Store.kind_eq_of_sameHandle h)
    · exact hkinds (Store.kind_eq_of_scriptEq h)
    · exact hkinds (Store.kind_eq_of_structuralEq h)
  · rintro host fuel scope s v w rfl hkind
    exact answers_equal hkind host fuel scope w s

/-- The two zeros are equal and so is their structure, what is not a number has one handle
and differs from itself, and a list of it has one structure. An `int` and a `long` that
share a cell differ. -/
theorem equalities_are_nested_doubles :
    let store : Store := { Store.empty with
      integers := ⟨#[7]⟩, doubles := ⟨#[0, -0, 0 / 0]⟩, items := ⟨#[#[.double 2]]⟩ }
    let s : State := { State.initial (.ofLines [] none) with store := store }
    store.scriptEq (.double 1) (.double 0) = true ∧
      store.structuralEq (.double 0) (.double 1) = true ∧
    store.sameHandle (.double 2) (.double 2) = true ∧ store.isNaN (.double 2) = true ∧
    store.structuralEq (.list 0) (.list 0) = true ∧
    store.scriptEq (.int 0) (.long 0) = false ∧
      store.structuralEq (.int 0) (.long 0) = false ∧
    s.Answers false (dispatch ⟨0, .empty, .asBound⟩ 3 globalScope (.double 2) "equal"
      (.ready [.double 2]) s) ∧
    s.Answers true (dispatch ⟨0, .empty, .asBound⟩ 3 globalScope (.double 2) "notEqual"
      (.ready [.double 2]) s) := by
  intro store s
  obtain ⟨hsymm, -, hself, hhandle, -, hstructure, hkinds, hmethods⟩ :=
    equalities_are_nested store
  have hzeros : store.scriptEq (.double 0) (.double 1) = true := by decide
  have hnan : store.isNaN (.double 2) = true := by decide
  have hdiffers : store.scriptEq (.double 2) (.double 2) = false := by
    rw [← Bool.not_eq_true, hself, hnan]
    decide
  have hwords := hkinds (.int 0) (.long 0) (by decide)
  have hanswers := hmethods ⟨0, .empty, .asBound⟩ 0 globalScope s (.double 2)
    (.double 2) rfl (by decide)
  rw [hdiffers] at hanswers
  exact ⟨hsymm _ _ hzeros, hstructure _ _ hzeros, hhandle _, hnan,
      hstructure _ _ ((hself _).mpr rfl), hwords.2.1,
    hwords.2.2, hanswers⟩

end HandleScript
