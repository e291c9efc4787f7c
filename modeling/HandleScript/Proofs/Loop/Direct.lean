import HandleScript.Proofs.Fuel

/-!
# Loops over containers

A loop that goes over the elements of a container by their index, up to the length that
the container has when an index is reached. When the container keeps its length and no
round breaks off, the body runs once for each index, in order.
-/

namespace HandleScript

/-- One round of a loop over the container `cell`: the statements run in a scope of their
own inside `scope`, in which `x` is bound to the element with the index `k`. -/
def eachRound (host : Host) (fuel scope : Nat) (x : String) (cell k : Nat)
    (body : List Stmt) : Run Flow := do
  let v ← Computation.inspect fun s => elementAt (s.store.elements cell) k
  let inner ← Run.openScope scope
  Run.define inner x v
  execAll host fuel inner body

/-- How a loop goes on after a round. -/
def afterRound (again : Run Flow) : Flow → Run Flow
  | .leave => return .pass
  | .giveBack v => return .giveBack v
  | .pass => again
  | .skip => again

/-- The rounds of a loop from the index `k` on, up to the end of the container as it is
when the index is reached. -/
def eachFrom (host : Host) :
    (fuel scope : Nat) → (x : String) → (cell k : Nat) → (body : List Stmt) → Run Flow
  | 0, _, _, _, _, _ => Computation.giveUp
  | fuel + 1, scope, x, cell, k, body => do
    if ← Computation.inspect fun s => decide (k < (s.store.elements cell).size) then
      eachRound host fuel scope x cell k body >>= afterRound
        (eachFrom host fuel scope x cell (k + 1) body)
    else return .pass

/-- A loop over the elements of what `iterable` evaluates to, which is evaluated once, in
a scope of its own. -/
def forEach (host : Host) (fuel scope : Nat) (x : String) (iterable : Expr)
    (body : List Stmt) : Run Flow := do
  let inner ← Run.openScope scope
  let v ← eval host fuel inner iterable
  match Store.container? v with
  | some cell => eachFrom host fuel inner x cell 0 body
  | none => Run.failAt iterable.span (unknownMethod v.kind "getIterator")

/-- The state in which a scope has been opened inside another one. -/
def State.opened (t : State) (parent : Nat) : State :=
  { t with scopes := (t.scopes.child parent).2 }

/-- The state in which a name has been bound in a scope. -/
def State.bound (t : State) (scope : Nat) (name : String) (v : Value) : State :=
  { t with scopes := t.scopes.define scope name v }

/-- The state in which the body of a round starts. -/
def State.enterRound (s : State) (scope : Nat) (x : String) (cell k : Nat) : State :=
  (s.opened scope).bound s.scopes.size x (elementAt (s.store.elements cell) k)

theorem eachFrom_succ
    (host : Host) (fuel scope : Nat) (x : String) (cell k : Nat) (body : List Stmt)
    (s : State) :
    eachFrom host (fuel + 1) scope x cell k body s =
      if k < (s.store.elements cell).size then
        (execAll host fuel s.scopes.size body >>= afterRound
            (eachFrom host fuel scope x cell (k + 1) body))
          (s.enterRound scope x cell k)
      else .done .pass s := by
  rw [eachFrom]
  change Computation.bind _ _ s = _
  by_cases hk : k < (s.store.elements cell).size
  · simp only [Computation.bind, Computation.inspect, decide_eq_true hk, if_pos hk]
    rfl
  · simp only [Computation.bind, Computation.inspect, decide_eq_false hk, if_neg hk]
    rfl

theorem afterRound_settles
    {again again' : Run Flow} (h : ∀ s, (again s).Settles (again' s)) (flow : Flow)
    (s : State) : (afterRound again flow s).Settles (afterRound again' flow s) := by
  cases flow with
  | pass => exact h s
  | skip => exact h s
  | giveBack v => exact .refl _
  | leave => exact .refl _

theorem eachFrom_settles
    (host : Host) (fuel scope : Nat) (x : String) (cell k : Nat) (body : List Stmt)
    (s : State) :
    (eachFrom host fuel scope x cell k body s).Settles
      (eachFrom host (fuel + 1) scope x cell k body s) := by
  induction fuel generalizing k s with
  | zero => exact .inl rfl
  | succ fuel ih =>
      rw [eachFrom_succ, eachFrom_succ]
      split
      · refine (execAll_settles host fuel _ body _).bind ?_
        exact afterRound_settles fun s' => ih (k + 1) s'
      · exact .refl _

/-- Steps that suffice for a round, and steps that suffice for the rest of the loop, make
up steps for all of it. -/
theorem exists_eachFrom_eq
    {host : Host} {m n scope cell k : Nat} {x : String} {body : List Stmt} {s s' : State}
    {flow : Flow} (hk : k < (s.store.elements cell).size)
    (hround : execAll host m s.scopes.size body (s.enterRound scope x cell k) =
      .done flow s')
    (hrest : afterRound (eachFrom host n scope x cell (k + 1) body) flow s' ≠
      .exhausted) :
    ∃ fuel, eachFrom host fuel scope x cell k body s =
      afterRound (eachFrom host n scope x cell (k + 1) body) flow s' := by
  have hround' := settled_of_le (execAll_settles host · s.scopes.size body _)
      (Nat.le_max_left m n)
    (by rw [hround]; nofun)
  have hrest' := settled_of_le
    (fun fuel => afterRound_settles
      (eachFrom_settles host fuel scope x cell (k + 1) body) flow s')
    (Nat.le_max_right m n) hrest
  refine ⟨max m n + 1, ?_⟩
  rw [eachFrom_succ, if_pos hk, Computation.bind_of_done (hround'.trans hround), hrest']

theorem forEach_eq
    (host : Host) (fuel scope : Nat) (x : String) (iterable : Expr) (body : List Stmt)
    (s : State) :
    forEach host fuel scope x iterable body s =
      (eval host fuel s.scopes.size iterable >>= fun v =>
        match Store.container? v with
        | some cell => eachFrom host fuel s.scopes.size x cell 0 body
        | none =>
            Run.failAt iterable.span (unknownMethod v.kind "getIterator"))
              (s.opened scope) := rfl

theorem forEach_of_eval
    {host : Host} {m n scope cell : Nat} {x : String} {iterable : Expr} {body : List Stmt}
    {s s' : State} {v : Value}
    (hv : eval host m s.scopes.size iterable (s.opened scope) = .done v s')
    (hcell : Store.container? v = some cell)
    (hrest : eachFrom host n s.scopes.size x cell 0 body s' ≠ .exhausted) :
    ∃ fuel, forEach host fuel scope x iterable body s =
      eachFrom host n s.scopes.size x cell 0 body s' := by
  have hv' := settled_of_le (eval_settles host · s.scopes.size iterable _)
      (Nat.le_max_left m n)
    (by rw [hv]; nofun)
  have hrest' := settled_of_le (eachFrom_settles host · s.scopes.size x cell 0 body s')
    (Nat.le_max_right m n) hrest
  refine ⟨max m n, ?_⟩
  rw [forEach_eq, Computation.bind_of_done (hv'.trans hv)]
  simp only [hcell, hrest']

/-! ## Once for each index -/

/-- The rounds for the indices below `k` have been run from `s` on, in order, and each has
passed or been skipped. -/
inductive Rounds (host : Host) (scope : Nat) (x : String) (cell : Nat) (body : List Stmt)
    (s : State) :
    Nat → State → Prop
  | start : Rounds host scope x cell body s 0 s
  | next {k fuel : Nat} {s' s'' : State} {flow : Flow}
      (before : Rounds host scope x cell body s k s')
      (more : k < (s'.store.elements cell).size)
      (round : eachRound host fuel scope x cell k body s' = .done flow s'')
      (goesOn : flow = .pass ∨ flow = .skip) : Rounds host scope x cell body s (k + 1) s''

section Rounds

variable {host : Host} {scope cell k : Nat} {x : String} {body : List Stmt} {s s' : State}

theorem afterRound_of_goesOn {flow : Flow} (h : flow = .pass ∨ flow = .skip)
    (again : Run Flow) : afterRound again flow = again := by
  rcases h with rfl | rfl <;> rfl

/-- The loop gets past the rounds, and ends as it does from there. -/
theorem Rounds.exists_eachFrom_eq
    (h : Rounds host scope x cell body s k s') {n : Nat}
    (hends : eachFrom host n scope x cell k body s' ≠ .exhausted) :
    ∃ fuel, eachFrom host fuel scope x cell 0 body s =
      eachFrom host n scope x cell k body s' := by
  induction h generalizing n with
  | start => exact ⟨n, rfl⟩
  | next before more round goesOn ih =>
      rw [← afterRound_of_goesOn goesOn (eachFrom host n _ _ _ _ _)] at hends ⊢
      obtain ⟨fuel, hfuel⟩ := HandleScript.exists_eachFrom_eq more round hends
      rw [← hfuel] at hends ⊢
      exact ih hends

/-- As long as the container keeps its length and no round breaks off, there is a round
for each index. -/
theorem exists_rounds
    (hlength : ∀ k s', Rounds host scope x cell body s k s' →
      (s'.store.elements cell).size = (s.store.elements cell).size)
    (hbody : ∀ k s', Rounds host scope x cell body s k s' →
      k < (s.store.elements cell).size →
      ∃ fuel flow s'', eachRound host fuel scope x cell k body s' = .done flow s'' ∧
        (flow = .pass ∨ flow = .skip)) :
    ∀ k, k ≤ (s.store.elements cell).size →
      ∃ s', Rounds host scope x cell body s k s' := by
  intro k
  induction k with
  | zero => exact fun _ => ⟨s, .start⟩
  | succ k ih =>
      intro hk
      obtain ⟨s', hrounds⟩ := ih (Nat.le_of_succ_le hk)
      obtain ⟨fuel, flow, s'', hround, hflow⟩ := hbody k s' hrounds hk
      exact ⟨s'', .next hrounds (by rw [hlength k s' hrounds]; exact hk) hround hflow⟩

/-- The loop then ends where the rounds end. -/
theorem Rounds.eachFrom_eq
    (h : Rounds host scope x cell body s k s')
    (hend : (s'.store.elements cell).size = k) :
    ∃ fuel, eachFrom host fuel scope x cell 0 body s = .done .pass s' := by
  have hdone : eachFrom host 1 scope x cell k body s' = .done .pass s' := by
    rw [eachFrom_succ, if_neg (by omega)]
  obtain ⟨fuel, hfuel⟩ := h.exists_eachFrom_eq (by rw [hdone]; nofun)
  exact ⟨fuel, hfuel.trans hdone⟩

end Rounds

end HandleScript
