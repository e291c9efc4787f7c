import HandleScript.Proofs.Atomicity

/-!
# Iterators over live containers

An iterator holds the cell of its container and the index that comes next, and nothing of
the elements. Whatever is done in between, with the container or with other iterators, its
index is the number of times that it has moved: so it goes by the elements that the
container has at each moment. Calls are taken here in any order, and one call is followed
through the effect that its operation decides on.
-/

namespace HandleScript

/-! ## Calls one after the other -/

/-- A call of a method with evaluated arguments, made from a scope with some steps to
spare. -/
structure Call where
  fuel : Nat
  scope : Nat
  receiver : Value
  method : String
  args : List Value

namespace Call

variable (host : Host)

/-- Makes an iterator over a container. -/
def getIterator (fuel scope : Nat) (container : Value) : Call :=
  ⟨fuel, scope, container, "getIterator", []⟩

/-- Asks an iterator whether an element comes next. -/
def hasNext (fuel scope : Nat) (it : Value) : Call := ⟨fuel, scope, it, "hasNext", []⟩

/-- Moves an iterator past the element that comes next, and gives that element back. -/
def moveNext (fuel scope : Nat) (it : Value) : Call := ⟨fuel, scope, it, "moveNext", []⟩

/-- The call is neither one of a function by name nor one of a function literal. -/
def RunsNoCode (c : Call) : Prop :=
  c.receiver ≠ .dispatcher ∧ ¬(c.receiver.kind = .lambda ∧ c.method = "invoke")

/-- Makes the call. -/
def perform (c : Call) : Run Value :=
  dispatch host (c.fuel + 3) c.scope c.receiver c.method (.ready c.args)

/-- The state that the call leaves, whether it succeeds or fails; a call that crashes
counts as not made. -/
def leave (c : Call) (s : State) : State :=
  (c.perform host s).state?.getD s

/-- The call gives back a value. -/
def Succeeds (c : Call) (s : State) : Prop :=
  ∃ v t, c.perform host s = .done v t

instance (c : Call) (s : State) : Decidable (c.Succeeds host s) :=
  match h : c.perform host s with
  | .done v t => .isTrue ⟨v, t, h⟩
  | .failed _ _ => .isFalse fun ⟨_, _, hdone⟩ => nomatch h.symm.trans hdone
  | .crashed _ => .isFalse fun ⟨_, _, hdone⟩ => nomatch h.symm.trans hdone
  | .exhausted => .isFalse fun ⟨_, _, hdone⟩ => nomatch h.symm.trans hdone

/-- The state after calls, each of them made in the state that the one before has left. -/
def after : List Call → State → State
  | [], s => s
  | c :: calls, s => after calls (c.leave host s)

/-- How often the calls move this iterator. -/
def moves (it : Value) : List Call → State → Nat
  | [], _ => 0
  | c :: calls, s =>
    (if c.receiver = it ∧ c.method = "moveNext" ∧ c.Succeeds host s then 1 else 0) +
      moves it calls (c.leave host s)

variable {host} {c : Call} {s : State}

theorem leave_of_done {v : Value} {t : State} (h : c.perform host s = .done v t) :
    c.leave host s = t := by
  rw [leave, h]
  rfl

end Call

/-- An iterator over a container stands at this position: it has a next element just when
it can move on; it moves on to the element that the container has there now; and at the
end it fails, and stays. -/
structure StandsAt (host : Host) (it : Value) (cell position : Nat) (s : State) :
    Prop where
  hasNext : ∀ fuel scope, ∃ b t truth,
      (Call.hasNext fuel scope it).perform host s = .done b t ∧
    t.store.bool? b = some truth ∧
      (truth = true ↔ (Call.moveNext fuel scope it).Succeeds host t)
  moves : ∀ fuel scope, position < (s.store.elements cell).size →
    ∃ v t, (Call.moveNext fuel scope it).perform host s = .done v t ∧
      (s.store.elements cell)[position]? = some v
  stays : ∀ fuel scope, (s.store.elements cell).size ≤ position →
      (Call.moveNext fuel scope it).perform host s =
    .failed ⟨.indexOutOfBounds position (s.store.elements cell).size, none⟩ s

/-! ## One call -/

namespace Call

variable {host : Host} {c : Call}

/-- A call that runs no code changes nothing, or carries out an effect of the operation
that it names. -/
theorem leave_cases (host : Host) (c : Call) (hc : c.RunsNoCode) (s : State) :
    ¬c.Succeeds host s ∧ c.leave host s = s ∨
      ∃ op sketch effect, c.receiver.kind.operation? c.method = some op ∧
        Arises s.store c.receiver c.args op sketch effect ∧
        c.perform host s = .done (s.store.commit effect).1
          { s with store := (s.store.commit effect).2 } := by
  have hperforms : Performs s c.receiver c.method c.args (c.perform host s) :=
    dispatch_performs host c.fuel c.scope s c.args hc.1 hc.2
  unfold Succeeds leave
  generalize c.perform host s = outcome at hperforms ⊢
  cases hperforms with
  | failed | crashed => exact .inl ⟨nofun, rfl⟩
  | done found arises => exact .inr ⟨_, _, _, found, arises, rfl⟩

/-- What was there before is kept, apart from the receiver's own cell where the operation
changes it. -/
theorem item?_leave
    (hc : c.RunsNoCode) {s : State} {loc : Loc} (hthere : (s.store.item? loc).isSome)
    (hother : c.receiver.loc? = some loc →
      ∀ op, c.receiver.kind.operation? c.method = some op →
      op.treatment.mutates = false) :
    (c.leave host s).store.item? loc = s.store.item? loc := by
  rcases c.leave_cases host hc s with ⟨-, hsame⟩ |
    ⟨op, sketch, effect, hfound, harises, hdone⟩
  · rw [hsame]
  · rw [leave_of_done hdone]
    exact harises.item?_commit hthere fun hloc => hother hloc op hfound

end Call

theorem Kind.mutates_iterator {method : String} {op : Operation}
    (h : Kind.iterator.operation? method = some op) :
    op.treatment.mutates = true ↔ method = "moveNext" := by
  have hall : ∀ entry ∈ Kind.iterator.operations, entry.2.treatment.mutates = true ↔
    entry.1 = "moveNext" := by decide
  exact hall _ (Kind.mem_operations h)

theorem Value.eq_iterator_of_loc? {v : Value} {i : Nat} (h : v.loc? = some ⟨.cursor, i⟩) :
    v = .iterator i := by
  cases v <;> cases h
  rfl

/-- The position of an iterator, as its cursor has it. -/
def Store.HasCursor (store : Store) (cell items position : Nat) : Prop :=
  store.item? ⟨.cursor, cell⟩ = some (.cursor ⟨items, position⟩)

section Position

variable {host : Host} {c : Call} {s : State} {i cell position : Nat}

theorem Store.HasCursor.get {store : Store} (h : store.HasCursor i cell position) :
    store.cursors.get i = ⟨cell, position⟩ :=
  Pool.get_of_map_eq_some Item.cursor.inj h

theorem Store.HasCursor.lt_size {store : Store} (h : store.HasCursor i cell position) :
    i < store.cursors.size := by
  obtain ⟨cursor, hcursor, -⟩ := Option.map_eq_some_iff.mp h
  exact (Array.getElem?_eq_some_iff.mp hcursor).1

/-- An iterator's position changes by one with each call that moves it, and with no
other. -/
theorem Store.HasCursor.leave (h : s.store.HasCursor i cell position)
    (hc : c.RunsNoCode) :
    (c.leave host s).store.HasCursor i cell
      (position + if c.receiver = .iterator i ∧ c.method = "moveNext" ∧
        c.Succeeds host s then 1 else 0) := by
  by_cases hmover : c.receiver = .iterator i ∧ c.method = "moveNext"
  · obtain ⟨hreceiver, hmethod⟩ := hmover
    rcases c.leave_cases host hc s with ⟨hstays, hsame⟩ |
      ⟨op, sketch, effect, hfound, harises, hdone⟩
    · rw [hsame, if_neg fun hmoves => hstays hmoves.2.2]
      exact h
    · rw [Call.leave_of_done hdone, if_pos ⟨hreceiver, hmethod, _, _, hdone⟩]
      rw [hreceiver, hmethod] at hfound
      cases hfound
      rw [hreceiver] at harises
      cases harises with
      | scalar _ makes => cases makes
      | texts _ makes => cases makes
      | write _ changes => cases changes
      | advance hcell =>
          cases hcell
          rw [HasCursor, commit, item?_modifyCursors _ _ h.lt_size, if_pos rfl, h.get]
  · rw [if_neg fun hmoves => hmover ⟨hmoves.1, hmoves.2.1⟩]
    have hkept : (c.leave host s).store.item? ⟨.cursor, i⟩ =
        s.store.item? ⟨.cursor, i⟩ := by
      refine Call.item?_leave hc (by rw [h]; rfl) ?_
      intro hloc op hfound
      have hreceiver := Value.eq_iterator_of_loc? hloc
      rw [hreceiver] at hfound
      exact Bool.eq_false_iff.mpr fun hmutates =>
        hmover ⟨hreceiver, (Kind.mutates_iterator hfound).mp hmutates⟩
    exact hkept.trans h

/-- After any calls, an iterator stands as far from where it stood as they have moved
it. -/
theorem Store.HasCursor.after
    {calls : List Call} (h : s.store.HasCursor i cell position) (host : Host)
    (hcalls : ∀ c ∈ calls, c.RunsNoCode) :
    (Call.after host calls s).store.HasCursor i cell
      (position + Call.moves host (.iterator i) calls s) := by
  induction calls generalizing s position with
  | nil => exact h
  | cons c calls ih =>
      obtain ⟨hfirst, hrest⟩ := List.forall_mem_cons.mp hcalls
      rw [Call.after, Call.moves, ← Nat.add_assoc]
      exact ih (h.leave hfirst) hrest

theorem Store.HasCursor.alloc_bool {store : Store} (h : store.HasCursor i cell position)
    (b : Bool) : (store.alloc (.bool b)).2.HasCursor i cell position :=
  (store.item?_alloc_of_isSome (.bool b) (by rw [h]; rfl)).trans h

theorem Call.perform_moveNext (h : s.store.HasCursor i cell position) (fuel scope : Nat) :
    (Call.moveNext fuel scope (.iterator i)).perform host s =
      if position < (s.store.elements cell).size then
        .done (elementAt (s.store.elements cell) position)
          { s with
            store := (s.store.commit
              (.advance i (elementAt (s.store.elements cell) position))).2 }
      else .failed ⟨.indexOutOfBounds position (s.store.elements cell).size, none⟩ s := by
  have hfound : (Value.iterator i).kind.operation? "moveNext" =
    some (.iterator .moveNext) := rfl
  have hplan : IteratorOp.moveNext.plan s.store (.iterator i) "moveNext" [] =
      if position < (s.store.elements cell).size then
        .ok (.advance i (elementAt (s.store.elements cell) position))
      else .error (.indexOutOfBounds position (s.store.elements cell).size) := by
    change (if (s.store.cursors.get i).next < _ then _ else _) = _
    rw [h.get]
    rfl
  rw [perform, moveNext, dispatch_of_eager hfound rfl, Run.carryOut, EagerOp.plan, hplan]
  by_cases hlt : position < (s.store.elements cell).size
  · rw [if_pos hlt, if_pos hlt]
    rfl
  · rw [if_neg hlt, if_neg hlt]

theorem Call.succeeds_moveNext_iff (h : s.store.HasCursor i cell position)
    (fuel scope : Nat) :
    (Call.moveNext fuel scope (.iterator i)).Succeeds host s ↔
      position < (s.store.elements cell).size := by
  rw [Succeeds, perform_moveNext h]
  split <;> simp_all

theorem Call.perform_hasNext (h : s.store.HasCursor i cell position) (fuel scope : Nat) :
    (Call.hasNext fuel scope (.iterator i)).perform host s =
      .done (.bool s.store.bools.size)
        { s with
          store := (s.store.alloc
            (.bool (position < (s.store.elements cell).size))).2 } := by
  have hfound : (Value.iterator i).kind.operation? "hasNext" =
    some (.iterator .hasNext) := rfl
  have hcursor : s.store.hasNext (s.store.cursors.get i) =
      decide (position < (s.store.elements cell).size) := by
    rw [h.get, Store.hasNext]
  rw [perform, hasNext, dispatch_of_eager hfound rfl, ← hcursor]
  rfl

theorem Store.HasCursor.standsAt (h : s.store.HasCursor i cell position) :
    StandsAt host (.iterator i) cell position s := by
  refine ⟨?_, ?_, ?_⟩
  · intro fuel scope
    refine ⟨_, _, decide (position < (s.store.elements cell).size),
      Call.perform_hasNext h fuel scope, ?_, ?_⟩
    · simp [Store.alloc, Store.bool?, Pool.get_push]
    · rw [decide_eq_true_iff]
      have hkept := h.alloc_bool (position < (s.store.elements cell).size)
      exact (Call.succeeds_moveNext_iff
        (s := { s with store := _ }) hkept fuel scope).symm
  · intro fuel scope hlt
    refine ⟨_, _, (Call.perform_moveNext h fuel scope).trans (if_pos hlt), ?_⟩
    simp [elementAt, hlt]
  · intro fuel scope hle
    exact (Call.perform_moveNext h fuel scope).trans (if_neg (Nat.not_lt.mpr hle))

/-- A new iterator stands at the beginning. -/
theorem Call.hasCursor_getIterator
    {container it : Value} {t : State} {fuel scope : Nat}
    (hcontainer : Store.container? container = some cell)
    (h : (Call.getIterator fuel scope container).perform host s = .done it t) :
    ∃ i, it = .iterator i ∧ t.store.HasCursor i cell 0 := by
  have hfound : container.kind.operation? "getIterator" =
      some (.sequence .getIterator) := by
    cases container <;> cases hcontainer <;> rfl
  rw [perform, getIterator, dispatch_of_eager hfound rfl] at h
  simp only [Run.carryOut, EagerOp.plan, SequenceOp.plan,
    receiverContainer, hcontainer] at h
  cases h
  refine ⟨_, rfl, ?_⟩
  rw [Store.HasCursor, Store.commit, Store.item?_alloc]
  exact if_pos rfl

end Position

/-- Once an iterator over a list or an array has been made, it stands at the number of
times that it has moved, whatever calls have been made since: on the container, on this
iterator or on others. It stays there through all later calls that do not move it, its own
failed ones among them. A call on an iterator changes nothing that is there but that
iterator. -/
theorem iterators_follow_live_contents
    {host : Host} {s s' : State} {container it : Value} {cell fuel scope : Nat}
    (hcontainer : Store.container? container = some cell)
    (hmade : (Call.getIterator fuel scope container).perform host s = .done it s')
    {calls : List Call} (hcalls : ∀ c ∈ calls, c.RunsNoCode) :
    let position := Call.moves host it calls s'
    let t := Call.after host calls s'
    StandsAt host it cell position t ∧
    (∀ later, (∀ c ∈ later, c.RunsNoCode) → Call.moves host it later t = 0 →
      StandsAt host it cell position (Call.after host later t)) ∧
    (∀ (c : Call) (other : Nat), c.receiver = .iterator other →
        ∀ loc, loc ≠ ⟨.cursor, other⟩ → (t.store.item? loc).isSome →
      (c.leave host t).store.item? loc = t.store.item? loc) := by
  intro position t
  obtain ⟨i, rfl, hstart⟩ := Call.hasCursor_getIterator hcontainer hmade
  have hcursor : t.store.HasCursor i cell position := by
    have hafter := hstart.after host hcalls
    rwa [Nat.zero_add] at hafter
  refine ⟨hcursor.standsAt, ?_, ?_⟩
  · intro later hlater hmoves
    have hafter := hcursor.after host hlater
    rw [hmoves] at hafter
    exact hafter.standsAt
  · intro c other hreceiver loc hne hthere
    have hc : c.RunsNoCode := by
      rw [Call.RunsNoCode, hreceiver]
      exact ⟨nofun, nofun⟩
    refine Call.item?_leave hc hthere ?_
    intro hloc
    rw [hreceiver] at hloc
    cases hloc
    exact absurd rfl hne

/-- A list of one element is gone through, emptied and filled again, while a second
iterator goes over it; the first one fails in between and then goes on to the second of
the new elements. -/
theorem iterators_follow_live_contents_refilled :
    let host : Host := ⟨0, .empty, .asBound⟩
    let s : State := { State.initial (.ofLines [] none) with
      store := { Store.empty with integers := ⟨#[0]⟩, items := ⟨#[#[.int 0]]⟩ } }
    let calls : List Call :=
      [.moveNext 0 globalScope (.iterator 0),
          ⟨0, globalScope, .list 0, "remove", [.int 0]⟩,
        .moveNext 0 globalScope (.iterator 0), .getIterator 0 globalScope (.list 0),
        ⟨0, globalScope, .list 0, "add", [.void]⟩, .moveNext 0 globalScope (.iterator 1),
        ⟨0, globalScope, .list 0, "add", [.factory]⟩]
    ∃ s', (Call.getIterator 0 globalScope (.list 0)).perform host s =
        .done (.iterator 0) s' ∧
      Call.moves host (.iterator 0) calls s' = 1 ∧
      ∃ t, (Call.moveNext 0 globalScope (.iterator 0)).perform host
        (Call.after host calls s') = .done .factory t := by
  intro host s calls
  let s' : State := { s with store := { s.store with cursors := ⟨#[⟨0, 0⟩]⟩ } }
  have hmade : (Call.getIterator 0 globalScope (.list 0)).perform host s =
      .done (.iterator 0) s' := by
    with_unfolding_all rfl
  have hmoves : Call.moves host (.iterator 0) calls s' = 1 := by decide +kernel
  have helements : (Call.after host calls s').store.elements 0 = #[.void, .factory] := by
    decide +kernel
  have hcalls : ∀ c ∈ calls, c.RunsNoCode := by
    simp [calls, Call.RunsNoCode, Call.moveNext, Call.getIterator, Value.kind]
  have hstands := (iterators_follow_live_contents rfl hmade hcalls).1
  rw [hmoves] at hstands
  obtain ⟨v, t, hrun, hv⟩ := hstands.moves 0 globalScope (by rw [helements]; decide)
  rw [helements] at hv
  cases hv
  exact ⟨s', hmade, hmoves, t, hrun⟩

end HandleScript
