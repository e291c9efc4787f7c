import HandleScript.Proofs.WordArithmetic

/-!
# Compound assignment

A method such as `plusAssign` computes what `plus` gives and stores it in its receiver.
The operand may be the receiver itself, or hold it. Both methods read all that they need
before anything changes, so one result is made a new value by the one and written to the
receiver by the other; and setting the receiver to the new value writes that result, too.
-/

namespace HandleScript

/-- The outcomes, from the state `s`, of an operation on `x`, of the assignment that goes
with it, and of the operation followed by setting `x` to what it gives. Here `place` is
the cell of `x`. -/
inductive AssignsAlike (s : State) (x : Value) (place : Loc) :
    (operated assigned thenSet : Outcome State Failure Value) → Prop
  /-- The operation makes a new value, and in both ways `x` gets its payload. Nothing else
  changes, so that the two ways leave the same but for the new value. -/
  | done {v : Value} {fresh : Loc} {item : Item} {t s₁ s₂ : State}
      (kind : v.kind = x.kind)
      (handle : v.loc? = some fresh) (new : s.item? fresh = none)
        (made : s.Writes fresh item t)
      (assigned : s.Writes place item s₁) (set : t.Writes place item s₂)
      (same : ∀ loc, loc ≠ fresh → s₂.item? loc = s₁.item? loc) :
      AssignsAlike s x place (.done v t) (.done x s₁) (.done x s₂)
  | failed {cause cause' : Cause} (sort : cause'.sort = cause.sort) :
      AssignsAlike s x place (.failed ⟨cause, none⟩ s) (.failed ⟨cause', none⟩ s)
        (.failed ⟨cause, none⟩ s)

/-! ## Plans -/

/-- The first plan makes a new value of what the second one writes to `x`, or both fail
for causes of one sort. -/
inductive PlansAlike (x : Value) : (operated assigned : Plan) → Prop
  | ok {content : Content} (suits : content.suits x.kind = true) :
      PlansAlike x (.ok (.fresh content)) (.ok (.write x content))
  | error {cause cause' : Cause} (sort : cause'.sort = cause.sort) :
      PlansAlike x (.error cause) (.error cause')

/-- The kind of value that holds the number. -/
def Number.kind : Number → Kind
  | int _ => .int
  | long _ => .long
  | double _ => .double

theorem Number.suits_kind (n : Number) : (Content.number n).suits n.kind = true := by
  cases n <;> rfl

theorem Store.kind_of_number? {store : Store} {v : Value} {n : Number}
    (h : store.number? v = some n) : v.kind = n.kind := by
  cases v <;> cases h <;> rfl

namespace NumberPair

/-- A receiver and an operand are a pair of numbers of the receiver's kind, or no method
takes them. -/
theorem of_cases (store : Store) (receiver operand : Value) :
    (∃ pair : NumberPair, receiver.kind = pair.operand.kind ∧
        ∀ method, of store method receiver operand = .ok pair) ∨
      ∀ method, of store method receiver operand =
        .error (.operandMismatch method receiver.kind operand.kind) := by
  cases hreceiver : store.number? receiver with
  | none => exact .inr fun method => by simp only [of, hreceiver]
  | some a =>
      have hkind := Store.kind_of_number? hreceiver
      cases hoperand : store.number? operand with
      | none => exact .inr fun method => by simp only [of, hreceiver, hoperand]
      | some b =>
          cases a with
          | int a =>
              cases b with
              | int b =>
                  exact .inl ⟨.int a b, hkind,
                    fun method => by simp only [of, hreceiver, hoperand]⟩
              | long | double =>
                  exact .inr fun method => by simp only [of, hreceiver, hoperand]
          | long a =>
              cases b with
              | long b =>
                  exact .inl ⟨.long a b, hkind,
                    fun method => by simp only [of, hreceiver, hoperand]⟩
              | int | double =>
                  exact .inr fun method => by simp only [of, hreceiver, hoperand]
          | double a =>
              cases b with
              | double b =>
                  exact .inl ⟨.double a b, hkind,
                    fun method => by simp only [of, hreceiver, hoperand]⟩
              | int | long =>
                  exact .inr fun method => by simp only [of, hreceiver, hoperand]

theorem kind_of_compute {pair : NumberPair} {op : Arithmetic} {result : Number}
    (h : pair.compute op = .ok result) : result.kind = pair.operand.kind := by
  cases pair with
  | int a b =>
      simp only [compute] at h
      cases hword : op.onWords a b <;> rw [hword] at h <;> cases h
      rfl
  | long a b =>
      simp only [compute] at h
      cases hword : op.onWords a b <;> rw [hword] at h <;> cases h
      rfl
  | double a b =>
      cases h
      rfl

end NumberPair

theorem NumberOp.plansAlike (op : Arithmetic) (store : Store) (x y : Value)
    (method method' : String) :
    PlansAlike x ((NumberOp.arithmetic op).plan store x method [y])
      ((NumberOp.assign op).plan store x method' [y]) := by
  simp only [NumberOp.plan]
  rcases NumberPair.of_cases store x y with ⟨pair, hkind, hpair⟩ | hmismatch
  · rw [hpair, hpair]
    change PlansAlike x (pair.compute op >>= _) (pair.compute op >>= _)
    cases hresult : pair.compute op with
    | ok result =>
        refine .ok ?_
        rw [hkind, ← NumberPair.kind_of_compute hresult]
        exact result.suits_kind
    | error cause => exact .error rfl
  · rw [hmismatch, hmismatch]
    exact .error rfl

theorem TextOp.plansAlike (store : Store) (cell : Nat) (y : Value)
    (method method' : String) :
    PlansAlike (.text cell) (TextOp.plus.plan store (.text cell) method [y])
      (TextOp.plusAssign.plan store (.text cell) method' [y]) :=
  .ok rfl

/-! ## Methods -/

section Methods

variable {host : Host} {fuel scope : Nat} {s : State} {x y : Value} {op : String}

theorem NumberOp.set_plan {store : Store} {v : Value} {n : Number} (hx : x.kind = n.kind)
    (hv : store.number? v = some n) (method : String) :
    NumberOp.set.plan store x method [v] = .ok (.write x (.number n)) := by
  simp only [NumberOp.plan, NumberPair.of, hv]
  cases n <;> cases x <;> cases hx <;> rfl

/-- A handle can be set to a new value of its own kind. -/
theorem dispatch_set {content : Content} (h : content.suits x.kind = true) :
    dispatch host (fuel + 3) scope x "set" (.ready [(s.store.alloc content).1])
        { s with store := (s.store.alloc content).2 } =
      .done x { s with store := (s.store.alloc content).2.write x content } := by
  cases content with
  | number n =>
      have hkind : x.kind = n.kind := by cases n <;> cases x <;> first | rfl | cases h
      have hfound : x.kind.operation? "set" = some (.number .set) := by
        rw [hkind]
        cases n <;> rfl
      have hnew : (s.store.alloc (.number n)).2.number? (s.store.alloc (.number n)).1 =
          some n := by
        cases n <;> simp [Store.alloc, Store.number?, Pool.get_push]
      rw [dispatch_of_eager hfound rfl]
      exact Run.carryOut_write (NumberOp.set_plan hkind hnew "set")
  | text t =>
      obtain ⟨cell, rfl⟩ : ∃ cell, x = .text cell := by
        cases x <;> first | exact ⟨_, rfl⟩ | cases h
      have hnew : (s.store.alloc (.text t)).2.text? (s.store.alloc (.text t)).1 =
          some t := by
        simp [Store.alloc, Store.text?, Pool.get_push]
      rw [dispatch_of_eager (show (Value.text cell).kind.operation? "set" =
        some (.text .set) from rfl) rfl]
      refine Run.carryOut_write ?_
      simp only [EagerOp.plan, TextOp.plan, textOf, hnew]
      rfl
  | bool b =>
      obtain ⟨cell, rfl⟩ : ∃ cell, x = .bool cell := by
        cases x <;> first | exact ⟨_, rfl⟩ | cases h
      have hnew : (s.store.alloc (.bool b)).2.bool? (s.store.alloc (.bool b)).1 =
          some b := by
        simp [Store.alloc, Store.bool?, Pool.get_push]
      rw [dispatch_of_eager (show (Value.bool cell).kind.operation? "set" =
        some (.bool .set) from rfl) rfl]
      refine Run.carryOut_write ?_
      simp only [EagerOp.plan, BoolOp.plan, hnew]
  | list | array | iterator | lambda => cases h

theorem State.item?_next (s : State) (content : Content) :
    s.item? (s.store.next content.region) = none := by
  rw [State.item?_of_ne_scope s content.region_ne_scope]
  exact s.store.item?_next content.region

/-- Operations that plan alike also act alike. -/
theorem assignsAlike_of_plansAlike {operation assignment : EagerOp}
    {method method' : String} {place : Loc}
    (hfound : x.kind.operation? method = some (.eager operation))
    (harity : operation.arity = some 1)
    (hfound' : x.kind.operation? method' = some (.eager assignment))
    (harity' : assignment.arity = some 1) (hplace : x.loc? = some place)
    (hthere : (s.item? place).isSome)
    (h : PlansAlike x (operation.plan host.files s.store x method [y])
      (assignment.plan host.files s.store x method' [y])) :
    let call method v := dispatch host (fuel + 3) scope x method (.ready [v])
    AssignsAlike s x place (call method y s) (call method' y s)
      ((call method y >>= call "set") s) := by
  intro call
  have hcall : call method y s = Run.carryOut
      (fun store => operation.plan host.files store x method [y]) s :=
    congrFun (dispatch_of_eager hfound (Operation.accepts_ready [y] harity) fuel) s
  have hcall' : call method' y s = Run.carryOut
      (fun store => assignment.plan host.files store x method' [y]) s :=
    congrFun (dispatch_of_eager hfound' (Operation.accepts_ready [y] harity') fuel) s
  -- Both plans are read off the same store, before anything is written.
  generalize hplan : operation.plan host.files s.store x method [y] = plan at h
  generalize hplan' : assignment.plan host.files s.store x method' [y] = plan' at h
  cases h with
  | @ok content suits =>
      have hoperated : call method y s =
          .done (s.store.alloc content).1 { s with store := (s.store.alloc content).2 } :=
        hcall.trans (Run.carryOut_fresh hplan)
      have hset : call "set" (s.store.alloc content).1
          { s with store := (s.store.alloc content).2 } =
          .done x { s with store := (s.store.alloc content).2.write x content } :=
            dispatch_set suits
      have hmade := s.writes_alloc content
      have hnew := s.item?_next content
      have hold : place ≠ s.store.next content.region := by
        rintro rfl
        rw [hnew] at hthere
        cases hthere
      have hwritten := s.writes_write suits hplace hthere
      have hwritten' := State.writes_write _ suits hplace
        (by rwa [hmade.item?_of_ne hold])
      rw [Computation.bind_of_done hoperated, hset, hoperated,
        hcall'.trans (Run.carryOut_write hplan')]
      refine .done ?_ (s.store.loc?_alloc content) hnew hmade hwritten hwritten' ?_
      · rcases Store.cases_of_suits suits with
          ⟨_, _, rfl, rfl⟩ | ⟨_, _, rfl, rfl⟩ | ⟨_, _, rfl, rfl⟩ | ⟨_, _, rfl, rfl⟩ |
            ⟨_, _, rfl, rfl⟩ <;> rfl
      · intro loc hne
        rw [hwritten'.item?, hwritten.item?, hmade.item?_of_ne hne]
  | error sort =>
      have hfailed := hcall.trans (Run.carryOut_of_error hplan)
      rw [hfailed, hcall'.trans (Run.carryOut_of_error hplan'),
        Computation.bind_of_failed hfailed]
      exact .failed sort

end Methods

/-! ## Tables -/

/-- The name of the operation that an assignment goes with. -/
def operationOf? (assignment : String) : Option String :=
  let letters := assignment.toList
  let length := letters.length - "Assign".toList.length
  if letters.drop length = "Assign".toList then
    some (String.ofList (letters.take length)) else none

theorem operationOf?_append (op : String) : operationOf? (op ++ "Assign") = some op := by
  simp only [operationOf?, String.toList_append, List.length_append, Nat.add_sub_cancel,
    List.drop_left, List.take_left, if_true, String.ofList_toList]

/-- The assignments that kinds have are those of arithmetic and the one that lengthens a
text. -/
theorem Kind.operations_of_assign {kind : Kind} {op : String}
    (h : op ++ "Assign" ∈ kind.operationNames) :
    (kind = .text ∧ op = "plus") ∨
      ∃ a, kind.operation? op = some (.number (.arithmetic a)) ∧
        kind.operation? (op ++ "Assign") = some (.number (.assign a)) := by
  have htables : ∀ name ∈ kind.operationNames, ∀ op ∈ operationOf? name,
      (kind = .text ∧ op = "plus") ∨
      ∃ a ∈ [Arithmetic.plus, .minus, .multiply, .divide],
          kind.operation? op = some (.number (.arithmetic a)) ∧
        kind.operation? name = some (.number (.assign a)) := by
    cases kind <;> decide +kernel
  rcases htables _ h op (operationOf?_append op) with htext | ⟨a, -, hfound⟩
  · exact .inl htext
  · exact .inr ⟨a, hfound⟩

/-! ## Steps by one -/

/-- Assigning a sum or a difference writes it. -/
theorem WordKind.dispatch_assign (host : Host) (fuel scope : Nat) {s : State}
    (kind : WordKind) {m n : Nat} {a b r : Int64}
    (ha : s.item? ⟨.integer, m⟩ = some (.integer a))
    (hb : s.item? ⟨.integer, n⟩ = some (.integer b)) {method : String} {op : Arithmetic}
    (hfound : Operation.numberTable.lookup method = some (.number (.assign op)))
    (hresult : op.onWords a b = .ok r) :
    dispatch host (fuel + 3) scope (kind.handle m) method (.ready [kind.handle n]) s =
      .done (kind.handle m)
        { s with store := s.store.write (kind.handle m) (.number (kind.number r)) } := by
  have hcompute : (kind.pair a b).compute op = .ok (kind.number r) := by
    cases kind <;> simp only [WordKind.pair, NumberPair.compute, hresult] <;> rfl
  rw [dispatch_of_eager (kind.operation?_handle m hfound) rfl]
  refine Run.carryOut_write ?_
  simp only [EagerOp.plan, NumberOp.plan, kind.pair_of ha hb]
  change (kind.pair a b).compute op >>= _ = _
  rw [hcompute]
  rfl

/-- An assignment such as `plusAssign` does what its operation does followed by `set`,
whether or not the operand is the receiver or holds it: both fail alike and change
nothing, or both give the receiver back with the result in it and nothing else changed.
Steps by one are assignments with an operand that is one. -/
theorem compound_assignment_is_operation_then_set (host : Host) (fuel scope : Nat)
    (s : State) :
    (∀ (x y : Value) (op : String) (place : Loc), op ++ "Assign" ∈ x.kind.operationNames →
        x.loc? = some place →
      (s.item? place).isSome →
      let call method v := dispatch host (fuel + 3) scope x method (.ready [v])
      AssignsAlike s x place (call op y s) (call (op ++ "Assign") y s)
        ((call op y >>= call "set") s)) ∧
    ∀ (kind : WordKind) (m n : Nat) (a : Int64),
        s.item? ⟨.integer, m⟩ = some (.integer a) →
      s.item? ⟨.integer, n⟩ = some (.integer 1) →
      let call method args := dispatch host (fuel + 3) scope
        (kind.handle m) method (.ready args) s
      call "increment" [] = call "plusAssign" [kind.handle n] ∧
        call "decrement" [] = call "minusAssign" [kind.handle n] := by
  constructor
  · intro x y op place hop hplace hthere
    rcases Kind.operations_of_assign hop with ⟨hkind, rfl⟩ | ⟨a, hfound, hfound'⟩
    · obtain ⟨cell, rfl⟩ : ∃ cell, x = .text cell := by
        cases x <;> first | exact ⟨_, rfl⟩ | cases hkind
      have hfound : (Value.text cell).kind.operation? "plus" = some (.text .plus) := rfl
      have hfound' : (Value.text cell).kind.operation? ("plus" ++ "Assign") =
        some (.text .plusAssign) := rfl
      exact assignsAlike_of_plansAlike hfound rfl hfound' rfl hplace hthere
        (TextOp.plansAlike s.store cell y _ _)
    · exact assignsAlike_of_plansAlike hfound rfl hfound' rfl hplace hthere
        (NumberOp.plansAlike a s.store x y _ _)
  · intro kind m n a ha hone call
    have hplus := kind.dispatch_assign host fuel scope ha hone
      (show Operation.numberTable.lookup "plusAssign" =
        some (.number (.assign .plus)) by decide) rfl
    have hminus := kind.dispatch_assign host fuel scope ha hone
      (show Operation.numberTable.lookup "minusAssign" =
        some (.number (.assign .minus)) by decide) rfl
    exact ⟨(kind.dispatch_increment host fuel scope ha).trans hplus.symm,
      (kind.dispatch_decrement host fuel scope ha).trans hminus.symm⟩

/-- A text to which a list that holds it is added, and an int that is taken from
itself. -/
theorem compound_assignment_is_operation_then_set_aliased :
    let s : State := { State.initial (.ofLines [] none) with
      store := { Store.empty with
        integers := ⟨#[5, 1]⟩, texts := ⟨#["ab"]⟩, items := ⟨#[#[.text 0]]⟩ } }
    let call x method v := dispatch ⟨0, .empty, .asBound⟩ 3 globalScope x method
      (.ready [v])
    (AssignsAlike s (.text 0) ⟨.text, 0⟩ (call (.text 0) "plus" (.list 0) s)
        (call (.text 0) "plusAssign" (.list 0) s)
        ((call (.text 0) "plus" (.list 0) >>= call (.text 0) "set") s) ∧
      call (.text 0) "plusAssign" (.list 0) s =
        .done (.text 0) { s with store := { s.store with texts := ⟨#["ab[ab]"]⟩ } }) ∧
    (AssignsAlike s (.int 0) ⟨.integer, 0⟩ (call (.int 0) "minus" (.int 0) s)
        (call (.int 0) "minusAssign" (.int 0) s)
        ((call (.int 0) "minus" (.int 0) >>= call (.int 0) "set") s) ∧
      call (.int 0) "minusAssign" (.int 0) s =
        .done (.int 0) { s with store := { s.store with integers := ⟨#[0, 1]⟩ } }) ∧
    dispatch ⟨0, .empty, .asBound⟩ 3 globalScope (.int 0) "increment" (.ready []) s =
      call (.int 0) "plusAssign" (.int 1) s := by
  intro s call
  have h := compound_assignment_is_operation_then_set
    ⟨0, .empty, .asBound⟩ 0 globalScope s
  refine ⟨⟨h.1 (.text 0) (.list 0) "plus" ⟨.text, 0⟩ (by decide) rfl rfl, ?_⟩,
    ⟨h.1 (.int 0) (.int 0) "minus" ⟨.integer, 0⟩ (by decide) rfl rfl, ?_⟩,
      (h.2 .int 0 1 5 rfl rfl).1⟩
  · change dispatch _ (0 + 3) _ _ _ _ _ = _
    rw [dispatch_of_eager (show (Value.text 0).kind.operation? "plusAssign" =
      some (.text .plusAssign) from rfl) rfl]
    rfl
  · have hresult : Arithmetic.minus.onWords 5 5 = .ok 0 := by
      rw [Arithmetic.onWords, Int64.sub_self]
    exact WordKind.dispatch_assign ⟨0, .empty, .asBound⟩ 0 globalScope .int
      (n := 0) rfl rfl (by decide) hresult

end HandleScript
