import HandleScript.Program.Parser
import HandleScript.Proofs.Loop.Direct
import HandleScript.Proofs.Store

/-!
# The block that a `for` loop stands for

What the block does by itself: it makes an iterator and binds it to a name, and in each
round it tests for the end of the container, moves the iterator on and binds the element.
All this takes a few steps, which are made explicit.
-/

namespace HandleScript

/-- The block's test for the end of the container. -/
def eachTest (hidden : String) (start : Span) : Expr :=
  Parser.impliedCall (.name hidden start) "hasNext" start

/-- What the block runs in a round. -/
def eachBody (hidden : String) (start : Span) (x : Located String) (body : List Stmt) :
    List Stmt :=
  .declare x (Parser.impliedCall (.name hidden start) "moveNext" start) start :: body

section Scopes

variable {α : Type} {t : Scopes α} {id : Nat} {name : String} {v : α}

theorem Scopes.get?_of_bindings (h : (t.bindings id).get? name = some v) :
    t.get? id name = some v := by
  rw [Scopes.get?]
  simp only [Scopes.bindings] at h
  cases hid : t.scopes[id]? with
  | none =>
      rw [hid] at h
      cases h
  | some sc =>
      rw [hid] at h
      simp only [h]

theorem Scopes.get?_of_parent
    {sc : Scope α} {parent : Nat} (hsc : t.scopes[id]? = some sc)
    (hnone : sc.bindings.get? name = none) (hparent : sc.parent = some parent)
    (hlt : parent < id) (h : (t.bindings parent).get? name = some v) :
    t.get? id name = some v := by
  rw [Scopes.get?, hsc]
  simp only [hnone, hparent, if_pos hlt]
  exact Scopes.get?_of_bindings h

end Scopes

/-- A call without arguments on a value that has the operation is the operation. -/
theorem eval_impliedCall
    {host : Host} {fuel scope : Nat} {e : Expr} {method : String} {s s' : State}
    {v : Value} {op : EagerOp} (span : Span)
    (hv : eval host (fuel + 4) scope e s = .done v s')
    (hop : v.kind.operation? method = some (.eager op)) (harity : op.arity = some 0) :
    eval host (fuel + 5) scope (Parser.impliedCall e method span) s =
      Run.located span (Run.carryOut fun store => op.plan host.files store v method [])
        s' := by
  have hvoid : v ≠ .void := by
    rintro rfl
    cases hop
  have hdispatcher : v ≠ .dispatcher := by
    rintro rfl
    cases hop
  have haccepts : (Operation.eager op).accepts 0 = true := by
    simp [Operation.accepts, Operation.arity, harity]
  have hdispatch : dispatch host (fuel + 4) scope v method (.deferred scope []) =
      operate host (fuel + 3) (.eager op) v method (.deferred scope []) := by
    rw [dispatch_eq_dispatchKind host (fuel + 3) scope method _ hvoid hdispatcher,
      dispatchKind, hop]
    exact if_pos haccepts
  change Computation.bind _ _ s = _
  rw [Computation.bind, hv]
  simp only [hdispatch]
  rfl

/-- The state in which a new truth value has been made. -/
def State.tested (t : State) (holds : Bool) : State :=
  { t with store := (t.store.alloc (.bool holds)).2 }

/-- The state in which a cursor has moved past an element. -/
def State.advanced (t : State) (cursor : Nat) : State :=
  { t with store :=
      { t.store with
        cursors := t.store.cursors.modify cursor fun c =>
          { c with next := c.next + 1 } } }

section Block

variable {host : Host} {scope cursor : Nat} {hidden : String} {t : State}

theorem located_carryOut
    {plan : Store → Plan} {effect : Effect} (h : plan t.store = .ok effect)
    (hfits : effect.fits = true) (span : Span) :
    Run.located span (Run.carryOut plan) t =
      .done (t.store.commit effect).1 { t with store := (t.store.commit effect).2 } := by
  simp only [Run.located, Computation.adjustFailure, Run.carryOut, h, if_pos hfits]

theorem eval_iteratorCall
    (host : Host) (fuel : Nat) (start : Span)
    (h : t.scopes.get? scope hidden = some (.iterator cursor)) {method : String}
    {op : IteratorOp}
    (hop : Kind.iterator.operation? method = some (.eager (.iterator op))) :
    eval host (fuel + 5) scope (Parser.impliedCall (.name hidden start) method start) t =
      Run.located start (Run.carryOut fun store =>
        op.plan store (.iterator cursor) method []) t := by
  have hname : eval host (fuel + 4) scope (.name hidden start) t =
      .done (.iterator cursor) t := by
    simp only [eval, Run.located, Computation.adjustFailure, Run.lookup, h]
  exact eval_impliedCall start hname hop rfl

theorem condition_of_eval
    {host : Host} {fuel : Nat} {test : Expr} {s' : State} {v : Value} {holds : Bool}
    (hv : eval host fuel scope test t = .done v s')
    (hbool : s'.store.bool? v = some holds) :
    condition host (fuel + 1) scope test t = .done holds s' := by
  refine (Computation.bind_of_done hv _).trans ?_
  change Computation.bind _ _ s' = _
  simp only [Computation.bind, Computation.inspect, hbool]
  rfl

theorem condition_hasNext
    (host : Host) (fuel : Nat) (start : Span)
    (h : t.scopes.get? scope hidden = some (.iterator cursor)) :
    condition host (fuel + 6) scope (eachTest hidden start) t =
      .done (t.store.hasNext (t.store.cursors.get cursor))
        (t.tested (t.store.hasNext (t.store.cursors.get cursor))) := by
  have hop : Kind.iterator.operation? "hasNext" = some (.eager (.iterator .hasNext)) :=
    rfl
  have hcall := eval_iteratorCall host fuel start h hop
  rw [located_carryOut rfl rfl] at hcall
  refine condition_of_eval hcall ?_
  exact congrArg some ((t.store.bools.get_push _ _).trans (if_pos rfl))

theorem eval_moveNext
    (host : Host) (fuel : Nat) (start : Span)
    (h : t.scopes.get? scope hidden = some (.iterator cursor))
    (hnext : t.store.hasNext (t.store.cursors.get cursor) = true) :
    eval host (fuel + 5) scope (Parser.impliedCall (.name hidden start) "moveNext" start)
        t =
      .done (elementAt (t.store.elements (t.store.cursors.get cursor).items)
          (t.store.cursors.get cursor).next)
        (t.advanced cursor) := by
  have hop : Kind.iterator.operation? "moveNext" = some (.eager (.iterator .moveNext)) :=
    rfl
  have hcall := eval_iteratorCall host fuel start h hop
  have hplan : IteratorOp.moveNext.plan t.store (.iterator cursor) "moveNext" [] =
      .ok (.advance cursor
          (elementAt (t.store.elements (t.store.cursors.get cursor).items)
        (t.store.cursors.get cursor).next)) :=
    if_pos (of_decide_eq_true hnext)
  rw [hcall, located_carryOut hplan rfl]
  rfl

end Block

theorem execLoop_of_condition
    {host : Host} {fuel scope : Nat} {test : Expr} {t t' : State} {holds : Bool}
    (h : condition host fuel scope test t = .done holds t') (body : List Stmt) :
    execLoop host (fuel + 1) scope test body t =
      if holds then (execBody host fuel scope body >>=
        afterRound (execLoop host fuel scope test body)) t'
      else .done .pass t' := by
  refine (Computation.bind_of_done h _).trans ?_
  cases holds with
  | false => rfl
  | true =>
    refine congrFun (congrArg (execBody host fuel scope body >>= ·) ?_) t'
    funext flow
    cases flow <;> rfl

section Rounds

variable {host : Host} {scope cursor : Nat} {hidden : String} {t : State}

/-- The state in which the block comes to the body of the loop in a round. -/
def State.enterNext (t : State) (scope : Nat) (x : String) (cursor : Nat) : State :=
  ((t.opened scope).advanced cursor).bound t.scopes.size x
    (elementAt (t.store.elements (t.store.cursors.get cursor).items)
      (t.store.cursors.get cursor).next)

theorem execBody_round
    (host : Host) (fuel : Nat) (start : Span) (x : Located String) (body : List Stmt)
    (hscope : scope < t.scopes.size)
    (hbound : (t.scopes.bindings scope).get? hidden = some (.iterator cursor))
    (hnext : t.store.hasNext (t.store.cursors.get cursor) = true) :
    execBody host (fuel + 8) scope (eachBody hidden start x body) t =
      execAll host (fuel + 6) t.scopes.size body (t.enterNext scope x.node cursor) := by
  have hsc : (t.opened scope).scopes.scopes[t.scopes.size]? =
      some ⟨.empty, some scope, t.scopes.rootOf scope⟩ := by
    simp [State.opened, Scopes.child, Scopes.size]
  have hparent : ((t.opened scope).scopes.bindings scope).get? hidden =
      some (.iterator cursor) := by
    have hne : scope ≠ t.scopes.scopes.size := Nat.ne_of_lt hscope
    simpa [State.opened, Scopes.child, Scopes.bindings, Array.getElem?_push, hne]
      using hbound
  have hget := Scopes.get?_of_parent hsc rfl rfl hscope hparent
  have hmove := eval_moveNext host fuel start hget hnext
  have hdeclare : exec host (fuel + 6) t.scopes.size
      (.declare x (Parser.impliedCall (.name hidden start) "moveNext" start) start)
          (t.opened scope) =
        .done .pass (t.enterNext scope x.node cursor) :=
    Computation.bind_of_done hmove _
  exact Computation.bind_of_done hdeclare _

end Rounds

/-- The state in which a new iterator of a container has been bound to a name. -/
def State.iterating (t : State) (scope : Nat) (name : String) (cell : Nat) : State :=
  State.bound { t with store := (t.store.alloc (.iterator cell)).2 } scope name
    (.iterator t.store.cursors.size)

section Block

variable {host : Host} {fuel scope : Nat} {hidden : String}
  {x : Located String} {iterable : Expr}
variable {t t' : State}

theorem execAll_singleton (host : Host) (fuel scope : Nat) (stmt : Stmt) (s : State) :
    execAll host (fuel + 2) scope [stmt] s = exec host (fuel + 1) scope stmt s := by
  change Computation.bind (exec host (fuel + 1) scope stmt) _ s = _
  unfold Computation.bind
  cases exec host (fuel + 1) scope stmt s with
  | done flow s' => cases flow <;> rfl
  | failed | crashed | exhausted => rfl

/-- Over a container the block comes to its loop, with an iterator of the container. -/
theorem exec_forBlock
    {v : Value} {cell : Nat}
    (hv : eval host (fuel + 4) t.scopes.size iterable (t.opened scope) = .done v t')
    (hcell : Store.container? v = some cell) (start span : Span) (body : List Stmt) :
    exec host (fuel + 9) scope
        (.block (Parser.forBlock hidden start x iterable body) span) t =
      execLoop host (fuel + 4) t.scopes.size (eachTest hidden start)
          (eachBody hidden start x body)
        (t'.iterating t.scopes.size hidden cell) := by
  have hop : v.kind.operation? "getIterator" =
      some (.eager (.sequence .getIterator)) := by
    cases v with
    | list | array => rfl
    | int | long | double | bool | text | iterator | file | lambda | void | dispatcher
    | factory => cases hcell
  have hplan : SequenceOp.getIterator.plan t'.store v "getIterator" [] =
      .ok (.fresh (.iterator cell)) := by
    simp only [SequenceOp.plan, receiverContainer, hcell]
    rfl
  have hcall := eval_impliedCall iterable.span hv hop rfl
  rw [located_carryOut hplan rfl] at hcall
  have hdeclare : exec host (fuel + 6) t.scopes.size
      (.declare ⟨hidden, start⟩ (Parser.impliedCall iterable "getIterator" iterable.span)
          start)
        (t.opened scope) = .done .pass (t'.iterating t.scopes.size hidden cell) :=
    Computation.bind_of_done hcall _
  refine Eq.trans (Computation.bind_of_done hdeclare _) ?_
  exact execAll_singleton host (fuel + 4) t.scopes.size _ _

/-- Where there is nothing to go over, the block breaks off. -/
theorem exec_forBlock_of_breaksOff
    {r : Outcome State Failure Value} {o : Outcome State Failure Flow}
    (hv : eval host (fuel + 4) t.scopes.size iterable (t.opened scope) = r)
    (hbreaks : r.BreaksOff o) (start span : Span) (body : List Stmt) :
    exec host (fuel + 9) scope
      (.block (Parser.forBlock hidden start x iterable body) span) t = o := by
  have hcall : eval host (fuel + 5) t.scopes.size
      (Parser.impliedCall iterable "getIterator" iterable.span)
      (t.opened scope) = r :=
    hbreaks.left.bind_eq hv _
  have hdeclare : exec host (fuel + 6) t.scopes.size
      (.declare ⟨hidden, start⟩ (Parser.impliedCall iterable "getIterator" iterable.span)
          start)
        (t.opened scope) = o :=
    hbreaks.bind_eq hcall _
  exact hbreaks.right.bind_eq hdeclare _

end Block

end HandleScript
