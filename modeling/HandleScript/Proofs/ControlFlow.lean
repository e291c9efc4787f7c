import HandleScript.Proofs.Fuel
import HandleScript.Proofs.History
import HandleScript.Proofs.Plan
import HandleScript.Proofs.Store

/-!
# Loop exits never escape

The control-flow check looks at a program before it runs, while a loop exit escapes only
when it runs: a function literal is checked where it stands and called much later, out of
any variable or container. What carries the check over is an invariant of the state: every
loaded function and every closure in the store has a body that passed the check. Under
this invariant a checked sequence of statements passes or gives back a value, and a run
fails for other reasons only.
-/

namespace HandleScript

open ControlFlow

/-! ## Checked code -/

theorem verdict_bind_eq_ok
    {a b : Verdict} (h : (do a; b) = .ok ()) : a = .ok () ∧ b = .ok () := by
  cases a with
  | ok _ => exact ⟨rfl, h⟩
  | error _ => cases h

/-- The function's body passes the check as one that stands in no loop. -/
def Function.Checked (f : Function) : Prop :=
  checkStmts false f.body = .ok ()

theorem checkExpr_lambda
    {f : Function} (h : checkExpr (.lambda f) = .ok ()) : f.Checked := by
  cases f
  simpa only [Function.Checked, checkExpr] using h

theorem checked_of_mem
    {fs : List Function} (h : checkFunctions fs = .ok ()) {f : Function} (hf : f ∈ fs) :
    f.Checked := by
  induction fs with
  | nil => cases hf
  | cons g gs ih =>
      obtain ⟨hfirst, hrest⟩ := verdict_bind_eq_ok h
      rcases List.mem_cons.mp hf with rfl | hmem
      · exact hfirst
      · exact ih hrest hmem

/-- Everything that a state can still run has passed the check. -/
structure State.Checked (s : State) : Prop where
  functions : ∀ name f, s.functions.get? name = some f → f.Checked
  closures : ∀ cell, (s.store.closures.get cell).function.Checked

theorem State.Checked.of_eq
    {s s' : State} (h : s.Checked)
    (hfunctions : s'.functions = s.functions)
    (hclosures : s'.store.closures = s.store.closures) : s'.Checked := by
  constructor
  · rw [hfunctions]
    exact h.functions
  · rw [hclosures]
    exact h.closures

/-- The ways in which a statement may end; only inside a loop may it leave or restart that
loop. -/
def Flow.FitsIn (inLoop : Bool) : Flow → Prop
  | pass => True
  | giveBack _ => True
  | leave => inLoop = true
  | skip => inLoop = true

/-- A failure that is no loop exit. -/
def Failure.Plain (f : Failure) : Prop :=
  f.cause.Plain

theorem Failure.Plain.located
    {f : Failure} (h : f.Plain) (span : Span) : (f.located span).Plain := by
  unfold Failure.located
  split
  · exact h
  · exact h

/-- The run keeps the code of the state checked, and fails for no loop exit. -/
abbrev Run.Sound {α : Type} (run : Run α) (value : α → Prop) : Prop :=
  run.Keeps State.Checked value Failure.Plain

/-! ## Steps that run no code -/

theorem Run.located_sound
    {α : Type} {run : Run α} {value : α → Prop} (h : run.Sound value) (span : Span) :
    (Run.located span run).Sound value :=
  Computation.keeps_adjustFailure h fun _ hf => hf.located span

theorem Run.fail_sound
    {α : Type} {cause : Cause} {value : α → Prop} (h : cause.Plain) :
    (Run.fail cause : Run α).Sound value :=
  Computation.keeps_fail h

theorem State.Checked.pushClosure
    {s : State} (h : s.Checked) {c : Closure} (hc : c.function.Checked) :
    State.Checked
      { s with store := { s.store with closures := s.store.closures.push c } } := by
  constructor
  · exact h.functions
  · intro cell
    change ((s.store.closures.push c).get cell).function.Checked
    rw [Pool.get_push]
    split
    · exact hc
    · exact h.closures cell

/-- What a new handle names holds no code that has not passed the check. -/
def Content.Checked : Content → Prop
  | lambda c => c.function.Checked
  | _ => True

theorem Run.alloc_sound (content : Content) (h : content.Checked) :
    (Run.alloc content).Sound fun _ => True := by
  intro s hs
  refine ⟨?_, trivial⟩
  cases content with
  | lambda c => exact hs.pushClosure h
  | number n => cases n <;> exact hs.of_eq rfl rfl
  | bool b => exact hs.of_eq rfl rfl
  | text t => exact hs.of_eq rfl rfl
  | list elements => exact hs.of_eq rfl rfl
  | array elements => exact hs.of_eq rfl rfl
  | iterator items => exact hs.of_eq rfl rfl

theorem Run.carryOut_sound
    {plan : Store → Plan} {receiver : Value} {args : List Value} {op : Operation}
    {fits : Prop}
    (h : ∀ store, Yields (op.Allows store receiver args)
      (Cause.OfOperation fits) (plan store)) :
    (Run.carryOut plan).Sound fun _ => True := by
  intro s hs
  have hplan := h s.store
  unfold Run.carryOut
  cases hdecided : plan s.store with
  | error cause =>
      rw [hdecided] at hplan
      exact ⟨hs, hplan.1⟩
  | ok effect =>
      rw [hdecided] at hplan
      obtain ⟨sketch, harises⟩ := hplan
      dsimp only
      split
      · exact ⟨hs.of_eq rfl harises.closures_commit, trivial⟩
      · trivial

theorem Run.openScope_sound (parent : Nat) : (Run.openScope parent).Sound fun _ => True :=
  fun _ hs => ⟨hs.of_eq rfl rfl, trivial⟩

theorem Run.define_sound (scope : Nat) (name : String) (v : Value) :
    (Run.define scope name v).Sound fun _ => True :=
  Computation.keeps_update fun _ hs => hs.of_eq rfl rfl

theorem Run.assign_sound (scope : Nat) (name : String) (v : Value) :
    (Run.assign scope name v).Sound fun _ => True :=
  Computation.keeps_update fun _ hs => hs.of_eq rfl rfl

theorem Run.lookup_sound (listing : Listing) (scope : Nat) (name : String) :
    (Run.lookup listing scope name).Sound fun _ => True := by
  intro s hs
  unfold Run.lookup
  split
  · exact ⟨hs, trivial⟩
  · exact ⟨hs, by simp [Failure.Plain, Cause.Plain, Cause.sort]⟩

theorem Run.write_sound (text : String) : (Run.write text).Sound fun _ => True := by
  intro s hs
  unfold Run.write
  split
  · exact ⟨hs.of_eq rfl rfl, trivial⟩
  · exact ⟨hs, by simp [Failure.Plain, Cause.Plain, Cause.sort]⟩

theorem Run.readLine_sound : Run.readLine.Sound fun _ => True := by
  intro s hs
  unfold Run.readLine Console.readLine
  cases s.console.input with
  | nil => exact ⟨hs.of_eq rfl rfl, trivial⟩
  | cons line rest =>
      cases line with
      | text raw => exact ⟨hs.of_eq rfl rfl, trivial⟩
      | garbled =>
          exact ⟨hs.of_eq rfl rfl, by simp [Failure.Plain, Cause.Plain, Cause.sort]⟩

theorem Builtin.call_sound (builtin : Builtin) (args : List Value) :
    (builtin.call args).Sound fun _ => True := by
  cases builtin with
  | println => exact fun s hs => Run.write_sound _ s hs
  | print => exact fun s hs => Run.write_sound _ s hs
  | readln =>
      by_cases h : args.isEmpty
      · simpa [Builtin.call, h] using Run.readLine_sound
      · simpa [Builtin.call, h] using
          Run.fail_sound (by simp [Cause.Plain, Cause.sort])
  | int =>
      rcases args with _ | ⟨v, _ | ⟨w, rest⟩⟩
      · exact Run.fail_sound (by simp [Cause.Plain, Cause.sort])
      · exact Run.carryOut_sound fun store =>
          FactoryOp.int.plan_allows store .factory "int" [v]
      · exact Run.fail_sound (by simp [Cause.Plain, Cause.sort])

theorem Literal.make_sound (value : Literal) : value.make.Sound fun _ => True := by
  cases value with
  | int n => exact Run.alloc_sound (.number (.int n)) trivial
  | double x => exact Run.alloc_sound (.number (.double x)) trivial
  | bool b => exact Run.alloc_sound (.bool b) trivial
  | text s => exact Run.alloc_sound (.text s) trivial
  | void => exact Computation.keeps_pure trivial

/-! ## Running checked code -/

/-- Arguments that are still to be evaluated have passed the check. -/
def Arguments.Checked : Arguments → Prop
  | deferred _ exprs => checkExprs exprs = .ok ()
  | ready _ => True

/-- With so many steps granted, checked code ends in none but the ways that the check
allows, and leaves the state's code checked. -/
structure RunsSoundly (host : Host) (fuel : Nat) : Prop where
  eval : ∀ scope e, checkExpr e = .ok () →
    (eval host fuel scope e).Sound fun _ => True
  evalAll : ∀ scope es, checkExprs es = .ok () →
    (evalAll host fuel scope es).Sound fun _ => True
  force : ∀ args : Arguments, args.Checked → (force host fuel args).Sound fun _ => True
  dispatch : ∀ scope receiver method args, args.Checked →
    (dispatch host fuel scope receiver method args).Sound fun _ => True
  operate : ∀ op receiver method args, args.Checked →
    (operate host fuel op receiver method args).Sound fun _ => True
  callNamed : ∀ scope name args, args.Checked →
    (callNamed host fuel scope name args).Sound fun _ => True
  invoke : ∀ receiver values, (invoke host fuel receiver values).Sound fun _ => True
  callFunction : ∀ f values parent, f.Checked →
    (callFunction host fuel f values parent).Sound fun _ => True
  execAll : ∀ inLoop scope stmts, checkStmts inLoop stmts = .ok () →
    (execAll host fuel scope stmts).Sound (Flow.FitsIn inLoop)
  execBody : ∀ inLoop scope stmts, checkStmts inLoop stmts = .ok () →
    (execBody host fuel scope stmts).Sound (Flow.FitsIn inLoop)
  exec : ∀ inLoop scope stmt, checkStmt inLoop stmt = .ok () →
    (exec host fuel scope stmt).Sound (Flow.FitsIn inLoop)
  execArms : ∀ inLoop scope arms, checkArms inLoop arms = .ok () →
    (execArms host fuel scope arms).Sound (Flow.FitsIn inLoop)
  execLoop : ∀ inLoop scope test body, checkExpr test = .ok () →
      checkStmts true body = .ok () →
    (execLoop host fuel scope test body).Sound (Flow.FitsIn inLoop)
  condition : ∀ scope test, checkExpr test = .ok () →
    (condition host fuel scope test).Sound fun _ => True

namespace RunsSoundly

open HandleScript.Computation

variable {host : Host} {fuel : Nat}

theorem zero : RunsSoundly host 0 := by
  constructor <;> intros <;> exact keeps_giveUp

theorem eval_succ (ih : RunsSoundly host fuel) (scope : Nat) (e : Expr)
    (h : checkExpr e = .ok ()) :
    (HandleScript.eval host (fuel + 1) scope e).Sound fun _ => True := by
  cases e with
  | literal value span => exact value.make_sound
  | name text span =>
      exact Run.located_sound (Run.lookup_sound host.listing scope text) span
  | lambda function =>
      exact Run.alloc_sound (.lambda ⟨function, scope⟩) (checkExpr_lambda h)
  | call receiver method args span =>
      obtain ⟨hreceiver, hargs⟩ := verdict_bind_eq_ok h
      refine keeps_bind (ih.eval scope receiver hreceiver) fun target _ => ?_
      exact Run.located_sound
        (ih.dispatch scope target method.node (.deferred scope args) hargs) method.span

theorem evalAll_succ
    (ih : RunsSoundly host fuel) (scope : Nat) (es : List Expr)
    (h : checkExprs es = .ok ()) :
    (HandleScript.evalAll host (fuel + 1) scope es).Sound fun _ => True := by
  cases es with
  | nil => exact keeps_pure trivial
  | cons e es =>
      obtain ⟨hfirst, hrest⟩ := verdict_bind_eq_ok h
      refine keeps_bind (ih.eval scope e hfirst) fun first _ => ?_
      refine keeps_bind (ih.evalAll scope es hrest) fun rest _ => ?_
      exact keeps_pure trivial

theorem force_succ (ih : RunsSoundly host fuel) (args : Arguments) (h : args.Checked) :
    (HandleScript.force host (fuel + 1) args).Sound fun _ => True := by
  cases args with
  | deferred scope exprs => exact ih.evalAll scope exprs h
  | ready values => exact keeps_pure trivial

theorem dispatch_succ
    (ih : RunsSoundly host fuel) (scope : Nat) (receiver : Value) (method : String)
    (args : Arguments) (h : args.Checked) :
    (HandleScript.dispatch host (fuel + 1) scope receiver method args).Sound
      fun _ => True := by
  by_cases hvoid : receiver = .void
  · subst hvoid
    exact Run.fail_sound (by simp [Cause.Plain, Cause.sort])
  · by_cases hdispatcher : receiver = .dispatcher
    · subst hdispatcher
      exact ih.callNamed scope method args h
    · rw [dispatch_eq_dispatchKind host fuel scope method args hvoid hdispatcher,
        dispatchKind]
      split
      · exact Run.fail_sound (unknownMethod_ofOperation not_false _ _).1
      · split
        · exact ih.operate _ receiver method args h
        · exact Run.fail_sound (by simp [Cause.Plain, Cause.sort])

theorem operate_succ
    (ih : RunsSoundly host fuel) (op : Operation) (receiver : Value) (method : String)
    (args : Arguments) (h : args.Checked) :
    (HandleScript.operate host (fuel + 1) op receiver method args).Sound
      fun _ => True := by
  cases op with
  | invoke => exact keeps_bind (ih.force args h) fun values _ => ih.invoke receiver values
  | connective op =>
      refine keeps_bind (keeps_inspect (fun _ => True) fun _ _ => trivial)
        fun decided _ => ?_
      cases decided with
      | some b => exact Run.alloc_sound (.bool b) trivial
      | none =>
          refine keeps_bind (ih.force args h) fun values _ => ?_
          exact Run.carryOut_sound fun store =>
            op.plan_allows store receiver method values
  | eager op =>
      refine keeps_bind (ih.force args h) fun values _ => ?_
      exact Run.carryOut_sound fun store =>
        op.plan_allows store receiver method values host.files

theorem callNamed_succ
    (ih : RunsSoundly host fuel) (scope : Nat) (name : String) (args : Arguments)
    (h : args.Checked) :
    (HandleScript.callNamed host (fuel + 1) scope name args).Sound fun _ => True := by
  unfold HandleScript.callNamed
  cases Builtin.ofName? name with
  | some builtin =>
      exact keeps_bind (ih.force args h) fun values _ => builtin.call_sound values
  | none =>
      have hread : (Computation.inspect fun s => s.functions.get? name).Keeps
          State.Checked
          (fun found => ∀ f, found = some f → f.Checked) Failure.Plain :=
        keeps_inspect _ fun s hs f hf => hs.functions name f hf
      refine keeps_bind hread fun found hfound => ?_
      cases found with
      | some function =>
          refine keeps_bind (ih.force args h) fun values _ => ?_
          refine keeps_bind (keeps_inspect (fun _ => True) fun _ _ => trivial)
            fun root _ => ?_
          exact ih.callFunction function values root (hfound function rfl)
      | none =>
          intro s hs
          exact ⟨hs, by simp [Failure.Plain, Cause.Plain, undefinedFunction, Cause.sort]⟩

theorem invoke_succ (ih : RunsSoundly host fuel) (receiver : Value)
    (values : List Value) :
    (HandleScript.invoke host (fuel + 1) receiver values).Sound fun _ => True := by
  cases receiver with
  | lambda cell =>
      have hread : (Computation.inspect fun s => s.store.closures.get cell).Keeps
          State.Checked
          (fun closure => closure.function.Checked) Failure.Plain :=
        keeps_inspect _ fun s hs => hs.closures cell
      refine keeps_bind hread fun closure hclosure => ?_
      exact ih.callFunction closure.function values closure.scope hclosure
  | int | long | double | bool | text | list | array | iterator | file | void | dispatcher
  | factory => exact Run.fail_sound (unknownMethod_ofOperation not_false _ _).1

/-- A body that stands in no loop ends in a way that a call can answer. -/
theorem return_meets
    {o : Outcome State Failure Flow}
    (h : o.Meets (fun flow s => s.Checked ∧ flow.FitsIn false)
      (fun failure s => s.Checked ∧ failure.Plain)) :
    (State.return o).Meets (fun _ s => s.Checked ∧ True)
      (fun failure s => s.Checked ∧ failure.Plain) := by
  cases o with
  | crashed | exhausted => trivial
  | failed failure s => exact ⟨h.1.of_eq rfl rfl, h.2⟩
  | done flow s =>
      obtain ⟨hs, hflow⟩ := h
      cases flow with
      | pass => exact ⟨hs.of_eq rfl rfl, trivial⟩
      | giveBack v => exact ⟨hs.of_eq rfl rfl, trivial⟩
      | leave => cases hflow
      | skip => cases hflow

theorem callFunction_succ
    (ih : RunsSoundly host fuel) (f : Function) (values : List Value) (parent : Nat)
    (h : f.Checked) :
    (HandleScript.callFunction host (fuel + 1) f values parent).Sound fun _ => True := by
  intro s hs
  unfold HandleScript.callFunction
  dsimp only
  split
  · exact ⟨hs, by simp [Failure.Plain, Cause.Plain, Cause.sort]⟩
  · split
    · exact ⟨hs, by simp [Failure.Plain, Cause.Plain, Cause.sort]⟩
    · exact return_meets (ih.execAll false _ f.body h _ (hs.of_eq rfl rfl))

theorem execAll_succ
    (ih : RunsSoundly host fuel) (inLoop : Bool) (scope : Nat) (stmts : List Stmt)
    (h : checkStmts inLoop stmts = .ok ()) :
    (HandleScript.execAll host (fuel + 1) scope stmts).Sound (Flow.FitsIn inLoop) := by
  cases stmts with
  | nil => exact keeps_pure trivial
  | cons stmt rest =>
      obtain ⟨hfirst, hrest⟩ := verdict_bind_eq_ok h
      refine keeps_bind (ih.exec inLoop scope stmt hfirst) fun flow hflow => ?_
      cases flow with
      | pass => exact ih.execAll inLoop scope rest hrest
      | giveBack v => exact keeps_pure hflow
      | leave => exact keeps_pure hflow
      | skip => exact keeps_pure hflow

theorem execBody_succ
    (ih : RunsSoundly host fuel) (inLoop : Bool) (scope : Nat) (stmts : List Stmt)
    (h : checkStmts inLoop stmts = .ok ()) :
    (HandleScript.execBody host (fuel + 1) scope stmts).Sound (Flow.FitsIn inLoop) :=
  keeps_bind (Run.openScope_sound scope) fun inner _ => ih.execAll inLoop inner stmts h

theorem exec_succ
    (ih : RunsSoundly host fuel) (inLoop : Bool) (scope : Nat) (stmt : Stmt)
    (h : checkStmt inLoop stmt = .ok ()) :
    (HandleScript.exec host (fuel + 1) scope stmt).Sound (Flow.FitsIn inLoop) := by
  cases stmt with
  | branch arms span => exact ih.execArms inLoop scope arms h
  | loop test body span =>
      obtain ⟨htest, hbody⟩ := verdict_bind_eq_ok h
      exact ih.execLoop inLoop scope test body htest hbody
  | declare name init span =>
      refine keeps_bind (ih.eval scope init h) fun v _ => ?_
      exact keeps_bind (Run.define_sound scope name.node v) fun _ _ => keeps_pure trivial
  | assign name value span =>
      refine keeps_bind (ih.eval scope value h) fun v _ => ?_
      exact keeps_bind (Run.assign_sound scope name.node v) fun _ _ => keeps_pure trivial
  | giveBack value span =>
      cases value with
      | none => exact keeps_pure trivial
      | some value =>
          exact keeps_bind (ih.eval scope value h) fun v _ => keeps_pure trivial
  | leave span =>
      cases inLoop with
      | false => cases h
      | true => exact keeps_pure rfl
  | skip span =>
      cases inLoop with
      | false => cases h
      | true => exact keeps_pure rfl
  | block body span => exact ih.execBody inLoop scope body h
  | expr value span =>
      exact keeps_bind (ih.eval scope value h) fun _ _ => keeps_pure trivial

theorem execArms_succ
    (ih : RunsSoundly host fuel) (inLoop : Bool) (scope : Nat) (arms : Arms)
    (h : checkArms inLoop arms = .ok ()) :
    (HandleScript.execArms host (fuel + 1) scope arms).Sound (Flow.FitsIn inLoop) := by
  cases arms with
  | done => exact keeps_pure trivial
  | otherwise body => exact ih.execBody inLoop scope body h
  | test test body rest =>
      obtain ⟨htest, hmore⟩ := verdict_bind_eq_ok h
      obtain ⟨hbody, hrest⟩ := verdict_bind_eq_ok hmore
      refine keeps_bind (ih.condition scope test htest) fun holds _ => ?_
      cases holds with
      | true => exact ih.execBody inLoop scope body hbody
      | false => exact ih.execArms inLoop scope rest hrest

theorem execLoop_succ
    (ih : RunsSoundly host fuel) (inLoop : Bool) (scope : Nat) (test : Expr)
    (body : List Stmt) (htest : checkExpr test = .ok ())
    (hbody : checkStmts true body = .ok ()) :
    (HandleScript.execLoop host (fuel + 1) scope test body).Sound
      (Flow.FitsIn inLoop) := by
  refine keeps_bind (ih.condition scope test htest) fun holds _ => ?_
  cases holds with
  | false => exact keeps_pure trivial
  | true =>
      refine keeps_bind (ih.execBody true scope body hbody) fun flow _ => ?_
      cases flow with
      | pass => exact ih.execLoop inLoop scope test body htest hbody
      | giveBack v => exact keeps_pure trivial
      | leave => exact keeps_pure trivial
      | skip => exact ih.execLoop inLoop scope test body htest hbody

theorem condition_succ
    (ih : RunsSoundly host fuel) (scope : Nat) (test : Expr)
    (h : checkExpr test = .ok ()) :
    (HandleScript.condition host (fuel + 1) scope test).Sound fun _ => True := by
  refine keeps_bind (ih.eval scope test h) fun v _ => ?_
  refine keeps_bind (keeps_inspect (fun _ => True) fun _ _ => trivial) fun found _ => ?_
  cases found with
  | some b => exact keeps_pure trivial
  | none => exact keeps_fail (by simp [Failure.Plain, Cause.Plain, Cause.sort])

/-- Checked code runs soundly, however many steps it is granted. -/
theorem always (host : Host) (fuel : Nat) : RunsSoundly host fuel := by
  induction fuel with
  | zero => exact zero
  | succ fuel ih =>
      exact
        { eval := ih.eval_succ
          evalAll := ih.evalAll_succ
          force := ih.force_succ
          dispatch := ih.dispatch_succ
          operate := ih.operate_succ
          callNamed := ih.callNamed_succ
          invoke := ih.invoke_succ
          callFunction := ih.callFunction_succ
          execAll := ih.execAll_succ
          execBody := ih.execBody_succ
          exec := ih.exec_succ
          execArms := ih.execArms_succ
          execLoop := ih.execLoop_succ
          condition := ih.condition_succ }

end RunsSoundly

theorem evalStatements_sound
    (host : Host) (fuel scope : Nat) (last : Option Value) (stmts : List Stmt)
    (h : checkStmts false stmts = .ok ()) :
    (evalStatements host fuel scope last stmts).Sound fun _ => True := by
  have hruns := RunsSoundly.always host fuel
  induction stmts generalizing last with
  | nil => exact Computation.keeps_pure trivial
  | cons stmt rest ih =>
      obtain ⟨hfirst, hrest⟩ := verdict_bind_eq_ok h
      unfold evalStatements
      split
      · contradiction
      next heq =>
        cases heq
        exact Computation.keeps_bind (hruns.eval scope _ hfirst) fun v _ =>
          ih (some v) hrest
      next heq =>
        cases heq
        refine Computation.keeps_bind (hruns.exec false scope stmt hfirst)
          fun flow hflow => ?_
        cases flow with
        | pass => exact ih none hrest
        | giveBack v => exact Computation.keeps_pure trivial
        | leave => cases hflow
        | skip => cases hflow

/-! ## Whole histories -/

/-- An error that is no loop exit at run time. -/
def Error.Plain : Error → Prop
  | compile _ => True
  | runtime f => f.Plain

/-- An outcome that leaves an interpreter with checked code, and that is no loop exit. -/
abbrev Interpreter.Reply.Sound {α : Type} (reply : Interpreter.Reply α) : Prop :=
  reply.Meets (fun _ i => i.state.Checked) (fun e i => i.state.Checked ∧ e.Plain)

theorem State.initial_checked (console : Console) : (State.initial console).Checked := by
  constructor
  · intro name f hf
    cases hf
  · intro cell
    rfl

theorem Interpreter.execute_sound
    {α : Type} {i : Interpreter} {run : Host → Run α} {value : α → Prop}
    (hi : i.state.Checked) (h : ∀ host, (run host).Sound value) :
    (i.execute run).Sound := by
  obtain ⟨settings, files, listing, state⟩ := i
  have hrun := h ⟨settings.maxDepth, files, listing⟩ state hi
  exact Outcome.Meets.lift (hrun.mono (fun _ _ hd => hd.1) fun _ _ hf => hf)

theorem Interpreter.declared_checked
    {i : Interpreter} {p : Program} (hi : i.state.Checked) (h : p.check = .ok ()) :
    (i.declared p).state.Checked := by
  constructor
  · exact Function.forall_declareAll hi.functions fun f hf =>
      checked_of_mem (except_mapError_eq_ok h) hf
  · exact hi.closures

theorem Interpreter.load_sound {i : Interpreter} (hi : i.state.Checked) (p : Program) :
    (i.load p).Sound := by
  obtain ⟨e, -, hload⟩ | ⟨hcheck, hload⟩ := i.load_cases p
  · rw [hload]
    exact ⟨hi, trivial⟩
  · rw [hload]
    exact declared_checked hi hcheck

theorem Interpreter.call_sound
    {i : Interpreter} (hi : i.state.Checked) (fuel : Nat) (name : String)
    (values : List Value) : (i.call fuel name values).Sound :=
  execute_sound hi fun host => (RunsSoundly.always host fuel).callNamed _ name
    (.ready values) trivial

theorem Interpreter.use_sound
    {i : Interpreter} (hi : i.state.Checked) (u : Interpreter.Use) : (i.use u).Sound := by
  cases u with
  | load p => exact Outcome.Meets.map (load_sound hi p)
  | run fuel p =>
      refine Outcome.Meets.map ?_
      cases hcheck : p.check with
      | error e =>
          rw [run_of_error hcheck]
          exact ⟨hi, trivial⟩
      | ok _ =>
          rw [run_of_ok hcheck]
          exact call_sound (declared_checked hi hcheck) fuel _ []
  | call fuel name values => exact Outcome.Meets.map (call_sound hi fuel name values)
  | make content data =>
      have hcontent : content.Checked := by
        cases content with
        | lambda c => cases data
        | number | bool | text | list | array | iterator => trivial
      exact (Run.alloc_sound content hcontent i.state hi).1
  | define name v => exact hi.of_eq rfl rfl

theorem Interpreter.Reached.checked
    {allowed : Interpreter → Interpreter.Use → Prop} {i : Interpreter}
    (h : Reached allowed i) : i.state.Checked := by
  induction h with
  | fresh settings files listing console => exact State.initial_checked console
  | @next i i' u before permitted hnext ih =>
      have hkept := (use_sound ih u).mono (fun _ _ hd => hd) (fun _ _ hf => hf.1)
      exact hkept.of_state? hnext

theorem Session.read_checked
    {input : String} {stmts : List Stmt}
    (h : Session.read input = .ok (.statements stmts)) :
    checkStmts false stmts = .ok () := by
  unfold Session.read at h
  obtain ⟨tokens, -, h⟩ := except_bind_eq_ok h
  split at h
  · obtain ⟨p, -, h⟩ := except_bind_eq_ok h
    cases h
  · obtain ⟨parsed, -, h⟩ := except_bind_eq_ok h
    obtain ⟨_, hcheck, h⟩ := except_bind_eq_ok h
    cases h
    exact except_mapError_eq_ok hcheck

theorem Session.use_sound
    {session : Session} (hs : session.interpreter.state.Checked) (u : Session.Use) :
    (session.use u).Meets (fun _ session => session.interpreter.state.Checked)
      (fun e session => session.interpreter.state.Checked ∧ e.Plain) := by
  cases u with
  | reset => exact hs.of_eq rfl rfl
  | eval fuel input =>
      change (session.eval fuel input).Meets _ _
      cases hread : Session.read input with
      | error e =>
          rw [Session.eval_of_error hread]
          exact ⟨hs, trivial⟩
      | ok asked =>
          rw [Session.eval_of_read hread]
          cases asked with
          | declarations p =>
              exact Outcome.Meets.map (Outcome.Meets.lift (Interpreter.load_sound hs p))
          | statements stmts =>
              refine Outcome.Meets.lift ?_
              exact Interpreter.execute_sound hs fun host =>
                evalStatements_sound host fuel session.scope none stmts
                  (Session.read_checked hread)

theorem Session.Reached.checked
    {allowed : Interpreter → Interpreter.Use → Prop} {session : Session}
    (h : Reached allowed session) : session.interpreter.state.Checked := by
  induction h with
  | new before => exact before.checked.of_eq rfl rfl
  | @next session session' u before hnext ih =>
      have hkept := (use_sound ih u).mono (fun _ _ hd => hd) (fun _ _ hf => hf.1)
      exact hkept.of_state? hnext

/-- The bodies that a state can run: those of loaded functions, those of closures in the
store, and statements that pass the check. -/
inductive State.Runnable (s : State) : List Stmt → Prop
  | function {name : String} {f : Function} (h : s.functions.get? name = some f) :
      Runnable s f.body
  | closure (cell : Nat) : Runnable s (s.store.closures.get cell).function.body
  | statements {stmts : List Stmt} (h : Stmt.checkAll stmts = .ok ()) : Runnable s stmts

theorem State.Checked.runnable
    {s : State} (hs : s.Checked) {body : List Stmt} (h : s.Runnable body) :
    checkStmts false body = .ok () := by
  cases h with
  | function hf => exact hs.functions _ _ hf
  | closure cell => exact hs.closures cell
  | statements hcheck => exact except_mapError_eq_ok hcheck

theorem Flow.FitsIn.eq_pass_or_giveBack
    {flow : Flow} (h : flow.FitsIn false) : flow = .pass ∨ ∃ v, flow = .giveBack v := by
  cases flow with
  | pass => exact Or.inl rfl
  | giveBack v => exact Or.inr ⟨v, rfl⟩
  | leave => cases h
  | skip => cases h

/-- No use of an interpreter or a session, after any history, fails at run time for a loop
exit. What carries this through a history is that the code of every state stays checked;
and from a state with checked code, every body that the state can run passes or gives back
a value, unless it fails for another reason. -/
theorem loop_exits_never_escape :
    (∀ i, Interpreter.Reached (fun _ _ => True) i →
      i.state.Checked ∧
      ∀ u f i', i.use u = .failed (.runtime f) i' → f.cause.sort ≠ .controlFlow) ∧
    (∀ session, Session.Reached (fun _ _ => True) session →
      session.interpreter.state.Checked ∧
      ∀ u f session', session.use u = .failed (.runtime f) session' →
        f.cause.sort ≠ .controlFlow) ∧
    (∀ s : State, s.Checked → ∀ host fuel scope body, s.Runnable body →
      (execAll host fuel scope body s).Meets
        (fun flow s' => s'.Checked ∧ (flow = .pass ∨ ∃ v, flow = .giveBack v))
        (fun f s' => s'.Checked ∧ f.cause.sort ≠ .controlFlow)) := by
  refine ⟨fun i hi => ⟨hi.checked, ?_⟩, fun session hsession =>
    ⟨hsession.checked, ?_⟩, ?_⟩
  · intro u f i' hfailed
    have hsound := Interpreter.use_sound hi.checked u
    rw [hfailed] at hsound
    exact hsound.2
  · intro u f session' hfailed
    have hsound := Session.use_sound hsession.checked u
    rw [hfailed] at hsound
    exact hsound.2
  · intro s hs host fuel scope body hbody
    have hrun := (RunsSoundly.always host fuel).execAll false scope body
      (hs.runnable hbody) s hs
    exact hrun.mono (fun _ _ hd => ⟨hd.1, hd.2.eq_pass_or_giveBack⟩) fun _ _ hf => hf

/-- A function literal with a loop exit, kept in a list and called inside a loop by a
later input: the loop around the call goes on until an operation fails. -/
theorem loop_exits_never_escape_later_call :
    ∃ session, Session.Reached (fun _ _ => True) session ∧
      ∃ f session',
        session.use (.eval 40 "while (true) \x7b fs.get(0).invoke() 1.divide(0) \x7d") =
          .failed (.runtime f) session' ∧
        f.cause = .divisionByZero ∧ f.cause.sort ≠ .controlFlow := by
  let start := Session.new (.fresh {} .empty .asBound (.ofLines [] none))
  let first := start.use
    (.eval 40 "var fs = new.list(fun () \x7b while (true) \x7b break \x7d \x7d)")
  have hends : first.state?.isSome := by decide +kernel
  have hcause :
      ((first.state?.getD default).use
        (.eval 40
          "while (true) \x7b fs.get(0).invoke() 1.divide(0) \x7d")).runtimeCause? =
        some .divisionByZero := by
    decide +kernel
  obtain ⟨session, hsession⟩ := Option.isSome_iff_exists.mp hends
  have hreached : Session.Reached (fun _ _ => True) session :=
    .next (.new (.fresh {} .empty .asBound (.ofLines [] none))) hsession
  rw [hsession, Option.getD_some] at hcause
  obtain ⟨f, session', hfailed, hf⟩ := Outcome.eq_failed_of_runtimeCause? hcause
  exact ⟨session, hreached, f, session', hfailed, hf,
    (loop_exits_never_escape.2.1 session hreached).2 _ f session' hfailed⟩

end HandleScript
