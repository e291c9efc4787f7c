import HandleScript.Proofs.Job

/-!
# Two runs of one job

A run is composed of a few sorts of steps that run no code, of places that are given to
failures, and of calls of functions. So a relation between runs holds between the two runs
of any job, on hosts that provide the same files, as soon as it holds of these parts and
passes from the parts to what is composed of them. Nothing but a call looks at the
recursion limit, nothing but a name that is not found looks at how candidates are listed,
and nothing but a built-in function looks at the console.
-/

namespace HandleScript

namespace Run

/-- The steps that run no code. -/
inductive Simple : {α : Type} → Run α → Prop
  | pure {α : Type} (a : α) : Simple (pure a)
  | fail {α : Type} (f : Failure) : Simple (Computation.fail f : Run α)
  | giveUp {α : Type} : Simple (Computation.giveUp : Run α)
  /-- Reads anything but the console. -/
  | inspect {α : Type} (f : State → α)
      (blind : ∀ (s : State) (c : Console), f { s with console := c } = f s) :
      Simple (Computation.inspect f)
  | alloc (content : Content) : Simple (Run.alloc content)
  | carryOut (plan : Store → Plan) : Simple (Run.carryOut plan)
  | openScope (parent : Nat) : Simple (Run.openScope parent)
  | define (scope : Nat) (name : String) (v : Value) : Simple (Run.define scope name v)
  | assign (scope : Nat) (name : String) (v : Value) : Simple (Run.assign scope name v)
  | builtin (builtin : Builtin) (args : List Value) : Simple (builtin.call args)

theorem Simple.make (value : Literal) : Simple value.make := by
  cases value with
  | int n => exact .alloc (.number (.int n))
  | double x => exact .alloc (.number (.double x))
  | bool b => exact .alloc (.bool b)
  | text s => exact .alloc (.text s)
  | void => exact .pure _

/-- Fails since there is no function of that name. -/
def unknown (listing : Listing) (name : String) : Run Value :=
  fun s => .failed ⟨undefinedFunction listing s.functions name, none⟩ s

end Run

/-- A relation between runs on two hosts that passes from parts to wholes. -/
structure Run.Parallel (host host' : Host) (R : {α : Type} → Run α → Run α → Prop) :
    Prop where
  files : host.files = host'.files
  lookup : ∀ (scope : Nat) (name : String), R (lookup host.listing scope name)
    (lookup host'.listing scope name)
  unknown : ∀ name, R (unknown host.listing name) (unknown host'.listing name)
  simple : ∀ {α : Type} {run : Run α}, run.Simple → R run run
  bind : ∀ {α β : Type} {run run' : Run α} {f f' : α → Run β},
    R run run' → (∀ a, R (f a) (f' a)) → R (run >>= f) (run' >>= f')
  located : ∀ {α : Type} {run run' : Run α}, R run run' →
    ∀ span, R (located span run) (located span run')
  call : ∀ (fuel : Nat) (f : Function) (values : List Value) (parent : Nat),
    (∀ scope, R (execAll host fuel scope f.body) (execAll host' fuel scope f.body)) →
    R (callFunction host (fuel + 1) f values parent)
      (callFunction host' (fuel + 1) f values parent)

namespace Job

section Step

variable {host host' : Host} {fuel : Nat} {R : {α : Type} → Run α → Run α → Prop}
  (h : Run.Parallel host host' R)
  (ih : ∀ job : Job, R (job.run host fuel) (job.run host' fuel))
include h ih

theorem parallel_eval (scope : Nat) (e : Expr) :
    R (HandleScript.eval host (fuel + 1) scope e)
      (HandleScript.eval host' (fuel + 1) scope e) := by
  cases e with
  | literal value span => exact h.simple (.make value)
  | name text span => exact h.located (h.lookup scope text) span
  | lambda f => exact h.simple (.alloc _)
  | call receiver method args span =>
      refine h.bind (ih (.eval scope receiver)) fun target => ?_
      exact h.located (ih (.dispatch scope target method.node (.deferred scope args)))
        method.span

theorem parallel_evalAll (scope : Nat) (es : List Expr) :
    R (HandleScript.evalAll host (fuel + 1) scope es)
      (HandleScript.evalAll host' (fuel + 1) scope es) := by
  cases es with
  | nil => exact h.simple (.pure _)
  | cons e es =>
      refine h.bind (ih (.eval scope e)) fun v => ?_
      exact h.bind (ih (.evalAll scope es)) fun vs => h.simple (.pure _)

theorem parallel_force (args : Arguments) :
    R (HandleScript.force host (fuel + 1) args)
      (HandleScript.force host' (fuel + 1) args) := by
  cases args with
  | deferred scope es => exact ih (.evalAll scope es)
  | ready values => exact h.simple (.pure _)

theorem parallel_dispatch (scope : Nat) (receiver : Value) (method : String)
    (args : Arguments) :
    R (HandleScript.dispatch host (fuel + 1) scope receiver method args)
      (HandleScript.dispatch host' (fuel + 1) scope receiver method args) := by
  by_cases hvoid : receiver = .void
  · subst hvoid
    exact h.simple (.fail _)
  · by_cases hdispatcher : receiver = .dispatcher
    · subst hdispatcher
      exact ih (.callNamed scope method args)
    · rw [dispatch_eq_dispatchKind _ fuel scope method args hvoid hdispatcher,
        dispatch_eq_dispatchKind _ fuel scope method args hvoid hdispatcher,
          dispatchKind, dispatchKind]
      cases receiver.kind.operation? method with
      | none => exact h.simple (.fail _)
      | some op =>
          by_cases haccepts : op.accepts args.count = true
          · simp only [haccepts, if_true]
            exact ih (.operate op receiver method args)
          · simp only [haccepts]
            exact h.simple (.fail _)

theorem parallel_operate (op : Operation) (receiver : Value) (method : String)
    (args : Arguments) :
    R (HandleScript.operate host (fuel + 1) op receiver method args)
      (HandleScript.operate host' (fuel + 1) op receiver method args) := by
  cases op with
  | invoke => exact h.bind (ih (.force args)) fun values => ih (.invoke receiver values)
  | connective op =>
      refine h.bind (h.simple (.inspect _ fun _ _ => rfl)) fun decided => ?_
      cases decided with
      | some b => exact h.simple (.alloc _)
      | none => exact h.bind (ih (.force args)) fun values => h.simple (.carryOut _)
  | eager op =>
      -- The effect depends on the host's files, which are the same on both sides.
      refine h.bind (ih (.force args)) fun values => ?_
      rw [h.files]
      exact h.simple (.carryOut _)

theorem parallel_callNamed (scope : Nat) (name : String) (args : Arguments) :
    R (HandleScript.callNamed host (fuel + 1) scope name args)
      (HandleScript.callNamed host' (fuel + 1) scope name args) := by
  unfold HandleScript.callNamed
  cases Builtin.ofName? name with
  | some builtin =>
      exact h.bind (ih (.force args)) fun values => h.simple (.builtin builtin values)
  | none =>
      refine h.bind (h.simple (.inspect _ fun _ _ => rfl)) fun found => ?_
      cases found with
      | none => exact h.unknown name
      | some f =>
          refine h.bind (ih (.force args)) fun values => ?_
          refine h.bind (h.simple (.inspect _ fun _ _ => rfl)) fun root => ?_
          exact ih (.callFunction f values root)

theorem parallel_invoke (receiver : Value) (values : List Value) :
    R (HandleScript.invoke host (fuel + 1) receiver values)
      (HandleScript.invoke host' (fuel + 1) receiver values) := by
  cases receiver with
  | lambda cell =>
      refine h.bind (h.simple (.inspect _ fun _ _ => rfl)) fun closure => ?_
      exact ih (.callFunction closure.function values closure.scope)
  | int | long | double | bool | text | list | array | iterator | file | void | dispatcher
  | factory =>
      exact h.simple (.fail _)

theorem parallel_execAll (scope : Nat) (stmts : List Stmt) :
    R (HandleScript.execAll host (fuel + 1) scope stmts)
      (HandleScript.execAll host' (fuel + 1) scope stmts) := by
  cases stmts with
  | nil => exact h.simple (.pure _)
  | cons stmt rest =>
      refine h.bind (ih (.exec scope stmt)) fun flow => ?_
      cases flow with
      | pass => exact ih (.execAll scope rest)
      | giveBack | leave | skip => exact h.simple (.pure _)

theorem parallel_execBody (scope : Nat) (body : List Stmt) :
    R (HandleScript.execBody host (fuel + 1) scope body)
      (HandleScript.execBody host' (fuel + 1) scope body) :=
  h.bind (h.simple (.openScope scope)) fun inner => ih (.execAll inner body)

theorem parallel_exec (scope : Nat) (stmt : Stmt) :
    R (HandleScript.exec host (fuel + 1) scope stmt)
      (HandleScript.exec host' (fuel + 1) scope stmt) := by
  cases stmt with
  | branch arms span => exact ih (.execArms scope arms)
  | loop test body span => exact ih (.execLoop scope test body)
  | declare name init span =>
      refine h.bind (ih (.eval scope init)) fun v => ?_
      exact h.bind (h.simple (.define scope name.node v)) fun _ => h.simple (.pure _)
  | assign name value span =>
      refine h.bind (ih (.eval scope value)) fun v => ?_
      exact h.bind (h.simple (.assign scope name.node v)) fun _ => h.simple (.pure _)
  | giveBack value span =>
      cases value with
      | none => exact h.simple (.pure _)
      | some value => exact h.bind (ih (.eval scope value)) fun v => h.simple (.pure _)
  | leave span => exact h.simple (.pure _)
  | skip span => exact h.simple (.pure _)
  | block body span => exact ih (.execBody scope body)
  | expr value span => exact h.bind (ih (.eval scope value)) fun v => h.simple (.pure _)

theorem parallel_execArms (scope : Nat) (arms : Arms) :
    R (HandleScript.execArms host (fuel + 1) scope arms)
      (HandleScript.execArms host' (fuel + 1) scope arms) := by
  cases arms with
  | done => exact h.simple (.pure _)
  | otherwise body => exact ih (.execBody scope body)
  | test test body rest =>
      refine h.bind (ih (.condition scope test)) fun holds => ?_
      cases holds with
      | true => exact ih (.execBody scope body)
      | false => exact ih (.execArms scope rest)

theorem parallel_execLoop (scope : Nat) (test : Expr) (body : List Stmt) :
    R (HandleScript.execLoop host (fuel + 1) scope test body)
      (HandleScript.execLoop host' (fuel + 1) scope test body) := by
  refine h.bind (ih (.condition scope test)) fun holds => ?_
  cases holds with
  | false => exact h.simple (.pure _)
  | true =>
      refine h.bind (ih (.execBody scope body)) fun flow => ?_
      cases flow with
      | pass | skip => exact ih (.execLoop scope test body)
      | leave | giveBack => exact h.simple (.pure _)

theorem parallel_condition (scope : Nat) (test : Expr) :
    R (HandleScript.condition host (fuel + 1) scope test)
      (HandleScript.condition host' (fuel + 1) scope test) := by
  refine h.bind (ih (.eval scope test)) fun v => ?_
  refine h.bind (h.simple (.inspect _ fun _ _ => rfl)) fun found => ?_
  cases found with
  | some b => exact h.simple (.pure _)
  | none => exact h.simple (.fail _)

theorem parallel_evalStatements (scope : Nat) (last : Option Value) (stmts : List Stmt) :
    R (evalStatements host fuel scope last stmts)
      (evalStatements host' fuel scope last stmts) := by
  induction stmts generalizing last with
  | nil => exact h.simple (.pure _)
  | cons stmt rest ihrest =>
      by_cases hexpr : ∃ value span, stmt = .expr value span
      · obtain ⟨value, span, rfl⟩ := hexpr
        exact h.bind (ih (.eval scope value)) fun v => ihrest (some v)
      · have hplain : ∀ value span, stmt ≠ .expr value span :=
          fun value span heq => hexpr ⟨value, span, heq⟩
        rw [evalStatements_cons _ fuel scope last rest hplain,
          evalStatements_cons _ fuel scope last rest hplain]
        refine h.bind (ih (.exec scope stmt)) fun flow => ?_
        cases flow with
        | pass => exact ihrest none
        | giveBack v => exact h.simple (.pure _)
        | leave | skip => exact h.simple (.fail _)

end Step

/-- A relation that passes from parts to wholes holds between the two runs of any job. -/
theorem parallel
    {host host' : Host} {R : {α : Type} → Run α → Run α → Prop}
    (h : Run.Parallel host host' R) (fuel : Nat) (job : Job) :
    R (job.run host fuel) (job.run host' fuel) := by
  induction fuel generalizing job with
  | zero =>
      rw [run_zero, run_zero]
      exact h.simple .giveUp
  | succ fuel ih =>
      cases job with
      | eval scope e => exact parallel_eval h ih scope e
      | evalAll scope es => exact parallel_evalAll h ih scope es
      | force args => exact parallel_force h ih args
      | dispatch scope receiver method args =>
          exact parallel_dispatch h ih scope receiver method args
      | operate op receiver method args =>
          exact parallel_operate h ih op receiver method args
      | callNamed scope name args => exact parallel_callNamed h ih scope name args
      | invoke receiver values => exact parallel_invoke h ih receiver values
      | callFunction f values parent =>
          exact h.call fuel f values parent fun scope => ih (.execAll scope f.body)
      | execAll scope stmts => exact parallel_execAll h ih scope stmts
      | execBody scope body => exact parallel_execBody h ih scope body
      | exec scope stmt => exact parallel_exec h ih scope stmt
      | execArms scope arms => exact parallel_execArms h ih scope arms
      | execLoop scope test body => exact parallel_execLoop h ih scope test body
      | condition scope test => exact parallel_condition h ih scope test
      | input scope stmts => exact parallel_evalStatements h ih scope none stmts

end Job

end HandleScript
