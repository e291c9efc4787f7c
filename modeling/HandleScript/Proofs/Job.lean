import HandleScript.Proofs.Fuel
import HandleScript.Proofs.Plan

/-!
# The jobs of the evaluator

The functions of the evaluator call one another, each time with one step less to spend.
Each such call is a job, done from a state. This module says once which jobs a job calls
for: a run of it runs out of steps exactly when a run of one of these does. So at any time
of a run, the jobs that have been started and have not ended are a chain in which each one
is called for by the one before, and a run that lacks steps is one with a chain that has
used them all.
-/

namespace HandleScript

/-- A call of one of the evaluator's functions. -/
inductive Job where
  | eval (scope : Nat) (e : Expr)
  | evalAll (scope : Nat) (es : List Expr)
  | force (args : Arguments)
  | dispatch (scope : Nat) (receiver : Value) (method : String) (args : Arguments)
  | operate (op : Operation) (receiver : Value) (method : String) (args : Arguments)
  | callNamed (scope : Nat) (name : String) (args : Arguments)
  | invoke (receiver : Value) (values : List Value)
  | callFunction (f : Function) (values : List Value) (parent : Nat)
  | execAll (scope : Nat) (stmts : List Stmt)
  | execBody (scope : Nat) (body : List Stmt)
  | exec (scope : Nat) (stmt : Stmt)
  | execArms (scope : Nat) (arms : Arms)
  | execLoop (scope : Nat) (test : Expr) (body : List Stmt)
  | condition (scope : Nat) (test : Expr)
  /-- Statements that run one after the other, as a session does. -/
  | input (scope : Nat) (stmts : List Stmt)

namespace Job

/-- What a job gives. -/
abbrev Result : Job → Type
  | eval .. => Value
  | evalAll .. => List Value
  | force .. => List Value
  | dispatch .. => Value
  | operate .. => Value
  | callNamed .. => Value
  | invoke .. => Value
  | callFunction .. => Value
  | execAll .. => Flow
  | execBody .. => Flow
  | exec .. => Flow
  | execArms .. => Flow
  | execLoop .. => Flow
  | condition .. => Bool
  | input .. => Option Value

/-- Runs statements one after the other, with one step less for each of them. -/
def runInput (host : Host) (scope : Nat) (stmts : List Stmt) :
    (fuel : Nat) → Run (Option Value)
  | 0 => Computation.giveUp
  | fuel + 1 => evalStatements host fuel scope none stmts

/-- Does a job with so many steps granted. -/
def run (host : Host) (fuel : Nat) : (job : Job) → Run job.Result
  | eval scope e => HandleScript.eval host fuel scope e
  | evalAll scope es => HandleScript.evalAll host fuel scope es
  | force args => HandleScript.force host fuel args
  | dispatch scope receiver method args =>
    HandleScript.dispatch host fuel scope receiver method args
  | operate op receiver method args =>
    HandleScript.operate host fuel op receiver method args
  | callNamed scope name args => HandleScript.callNamed host fuel scope name args
  | invoke receiver values => HandleScript.invoke host fuel receiver values
  | callFunction f values parent => HandleScript.callFunction host fuel f values parent
  | execAll scope stmts => HandleScript.execAll host fuel scope stmts
  | execBody scope body => HandleScript.execBody host fuel scope body
  | exec scope stmt => HandleScript.exec host fuel scope stmt
  | execArms scope arms => HandleScript.execArms host fuel scope arms
  | execLoop scope test body => HandleScript.execLoop host fuel scope test body
  | condition scope test => HandleScript.condition host fuel scope test
  | input scope stmts => runInput host scope stmts fuel

theorem run_zero (host : Host) (job : Job) : job.run host 0 = Computation.giveUp := by
  cases job <;> rfl

/-- Run one after the other from the state `s`, the statements come to a job of their own,
which is done from the state `s'`. -/
inductive Starts (host : Host) (fuel scope : Nat) : List Stmt → State → Job → State → Prop
  | expr {value : Expr} {span : Span} {rest : List Stmt} {s : State} :
      Starts host fuel scope (.expr value span :: rest) s (.eval scope value) s
  | stmt {stmt : Stmt} {rest : List Stmt} {s : State}
      (plain : ∀ value span, stmt ≠ .expr value span) :
      Starts host fuel scope (stmt :: rest) s (.exec scope stmt) s
  | afterExpr {value : Expr} {span : Span} {rest : List Stmt}
      {s s' t : State} {v : Value} {job : Job}
      (before : HandleScript.eval host fuel scope value s = .done v s')
      (later : Starts host fuel scope rest s' job t) :
      Starts host fuel scope (.expr value span :: rest) s job t
  | afterStmt {stmt : Stmt} {rest : List Stmt} {s s' t : State} {job : Job}
      (plain : ∀ value span, stmt ≠ .expr value span)
      (before : HandleScript.exec host fuel scope stmt s = .done .pass s')
      (later : Starts host fuel scope rest s' job t) :
        Starts host fuel scope (stmt :: rest) s job t

/-- Done from the state `s` with one step more than `fuel`, the first job calls for the
second one, which is done from the state `s'` with `fuel` steps. -/
inductive Calls (host : Host) (fuel : Nat) : Job → State → Job → State → Prop
  | receiver {scope : Nat} {e : Expr} {method : Located String} {args : List Expr}
      {span : Span} {s : State} :
      Calls host fuel (.eval scope (.call e method args span)) s (.eval scope e) s
  | method {scope : Nat} {e : Expr} {method : Located String} {args : List Expr}
      {span : Span} {s s' : State}
      {target : Value}
        (before : HandleScript.eval host fuel scope e s = .done target s') :
      Calls host fuel (.eval scope (.call e method args span)) s
        (.dispatch scope target method.node (.deferred scope args)) s'
  | first {scope : Nat} {e : Expr} {es : List Expr} {s : State} :
      Calls host fuel (.evalAll scope (e :: es)) s (.eval scope e) s
  | others {scope : Nat} {e : Expr} {es : List Expr} {s s' : State} {v : Value}
      (before : HandleScript.eval host fuel scope e s = .done v s') :
      Calls host fuel (.evalAll scope (e :: es)) s (.evalAll scope es) s'
  | deferred {scope : Nat} {es : List Expr} {s : State} :
      Calls host fuel (.force (.deferred scope es)) s (.evalAll scope es) s
  | named {scope : Nat} {name : String} {args : Arguments} {s : State} :
      Calls host fuel (.dispatch scope .dispatcher name args) s
        (.callNamed scope name args) s
  | operation {scope : Nat} {receiver : Value} {method : String} {args : Arguments}
      {s : State} {op : Operation}
      (notVoid : receiver ≠ .void) (notDispatcher : receiver ≠ .dispatcher)
      (found : receiver.kind.operation? method = some op)
        (accepted : op.accepts args.count = true) :
      Calls host fuel (.dispatch scope receiver method args) s
        (.operate op receiver method args) s
  | invokeArgs {receiver : Value} {method : String} {args : Arguments} {s : State} :
      Calls host fuel (.operate .invoke receiver method args) s (.force args) s
  | invoke {receiver : Value} {method : String} {args : Arguments}
      {s s' : State} {values : List Value}
      (before : HandleScript.force host fuel args s = .done values s') :
      Calls host fuel (.operate .invoke receiver method args) s
        (.invoke receiver values) s'
  | operand {op : Connective} {receiver : Value} {method : String}
      {args : Arguments} {s : State}
      (undecided : (s.store.bool? receiver).filter op.decidedBy = none) :
      Calls host fuel (.operate (.connective op) receiver method args) s (.force args) s
  | operands {op : EagerOp} {receiver : Value} {method : String}
      {args : Arguments} {s : State} :
      Calls host fuel (.operate (.eager op) receiver method args) s (.force args) s
  | builtinArgs {scope : Nat} {name : String} {args : Arguments}
      {s : State} {builtin : Builtin}
      (found : Builtin.ofName? name = some builtin) :
      Calls host fuel (.callNamed scope name args) s (.force args) s
  | functionArgs {scope : Nat} {name : String} {args : Arguments}
      {s : State} {f : Function}
      (loaded : Builtin.ofName? name = none) (found : s.functions.get? name = some f) :
      Calls host fuel (.callNamed scope name args) s (.force args) s
  | function {scope : Nat} {name : String} {args : Arguments}
      {s s' : State} {f : Function}
      {values : List Value} (loaded : Builtin.ofName? name = none)
        (found : s.functions.get? name = some f)
      (before : HandleScript.force host fuel args s = .done values s') :
      Calls host fuel (.callNamed scope name args) s
        (.callFunction f values (s'.scopes.rootOf scope)) s'
  | lambda {cell : Nat} {values : List Value} {s : State} :
      Calls host fuel (.invoke (.lambda cell) values) s
        (.callFunction (s.store.closures.get cell).function values
          (s.store.closures.get cell).scope) s
  | body {f : Function} {values : List Value} {parent : Nat} {s : State}
      (arity : f.params.length = values.length) (admitted : s.depth + 1 ≤ host.maxDepth) :
      Calls host fuel (.callFunction f values parent) s
        (.execAll (s.enter parent f values).1 f.body) (s.enter parent f values).2
  | statement {scope : Nat} {stmt : Stmt} {rest : List Stmt} {s : State} :
      Calls host fuel (.execAll scope (stmt :: rest)) s (.exec scope stmt) s
  | statements {scope : Nat} {stmt : Stmt} {rest : List Stmt} {s s' : State}
      (before : HandleScript.exec host fuel scope stmt s = .done .pass s') :
      Calls host fuel (.execAll scope (stmt :: rest)) s (.execAll scope rest) s'
  | opened {scope : Nat} {body : List Stmt} {s : State} :
      Calls host fuel (.execBody scope body) s
        (.execAll (s.scopes.child scope).1 body)
          { s with scopes := (s.scopes.child scope).2 }
  | arms {scope : Nat} {arms : Arms} {span : Span} {s : State} :
      Calls host fuel (.exec scope (.branch arms span)) s (.execArms scope arms) s
  | loop {scope : Nat} {test : Expr} {body : List Stmt} {span : Span} {s : State} :
      Calls host fuel (.exec scope (.loop test body span)) s (.execLoop scope test body) s
  | init {scope : Nat} {name : Located String} {init : Expr} {span : Span} {s : State} :
      Calls host fuel (.exec scope (.declare name init span)) s (.eval scope init) s
  | value {scope : Nat} {name : Located String} {value : Expr} {span : Span} {s : State} :
      Calls host fuel (.exec scope (.assign name value span)) s (.eval scope value) s
  | result {scope : Nat} {value : Expr} {span : Span} {s : State} :
      Calls host fuel (.exec scope (.giveBack (some value) span)) s (.eval scope value) s
  | block {scope : Nat} {body : List Stmt} {span : Span} {s : State} :
      Calls host fuel (.exec scope (.block body span)) s (.execBody scope body) s
  | expr {scope : Nat} {value : Expr} {span : Span} {s : State} :
      Calls host fuel (.exec scope (.expr value span)) s (.eval scope value) s
  | otherwise {scope : Nat} {body : List Stmt} {s : State} :
      Calls host fuel (.execArms scope (.otherwise body)) s (.execBody scope body) s
  | armTest {scope : Nat} {test : Expr} {body : List Stmt} {rest : Arms} {s : State} :
      Calls host fuel (.execArms scope (.test test body rest)) s (.condition scope test) s
  | armBody {scope : Nat} {test : Expr} {body : List Stmt} {rest : Arms} {s s' : State}
      (before : HandleScript.condition host fuel scope test s = .done true s') :
      Calls host fuel (.execArms scope (.test test body rest)) s (.execBody scope body) s'
  | armRest {scope : Nat} {test : Expr} {body : List Stmt} {rest : Arms} {s s' : State}
      (before : HandleScript.condition host fuel scope test s = .done false s') :
      Calls host fuel (.execArms scope (.test test body rest)) s (.execArms scope rest) s'
  | loopTest {scope : Nat} {test : Expr} {body : List Stmt} {s : State} :
      Calls host fuel (.execLoop scope test body) s (.condition scope test) s
  | loopBody {scope : Nat} {test : Expr} {body : List Stmt} {s s' : State}
      (before : HandleScript.condition host fuel scope test s = .done true s') :
      Calls host fuel (.execLoop scope test body) s (.execBody scope body) s'
  | again {scope : Nat} {test : Expr} {body : List Stmt} {s s' s'' : State} {flow : Flow}
      (holds : HandleScript.condition host fuel scope test s = .done true s')
      (before : HandleScript.execBody host fuel scope body s' = .done flow s'')
      (goesOn : flow = .pass ∨ flow = .skip) :
      Calls host fuel (.execLoop scope test body) s (.execLoop scope test body) s''
  | tested {scope : Nat} {test : Expr} {s : State} :
      Calls host fuel (.condition scope test) s (.eval scope test) s
  | started {scope : Nat} {stmts : List Stmt} {s s' : State} {job : Job}
      (h : Starts host fuel scope stmts s job s') :
        Calls host fuel (.input scope stmts) s job s'

end Job

/-! ## Ending without an answer -/

/-- How a computation ends without an answer. -/
inductive Halt (σ : Type) where
  | crashed (state : σ)
  | exhausted

/-- How an outcome falls short of an answer, if it does. -/
def Outcome.halt? {σ ε α : Type} : Outcome σ ε α → Option (Halt σ)
  | done _ _ => none
  | failed _ _ => none
  | crashed s => some (.crashed s)
  | exhausted => some .exhausted

theorem Outcome.halt?_eq_exhausted_iff {σ ε α : Type} {o : Outcome σ ε α} :
    o.halt? = some .exhausted ↔ o = .exhausted := by
  cases o <;> simp [halt?]

theorem Outcome.halt?_eq_crashed_iff {σ ε α : Type} {o : Outcome σ ε α} {t : σ} :
    o.halt? = some (.crashed t) ↔ o = .crashed t := by
  cases o <;> simp [halt?]

namespace Computation

variable {σ ε α β : Type}

theorem halt?_bind_iff {c : Computation σ ε α} {f : α → Computation σ ε β} {s : σ}
    {x : Halt σ} :
    ((c >>= f) s).halt? = some x ↔
      (c s).halt? = some x ∨ ∃ a s', c s = .done a s' ∧ (f a s').halt? = some x := by
  cases h : c s with
  | failed e s' => simp [bind_of_failed h, Outcome.halt?]
  | crashed s' => simp [bind_of_crashed h, Outcome.halt?]
  | exhausted => simp [bind_of_exhausted h, Outcome.halt?]
  | done a s' => simp [bind_of_done h, Outcome.halt?]

theorem halt?_bind_of_first
    {c : Computation σ ε α} {s : σ} {x : Halt σ} (h : (c s).halt? = some x)
    (f : α → Computation σ ε β) : ((c >>= f) s).halt? = some x :=
  halt?_bind_iff.mpr (.inl h)

theorem halt?_bind_of_done
    {c : Computation σ ε α} {s s' : σ} {a : α} {f : α → Computation σ ε β} {x : Halt σ}
    (hc : c s = .done a s') (h : (f a s').halt? = some x) :
    ((c >>= f) s).halt? = some x :=
  halt?_bind_iff.mpr (.inr ⟨a, s', hc, h⟩)

theorem bind_eq_done
    {c : Computation σ ε α} {f : α → Computation σ ε β} {s t : σ} {b : β}
    (h : (c >>= f) s = .done b t) : ∃ a s', c s = .done a s' ∧ f a s' = .done b t := by
  cases hc : c s with
  | done a s' =>
      rw [bind_of_done hc] at h
      exact ⟨a, s', rfl, h⟩
  | failed e s' =>
      rw [bind_of_failed hc] at h
      cases h
  | crashed s' =>
      rw [bind_of_crashed hc] at h
      cases h
  | exhausted =>
      rw [bind_of_exhausted hc] at h
      cases h

@[simp]
theorem halt?_adjustFailure (c : Computation σ ε α) (f : ε → ε) (s : σ) :
    (c.adjustFailure f s).halt? = (c s).halt? := by
  unfold adjustFailure
  cases c s <;> rfl

end Computation

@[simp]
theorem State.halt?_return (o : Outcome State Failure Flow) :
    (State.return o).halt? = o.halt? := by
  cases o with
  | done flow s => cases flow <;> rfl
  | failed | crashed | exhausted => rfl

namespace Run

/-- An effect is carried out at once, unless it is too large. -/
theorem halt?_carryOut {plan : Store → Plan} {s : State} {x : Halt State}
    (h : (carryOut plan s).halt? = some x) :
    x = .crashed s ∧ ∃ effect, plan s.store = .ok effect ∧ effect.fits = false := by
  unfold carryOut at h
  cases hplan : plan s.store with
  | error cause =>
      rw [hplan] at h
      cases h
  | ok effect =>
      rw [hplan] at h
      dsimp only at h
      split at h
      · cases h
      next hlarge =>
        cases h
        exact ⟨rfl, effect, rfl, Bool.eq_false_iff.mpr hlarge⟩

theorem carryOut_of_large
    {plan : Store → Plan} {s : State} {effect : Effect}
    (hplan : plan s.store = .ok effect) (h : effect.fits = false) :
    carryOut plan s = .crashed s := by
  simp [carryOut, hplan, h]

theorem halt?_write (text : String) (s : State) : (write text s).halt? = none := by
  unfold write
  split <;> rfl

theorem halt?_readLine (s : State) : (readLine s).halt? = none := by
  unfold readLine
  split <;> rfl

end Run

theorem Builtin.halt?_call (builtin : Builtin) (args : List Value) (s : State) :
    (builtin.call args s).halt? = none := by
  cases builtin with
  | println => exact Run.halt?_write _ s
  | print => exact Run.halt?_write _ s
  | readln =>
      by_cases h : args.isEmpty
      · simpa [Builtin.call, h] using Run.halt?_readLine s
      · simp [Builtin.call, h, Run.fail, Computation.fail, Outcome.halt?]
  | int =>
      rcases args with _ | ⟨v, _ | ⟨w, rest⟩⟩
      · rfl
      · rw [Option.eq_none_iff_forall_ne_some]
        intro x hx
        change (Run.carryOut (fun store => FactoryOp.int.plan store "int" [v]) s).halt? =
          some x at hx
        obtain ⟨-, effect, hplan, hlarge⟩ := Run.halt?_carryOut hx
        have hallows := FactoryOp.int.plan_allows s.store .factory "int" [v]
        rw [hplan] at hallows
        obtain ⟨sketch, harises⟩ := hallows
        obtain hfits | ⟨hop, -⟩ := harises.fits_or_array
        · rw [hlarge] at hfits
          cases hfits
        · cases hop
      · rfl

/-! ## Calls by case -/

section Cases

variable (host : Host) (fuel : Nat) {s : State}

theorem operate_decided
    {op : Connective} {receiver : Value} {b : Bool}
    (h : (s.store.bool? receiver).filter op.decidedBy = some b) (method : String)
    (args : Arguments) :
    operate host (fuel + 1) (.connective op) receiver method args s =
      Run.alloc (.bool b) s := by
  rw [operate]
  change Computation.bind _ _ s = _
  simp only [Computation.bind, Computation.inspect, h]

theorem operate_undecided
    {op : Connective} {receiver : Value}
    (h : (s.store.bool? receiver).filter op.decidedBy = none) (method : String)
    (args : Arguments) :
    operate host (fuel + 1) (.connective op) receiver method args s =
      (force host fuel args >>= fun values => Run.carryOut fun store =>
        Connective.plan store method values) s := by
  rw [operate]
  change Computation.bind _ _ s = _
  simp only [Computation.bind, Computation.inspect, h]

theorem callNamed_builtin
    {name : String} {builtin : Builtin} (h : Builtin.ofName? name = some builtin)
    (scope : Nat) (args : Arguments) :
    callNamed host (fuel + 1) scope name args = force host fuel args >>=
      builtin.call := by
  rw [callNamed, h]

theorem callNamed_function
    {name : String} {f : Function} (hbuiltin : Builtin.ofName? name = none)
    (h : s.functions.get? name = some f) (scope : Nat) (args : Arguments) :
    callNamed host (fuel + 1) scope name args s =
      (force host fuel args >>= fun values s' => callFunction host fuel f values
        (s'.scopes.rootOf scope) s') s := by
  rw [callNamed, hbuiltin]
  change Computation.bind _ _ s = _
  simp only [Computation.bind, Computation.inspect, h]
  rfl

theorem callNamed_unknown
    {name : String} (hbuiltin : Builtin.ofName? name = none)
    (h : s.functions.get? name = none) (scope : Nat) (args : Arguments) :
    callNamed host (fuel + 1) scope name args s =
      .failed ⟨undefinedFunction host.listing s.functions name, none⟩ s := by
  rw [callNamed, hbuiltin]
  change Computation.bind _ _ s = _
  simp only [Computation.bind, Computation.inspect, h]

theorem callFunction_misfit
    {f : Function} {values : List Value} (h : f.params.length ≠ values.length)
    (parent : Nat) (s : State) :
    callFunction host (fuel + 1) f values parent s =
      .failed ⟨.arityMismatch f.name.node f.params.length values.length, none⟩ s := by
  rw [callFunction]
  exact if_pos h

theorem callFunction_refused
    {f : Function} {values : List Value} (h : f.params.length = values.length)
    (hdepth : host.maxDepth < s.depth + 1) (parent : Nat) :
    callFunction host (fuel + 1) f values parent s =
      .failed ⟨.stackOverflow host.maxDepth, none⟩ s := by
  rw [callFunction]
  exact (if_neg (not_not_intro h)).trans (if_pos hdepth)

theorem callFunction_admitted
    {f : Function} {values : List Value} (h : f.params.length = values.length)
    (hdepth : s.depth + 1 ≤ host.maxDepth) (parent : Nat) :
    callFunction host (fuel + 1) f values parent s =
      State.return (execAll host fuel (s.enter parent f values).1 f.body
        (s.enter parent f values).2) := by
  rw [callFunction]
  exact (if_neg (not_not_intro h)).trans (if_neg (Nat.not_lt.mpr hdepth))

end Cases

namespace Job

variable {host : Host} {fuel : Nat} {s : State}

/-- The job asks for a new array with more slots than a block of memory holds; by then it
has come to the state `t`. -/
inductive Overflows (host : Host) (fuel : Nat) : Job → State → State → Prop
  | array {receiver size : Value} {method : String} {args : Arguments}
      {slots : Nat} {s t : State}
      (before : HandleScript.force host fuel args s = .done [size] t)
        (asked : slotsOf t.store size = .ok slots)
      (large : largestBlock < slots * slotBytes) :
      Overflows host fuel (.operate (.eager (.factory .array)) receiver method args) s t

/-- A job that the given one calls for ends without an answer, or the given one crashes
itself. -/
inductive Halts (host : Host) (fuel : Nat) (job : Job) (s : State) : Halt State → Prop
  | inside {job' : Job} {s' : State} {x : Halt State}
      (calls : Calls host fuel job s job' s')
      (halts : (job'.run host fuel s').halt? = some x) : Halts host fuel job s x
  | here {t : State} (overflows : Overflows host fuel job s t) :
      Halts host fuel job s (.crashed t)

variable {x : Halt State}

theorem eval_halts {scope : Nat} {e : Expr}
    (h : (HandleScript.eval host (fuel + 1) scope e s).halt? = some x) :
    Halts host fuel (.eval scope e) s x := by
  cases e with
  | literal value span =>
      cases value <;> cases h
  | name text span =>
      have hlookup := (Computation.halt?_adjustFailure ..).symm.trans h
      unfold Run.lookup at hlookup
      split at hlookup <;> cases hlookup
  | lambda f => cases h
  | call receiver method args span =>
      rcases Computation.halt?_bind_iff.mp h with hreceiver |
        ⟨target, s', hreceiver, hcall⟩
      · exact .inside .receiver hreceiver
      · exact .inside (.method hreceiver)
          ((Computation.halt?_adjustFailure ..).symm.trans hcall)

theorem evalAll_halts
    {scope : Nat} {es : List Expr}
    (h : (HandleScript.evalAll host (fuel + 1) scope es s).halt? = some x) :
    Halts host fuel (.evalAll scope es) s x := by
  cases es with
  | nil => cases h
  | cons e es =>
      rcases Computation.halt?_bind_iff.mp h with hfirst | ⟨v, s', hfirst, hrest⟩
      · exact .inside .first hfirst
      · rcases Computation.halt?_bind_iff.mp hrest with hothers | ⟨vs, s'', -, hend⟩
        · exact .inside (.others hfirst) hothers
        · cases hend

theorem dispatch_halts
    {scope : Nat} {receiver : Value} {method : String} {args : Arguments}
    (h : (HandleScript.dispatch host (fuel + 1) scope receiver method args s).halt? =
      some x) :
    Halts host fuel (.dispatch scope receiver method args) s x := by
  by_cases hvoid : receiver = .void
  · subst hvoid
    cases h
  · by_cases hdispatcher : receiver = .dispatcher
    · subst hdispatcher
      exact .inside .named h
    · rw [dispatch_eq_dispatchKind host fuel scope method args hvoid hdispatcher,
        dispatchKind] at h
      cases hfound : receiver.kind.operation? method with
      | none =>
          rw [hfound] at h
          cases h
      | some op =>
          rw [hfound] at h
          dsimp only at h
          by_cases haccepts : op.accepts args.count = true
          · rw [if_pos haccepts] at h
            exact .inside (.operation hvoid hdispatcher hfound haccepts) h
          · rw [if_neg haccepts] at h
            cases h

theorem operate_halts
    {op : Operation} {receiver : Value} {method : String} {args : Arguments}
    (h : (HandleScript.operate host (fuel + 1) op receiver method args s).halt? =
      some x) :
    Halts host fuel (.operate op receiver method args) s x := by
  cases op with
  | invoke =>
      rcases Computation.halt?_bind_iff.mp h with hargs | ⟨values, s', hargs, hinvoke⟩
      · exact .inside .invokeArgs hargs
      · exact .inside (.invoke hargs) hinvoke
  | connective op =>
      cases hdecided : (s.store.bool? receiver).filter op.decidedBy with
      | some b =>
          rw [operate_decided host fuel hdecided] at h
          cases h
      | none =>
          rw [operate_undecided host fuel hdecided] at h
          rcases Computation.halt?_bind_iff.mp h with hargs | ⟨values, s', -, hend⟩
          · exact .inside (.operand hdecided) hargs
          · obtain ⟨-, effect, hplan, hlarge⟩ := Run.halt?_carryOut hend
            have hallows := op.plan_allows s'.store receiver method values
            rw [hplan] at hallows
            obtain ⟨sketch, harises⟩ := hallows
            obtain hfits | ⟨hop, -⟩ := harises.fits_or_array
            · rw [hlarge] at hfits
              cases hfits
            · cases hop
  | eager op =>
      rcases Computation.halt?_bind_iff.mp h with hargs | ⟨values, s', hargs, hend⟩
      · exact .inside .operands hargs
      · obtain ⟨rfl, effect, hplan, hlarge⟩ := Run.halt?_carryOut hend
        have hallows := op.plan_allows s'.store receiver method values host.files
        rw [hplan] at hallows
        obtain ⟨sketch, harises⟩ := hallows
        obtain hfits | ⟨hop, size, slots, rfl, hslots, rfl⟩ := harises.fits_or_array
        · rw [hlarge] at hfits
          cases hfits
        · cases hop
          exact .here (.array hargs hslots (by simpa [Effect.fits] using hlarge))

theorem callNamed_halts
    {scope : Nat} {name : String} {args : Arguments}
    (h : (HandleScript.callNamed host (fuel + 1) scope name args s).halt? = some x) :
    Halts host fuel (.callNamed scope name args) s x := by
  cases hbuiltin : Builtin.ofName? name with
  | some builtin =>
      rw [callNamed_builtin host fuel hbuiltin] at h
      rcases Computation.halt?_bind_iff.mp h with hargs | ⟨values, s', -, hend⟩
      · exact .inside (.builtinArgs hbuiltin) hargs
      · rw [builtin.halt?_call values s'] at hend
        cases hend
  | none =>
      cases hfound : s.functions.get? name with
      | none =>
          rw [callNamed_unknown host fuel hbuiltin hfound] at h
          cases h
      | some f =>
          rw [callNamed_function host fuel hbuiltin hfound] at h
          rcases Computation.halt?_bind_iff.mp h with hargs | ⟨values, s', hargs, hcall⟩
          · exact .inside (.functionArgs hbuiltin hfound) hargs
          · exact .inside (.function hbuiltin hfound hargs) hcall

theorem callFunction_halts
    {f : Function} {values : List Value} {parent : Nat}
    (h : (HandleScript.callFunction host (fuel + 1) f values parent s).halt? = some x) :
    Halts host fuel (.callFunction f values parent) s x := by
  by_cases harity : f.params.length = values.length
  · by_cases hdepth : s.depth + 1 ≤ host.maxDepth
    · rw [callFunction_admitted host fuel harity hdepth] at h
      exact .inside (.body harity hdepth) ((State.halt?_return _).symm.trans h)
    · rw [callFunction_refused host fuel harity (Nat.lt_of_not_le hdepth)] at h
      cases h
  · rw [callFunction_misfit host fuel harity] at h
    cases h

theorem execAll_halts
    {scope : Nat} {stmts : List Stmt}
    (h : (HandleScript.execAll host (fuel + 1) scope stmts s).halt? = some x) :
    Halts host fuel (.execAll scope stmts) s x := by
  cases stmts with
  | nil => cases h
  | cons stmt rest =>
      rcases Computation.halt?_bind_iff.mp h with hfirst | ⟨flow, s', hfirst, hrest⟩
      · exact .inside .statement hfirst
      · cases flow with
        | pass => exact .inside (.statements hfirst) hrest
        | giveBack | leave | skip => cases hrest

theorem exec_halts
    {scope : Nat} {stmt : Stmt}
    (h : (HandleScript.exec host (fuel + 1) scope stmt s).halt? = some x) :
    Halts host fuel (.exec scope stmt) s x := by
  cases stmt with
  | branch arms span => exact .inside .arms h
  | loop test body span => exact .inside .loop h
  | declare name init span =>
      rcases Computation.halt?_bind_iff.mp h with hinit | ⟨v, s', -, hend⟩
      · exact .inside .init hinit
      · cases hend
  | assign name value span =>
      rcases Computation.halt?_bind_iff.mp h with hvalue | ⟨v, s', -, hend⟩
      · exact .inside .value hvalue
      · cases hend
  | giveBack value span =>
      cases value with
      | none => cases h
      | some value =>
          rcases Computation.halt?_bind_iff.mp h with hvalue | ⟨v, s', -, hend⟩
          · exact .inside .result hvalue
          · cases hend
  | leave span => cases h
  | skip span => cases h
  | block body span => exact .inside .block h
  | expr value span =>
      rcases Computation.halt?_bind_iff.mp h with hvalue | ⟨v, s', -, hend⟩
      · exact .inside .expr hvalue
      · cases hend

theorem execArms_halts
    {scope : Nat} {arms : Arms}
    (h : (HandleScript.execArms host (fuel + 1) scope arms s).halt? = some x) :
    Halts host fuel (.execArms scope arms) s x := by
  cases arms with
  | done => cases h
  | otherwise body => exact .inside .otherwise h
  | test test body rest =>
      rcases Computation.halt?_bind_iff.mp h with htest | ⟨holds, s', htest, hmore⟩
      · exact .inside .armTest htest
      · cases holds with
        | true => exact .inside (.armBody htest) hmore
        | false => exact .inside (.armRest htest) hmore

theorem execLoop_halts
    {scope : Nat} {test : Expr} {body : List Stmt}
    (h : (HandleScript.execLoop host (fuel + 1) scope test body s).halt? = some x) :
    Halts host fuel (.execLoop scope test body) s x := by
  rcases Computation.halt?_bind_iff.mp h with htest | ⟨holds, s', htest, hmore⟩
  · exact .inside .loopTest htest
  · cases holds with
    | false => cases hmore
    | true =>
        rcases Computation.halt?_bind_iff.mp hmore with hbody | ⟨flow, s'', hbody, hagain⟩
        · exact .inside (.loopBody htest) hbody
        · cases flow with
          | pass => exact .inside (.again htest hbody (.inl rfl)) hagain
          | skip => exact .inside (.again htest hbody (.inr rfl)) hagain
          | leave | giveBack => cases hagain

theorem evalStatements_halts
    {scope : Nat} {last : Option Value} {stmts : List Stmt}
    (h : (evalStatements host fuel scope last stmts s).halt? = some x) :
    ∃ job s', Starts host fuel scope stmts s job s' ∧
      (job.run host fuel s').halt? = some x := by
  induction stmts generalizing last s with
  | nil => cases h
  | cons stmt rest ih =>
      by_cases hexpr : ∃ value span, stmt = .expr value span
      · obtain ⟨value, span, rfl⟩ := hexpr
        rcases Computation.halt?_bind_iff.mp h with hvalue | ⟨v, s', hvalue, hrest⟩
        · exact ⟨_, _, .expr, hvalue⟩
        · obtain ⟨job, t, hstarts, hout⟩ := ih hrest
          exact ⟨job, t, .afterExpr hvalue hstarts, hout⟩
      · have hplain : ∀ value span, stmt ≠ .expr value span :=
          fun value span heq => hexpr ⟨value, span, heq⟩
        rw [evalStatements_cons host fuel scope last rest hplain] at h
        rcases Computation.halt?_bind_iff.mp h with hfirst | ⟨flow, s', hfirst, hrest⟩
        · exact ⟨_, _, .stmt hplain, hfirst⟩
        · cases flow with
          | pass =>
              obtain ⟨job, t, hstarts, hout⟩ := ih hrest
              exact ⟨job, t, .afterStmt hplain hfirst hstarts, hout⟩
          | giveBack | leave | skip => cases hrest

theorem halts_of_halt? {job : Job} (h : (job.run host (fuel + 1) s).halt? = some x) :
    Halts host fuel job s x := by
  cases job with
  | eval scope e => exact eval_halts h
  | evalAll scope es => exact evalAll_halts h
  | force args =>
      cases args with
      | deferred scope es => exact .inside .deferred h
      | ready values => cases h
  | dispatch scope receiver method args => exact dispatch_halts h
  | operate op receiver method args => exact operate_halts h
  | callNamed scope name args => exact callNamed_halts h
  | invoke receiver values =>
      cases receiver with
      | lambda cell => exact .inside .lambda h
      | int | long | double | bool | text | list | array | iterator | file | void
      | dispatcher | factory => cases h
  | callFunction f values parent => exact callFunction_halts h
  | execAll scope stmts => exact execAll_halts h
  | execBody scope body => exact .inside .opened h
  | exec scope stmt => exact exec_halts h
  | execArms scope arms => exact execArms_halts h
  | execLoop scope test body => exact execLoop_halts h
  | condition scope test =>
      rcases Computation.halt?_bind_iff.mp h with htest | ⟨v, s', -, hend⟩
      · exact .inside .tested htest
      · rcases Computation.halt?_bind_iff.mp hend with hread | ⟨found, s'', hread, hend⟩
        · cases hread
        · cases found <;> cases hend
  | input scope stmts =>
      obtain ⟨job, t, hstarts, hout⟩ := evalStatements_halts h
      exact .inside (.started hstarts) hout

theorem Starts.halt?
    {scope : Nat} {stmts : List Stmt} {job : Job} {t : State}
    (h : Starts host fuel scope stmts s job t)
    (hout : (job.run host fuel t).halt? = some x) (last : Option Value) :
    (evalStatements host fuel scope last stmts s).halt? = some x := by
  induction h generalizing last with
  | expr => exact Computation.halt?_bind_of_first hout _
  | stmt plain =>
      rw [evalStatements_cons host fuel scope last _ plain]
      exact Computation.halt?_bind_of_first hout _
  | afterExpr before _ ih => exact Computation.halt?_bind_of_done before (ih hout _)
  | afterStmt plain before _ ih =>
      rw [evalStatements_cons host fuel scope last _ plain]
      exact Computation.halt?_bind_of_done before (ih hout none)

/-- Whatever a job calls for is done as part of it: the job ends with it, if that has no
answer. -/
theorem Calls.halt?
    {job job' : Job} {s' : State} (h : Calls host fuel job s job' s')
    (hout : (job'.run host fuel s').halt? = some x) :
    (job.run host (fuel + 1) s).halt? = some x := by
  cases h with
  | receiver => exact Computation.halt?_bind_of_first hout _
  | method before =>
      exact Computation.halt?_bind_of_done before
        ((Computation.halt?_adjustFailure ..).trans hout)
  | first => exact Computation.halt?_bind_of_first hout _
  | others before =>
      exact Computation.halt?_bind_of_done before (Computation.halt?_bind_of_first hout _)
  | deferred => exact hout
  | named => exact hout
  | operation notVoid notDispatcher found accepted =>
      change (HandleScript.dispatch _ _ _ _ _ _ _).halt? = _
      rw [dispatch_eq_dispatchKind host fuel _ _ _ notVoid notDispatcher,
        dispatchKind, found]
      simp only [accepted, if_true]
      exact hout
  | invokeArgs => exact Computation.halt?_bind_of_first hout _
  | invoke before => exact Computation.halt?_bind_of_done before hout
  | operand undecided =>
      refine (congrArg Outcome.halt? (operate_undecided host fuel undecided _ _)).trans ?_
      exact Computation.halt?_bind_of_first hout _
  | operands => exact Computation.halt?_bind_of_first hout _
  | builtinArgs found =>
      refine (congrArg Outcome.halt?
        (congrFun (callNamed_builtin host fuel found _ _) s)).trans ?_
      exact Computation.halt?_bind_of_first hout _
  | functionArgs loaded found =>
      refine (congrArg Outcome.halt?
        (callNamed_function host fuel loaded found _ _)).trans ?_
      exact Computation.halt?_bind_of_first hout _
  | function loaded found before =>
      refine (congrArg Outcome.halt?
        (callNamed_function host fuel loaded found _ _)).trans ?_
      exact Computation.halt?_bind_of_done before hout
  | lambda => exact hout
  | body arity admitted =>
      refine (congrArg Outcome.halt?
        (callFunction_admitted host fuel arity admitted _)).trans ?_
      exact (State.halt?_return _).trans hout
  | statement => exact Computation.halt?_bind_of_first hout _
  | statements before => exact Computation.halt?_bind_of_done before hout
  | opened => exact hout
  | arms => exact hout
  | loop => exact hout
  | init => exact Computation.halt?_bind_of_first hout _
  | value => exact Computation.halt?_bind_of_first hout _
  | result => exact Computation.halt?_bind_of_first hout _
  | block => exact hout
  | expr => exact Computation.halt?_bind_of_first hout _
  | otherwise => exact hout
  | armTest => exact Computation.halt?_bind_of_first hout _
  | armBody before => exact Computation.halt?_bind_of_done before hout
  | armRest before => exact Computation.halt?_bind_of_done before hout
  | loopTest => exact Computation.halt?_bind_of_first hout _
  | loopBody before =>
      exact Computation.halt?_bind_of_done before (Computation.halt?_bind_of_first hout _)
  | again holds before goesOn =>
      refine Computation.halt?_bind_of_done holds
        (Computation.halt?_bind_of_done before ?_)
      rcases goesOn with rfl | rfl <;> exact hout
  | tested => exact Computation.halt?_bind_of_first hout _
  | started hstarts => exact hstarts.halt? hout none

theorem Overflows.run_eq {job : Job} {t : State} (h : Overflows host fuel job s t) :
    job.run host (fuel + 1) s = .crashed t := by
  cases h with
  | @array receiver size method args slots _ _ before asked large =>
      have hplan : (EagerOp.factory .array).plan host.files t.store receiver method
          [size] =
          .ok (.freshArray slots) := by
        change (slotsOf t.store size).map _ = _
        rw [asked]
        rfl
      refine (Computation.bind_of_done before _).trans (Run.carryOut_of_large hplan ?_)
      simpa [Effect.fits] using large

/-- A job ends without an answer exactly when some job that it calls for does, or when it
asks for too large an array. -/
theorem halt?_succ_iff {job : Job} :
    (job.run host (fuel + 1) s).halt? = some x ↔ Halts host fuel job s x := by
  constructor
  · exact halts_of_halt?
  · rintro (⟨hcalls, hout⟩ | hover)
    · exact hcalls.halt? hout
    · rw [hover.run_eq]
      rfl

/-! ## Jobs that have not ended -/

/-- The number of bodies that a job enters itself: a call of a function enters one. -/
def bodies : Job → Nat
  | callFunction .. => 1
  | _ => 0

/-- While the first job is done, the second one is: over a chain of jobs, each of which is
called for by the one before. Along the chain, `entered` bodies of functions and function
literals have been entered and not been left, and `left` steps remain. -/
inductive Active (host : Host) :
    (fuel : Nat) → Job → State → (entered left : Nat) → Job → State → Prop
  | here {fuel : Nat} {job : Job} {s : State} : Active host fuel job s 0 fuel job s
  | inside {fuel entered left : Nat} {job job' last : Job} {s s' t : State}
      (calls : Calls host fuel job s job' s')
      (rest : Active host fuel job' s' entered left last t) :
      Active host (fuel + 1) job s (job.bodies + entered) left last t

/-- A job runs out of steps exactly when a chain of jobs uses them all. -/
theorem exhausted_iff {job : Job} :
    job.run host fuel s = .exhausted ↔ ∃ entered last t,
      Active host fuel job s entered 0 last t := by
  rw [← Outcome.halt?_eq_exhausted_iff]
  induction fuel generalizing job s with
  | zero =>
      rw [run_zero]
      exact ⟨fun _ => ⟨0, job, s, .here⟩, fun _ => rfl⟩
  | succ fuel ih =>
      rw [halt?_succ_iff]
      constructor
      · intro hhalts
        cases hhalts with
        | inside hcalls hout =>
            obtain ⟨entered, last, t, hactive⟩ := ih.mp hout
            exact ⟨_, last, t, .inside hcalls hactive⟩
      · rintro ⟨entered, last, t, hactive⟩
        cases hactive with
        | inside hcalls hrest => exact .inside hcalls (ih.mpr ⟨_, last, t, hrest⟩)

/-- A job crashes exactly when a chain of jobs leads to one that asks for too large an
array. -/
theorem crashed_iff {job : Job} {t : State} :
    job.run host fuel s = .crashed t ↔
      ∃ entered left last u, Active host fuel job s entered (left + 1) last u ∧
        Overflows host left last u t := by
  rw [← Outcome.halt?_eq_crashed_iff]
  induction fuel generalizing job s with
  | zero =>
      rw [run_zero]
      refine ⟨nofun, ?_⟩
      rintro ⟨entered, left, last, u, hactive, -⟩
      cases hactive
  | succ fuel ih =>
      rw [halt?_succ_iff]
      constructor
      · intro hhalts
        cases hhalts with
        | inside hcalls hout =>
            obtain ⟨entered, left, last, u, hactive, hover⟩ := ih.mp hout
            exact ⟨_, left, last, u, .inside hcalls hactive, hover⟩
        | here hover => exact ⟨0, fuel, job, s, .here, hover⟩
      · rintro ⟨entered, left, last, u, hactive, hover⟩
        cases hactive with
        | here => exact .here hover
        | inside hcalls hrest =>
            exact .inside hcalls (ih.mpr ⟨_, left, last, u, hrest, hover⟩)

end Job

end HandleScript
