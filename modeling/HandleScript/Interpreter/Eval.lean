import HandleScript.Interpreter.State

/-!
# Running scripts

Expressions, calls and statements, each in a scope. Arguments reach a call unevaluated: an
operation that does not exist, or that takes another number of arguments, fails before any
of them is evaluated, and `and` and `or` evaluate theirs only when the receiver does not
decide the result. Every other call evaluates all of them, from left to right, and then
acts. The tables of operations do not differ in this, so it is written once: `operate`
forces the arguments for the operations of every table, and `Run.carryOut` then carries
out the plan that the operation makes of the values.

Loops need not end, so every function here takes a count of steps, which bounds how deeply
its calls nest and how often its loops go round. Running out of steps is an outcome of its
own and never a failure of the script.
-/

namespace HandleScript

/-- How a statement ends. -/
inductive Flow where
  /-- The next statement follows. -/
  | pass
  /-- The function gives back a value. -/
  | giveBack (v : Value)
  /-- The innermost loop ends. -/
  | leave
  /-- The innermost loop goes round. -/
  | skip
deriving DecidableEq, Repr

/-- The arguments of a call. -/
inductive Arguments where
  /-- Expressions that are to be evaluated in a scope. -/
  | deferred (scope : Nat) (exprs : List Expr)
  | ready (values : List Value)

/-- The number of arguments. -/
def Arguments.count : Arguments → Nat
  | deferred _ exprs => exprs.length
  | ready values => values.length

/-- What a literal stands for: a new value each time that it is evaluated. -/
def Literal.make : Literal → Run Value
  | int n => Run.alloc (.number (.int n))
  | double x => Run.alloc (.number (.double x))
  | bool b => Run.alloc (.bool b)
  | text s => Run.alloc (.text s)
  | void => pure .void

/-- The failure of a call to a function that does not exist. -/
def undefinedFunction (listing : Listing) (functions : Bindings Function)
    (name : String) : Cause :=
  .undefinedFunction name
    (Text.suggestion name (listing.arrange (Builtin.names ++ functions.names)))

/-- The state in which a function's body starts: one call deeper, with the parameters
bound in a new scope inside `parent`. -/
def State.enter (s : State) (parent : Nat) (f : Function) (args : List Value) :
    Nat × State :=
  let (scope, scopes) := s.scopes.child parent
  (scope,
    { s with scopes := scopes.defineAll scope f.paramNames args, depth := s.depth + 1 })

/-- The state after a function's body has ended. -/
def State.leave (s : State) : State :=
  { s with depth := s.depth - 1 }

/-- What a call gives back when the function's body ends in the given way. -/
def Flow.result : Flow → Run Value
  | giveBack v => pure v
  | pass => pure .void
  | leave => Run.fail (.escaped .leave)
  | skip => Run.fail (.escaped .skip)

/-- What a call makes of the outcome of the function's body. -/
def State.return : Outcome State Failure Flow → Outcome State Failure Value
  | .done flow s => flow.result s.leave
  | .failed failure s => .failed failure s.leave
  | .crashed s => .crashed s
  | .exhausted => .exhausted

mutual

/-- Evaluates an expression. -/
def eval (host : Host) : (fuel : Nat) → (scope : Nat) → Expr → Run Value
  | 0, _, _ => Computation.giveUp
  | _ + 1, _, .literal value _ => value.make
  | _ + 1, scope, .name text span => Run.located span (Run.lookup host.listing scope text)
  | _ + 1, scope, .lambda function => Run.alloc (.lambda ⟨function, scope⟩)
  | fuel + 1, scope, .call receiver method args _ => do
    let target ← eval host fuel scope receiver
    Run.located method.span
      (dispatch host fuel scope target method.node (.deferred scope args))
termination_by structural fuel => fuel

/-- Evaluates expressions from left to right. -/
def evalAll (host : Host) : (fuel : Nat) → (scope : Nat) → List Expr → Run (List Value)
  | 0, _, _ => Computation.giveUp
  | _ + 1, _, [] => pure []
  | fuel + 1, scope, e :: es => do
    let first ← eval host fuel scope e
    let rest ← evalAll host fuel scope es
    return first :: rest
termination_by structural fuel => fuel

/-- Evaluates the arguments of a call that have not been evaluated. -/
def force (host : Host) : (fuel : Nat) → Arguments → Run (List Value)
  | 0, _ => Computation.giveUp
  | fuel + 1, .deferred scope exprs => evalAll host fuel scope exprs
  | _ + 1, .ready values => pure values
termination_by structural fuel => fuel

/-- Calls a method on a value, from a scope. -/
def dispatch (host : Host) :
    (fuel : Nat) → (scope : Nat) → Value → String → Arguments → Run Value
  | 0, _, _, _, _ => Computation.giveUp
  | _ + 1, _, .void, method, _ => Run.fail (.callOnVoid method)
  | fuel + 1, scope, .dispatcher, method, args => callNamed host fuel scope method args
  | fuel + 1, _, receiver, method, args =>
    match receiver.kind.operation? method with
    | none => Run.fail (unknownMethod receiver.kind method)
    | some op =>
      if op.accepts args.count then operate host fuel op receiver method args
      else Run.fail (.arityMismatch method (op.arity.getD 0) args.count)
termination_by structural fuel => fuel

/-- Calls an operation with a number of arguments that it accepts. -/
def operate (host : Host) :
    (fuel : Nat) → Operation → Value → String → Arguments → Run Value
  | 0, _, _, _, _ => Computation.giveUp
  | fuel + 1, .invoke, receiver, _, args => do
    let values ← force host fuel args
    invoke host fuel receiver values
  | fuel + 1, .connective op, receiver, method, args => do
    let decided ← Computation.inspect fun s =>
      (s.store.bool? receiver).filter op.decidedBy
    match decided with
    | some b => Run.alloc (.bool b)
    | none =>
      let values ← force host fuel args
      Run.carryOut fun store => Connective.plan store method values
  | fuel + 1, .eager op, receiver, method, args => do
    let values ← force host fuel args
    Run.carryOut fun store => op.plan host.files store receiver method values
termination_by structural fuel => fuel

/-- Calls a function by name: a built-in one, or else a loaded one, whose body runs in a
scope of its own inside the outermost scope. -/
def callNamed (host : Host) :
    (fuel : Nat) → (scope : Nat) → String → Arguments → Run Value
  | 0, _, _, _ => Computation.giveUp
  | fuel + 1, scope, name, args =>
    match Builtin.ofName? name with
    | some builtin => do
      let values ← force host fuel args
      builtin.call values
    | none => do
      match ← Computation.inspect fun s => s.functions.get? name with
      | some function =>
        let values ← force host fuel args
        let root ← Computation.inspect fun s => s.scopes.rootOf scope
        callFunction host fuel function values root
      | none => fun s => .failed ⟨undefinedFunction host.listing s.functions name, none⟩ s
termination_by structural fuel => fuel

/-- Calls a function literal, whose body runs in a scope of its own inside the scope where
the literal was evaluated. -/
def invoke (host : Host) : (fuel : Nat) → Value → List Value → Run Value
  | 0, _, _ => Computation.giveUp
  | fuel + 1, .lambda cell, values => do
    let closure ← Computation.inspect fun s => s.store.closures.get cell
    callFunction host fuel closure.function values closure.scope
  | _ + 1, receiver, _ => Run.fail (unknownMethod receiver.kind "invoke")
termination_by structural fuel => fuel

/-- Calls a function on evaluated arguments, inside the scope `parent`. -/
def callFunction (host : Host) :
    (fuel : Nat) → Function → List Value → (parent : Nat) → Run Value
  | 0, _, _, _ => Computation.giveUp
  | fuel + 1, function, values, parent => fun s =>
    if function.params.length ≠ values.length then
      .failed ⟨.arityMismatch function.name.node function.params.length values.length,
        none⟩ s
    else if host.maxDepth < s.depth + 1 then
      .failed ⟨.stackOverflow host.maxDepth, none⟩ s
    else
      let (scope, inside) := s.enter parent function values
      State.return (execAll host fuel scope function.body inside)
termination_by structural fuel => fuel

/-- Runs statements in order until one of them does not pass. -/
def execAll (host : Host) : (fuel : Nat) → (scope : Nat) → List Stmt → Run Flow
  | 0, _, _ => Computation.giveUp
  | _ + 1, _, [] => pure .pass
  | fuel + 1, scope, stmt :: rest => do
    match ← exec host fuel scope stmt with
    | .pass => execAll host fuel scope rest
    | flow => return flow
termination_by structural fuel => fuel

/-- Runs a body in a scope of its own. -/
def execBody (host : Host) : (fuel : Nat) → (scope : Nat) → List Stmt → Run Flow
  | 0, _, _ => Computation.giveUp
  | fuel + 1, scope, body => do
    let inner ← Run.openScope scope
    execAll host fuel inner body
termination_by structural fuel => fuel

/-- Runs a statement. -/
def exec (host : Host) : (fuel : Nat) → (scope : Nat) → Stmt → Run Flow
  | 0, _, _ => Computation.giveUp
  | fuel + 1, scope, .branch arms _ => execArms host fuel scope arms
  | fuel + 1, scope, .loop condition body _ => execLoop host fuel scope condition body
  | fuel + 1, scope, .declare name init _ => do
    let v ← eval host fuel scope init
    Run.define scope name.node v
    return .pass
  | fuel + 1, scope, .assign name value _ => do
    let v ← eval host fuel scope value
    Run.assign scope name.node v
    return .pass
  | _ + 1, _, .giveBack none _ => pure (.giveBack .void)
  | fuel + 1, scope, .giveBack (some value) _ => do
    let v ← eval host fuel scope value
    return .giveBack v
  | _ + 1, _, .leave _ => pure .leave
  | _ + 1, _, .skip _ => pure .skip
  | fuel + 1, scope, .block body _ => execBody host fuel scope body
  | fuel + 1, scope, .expr value _ => do
    let _ ← eval host fuel scope value
    return .pass
termination_by structural fuel => fuel

/-- Runs the body of the first test that holds. -/
def execArms (host : Host) : (fuel : Nat) → (scope : Nat) → Arms → Run Flow
  | 0, _, _ => Computation.giveUp
  | _ + 1, _, .done => pure .pass
  | fuel + 1, scope, .otherwise body => execBody host fuel scope body
  | fuel + 1, scope, .test test body rest => do
    if ← condition host fuel scope test then execBody host fuel scope body
    else execArms host fuel scope rest
termination_by structural fuel => fuel

/-- Runs a body again and again as long as the condition holds. -/
def execLoop (host : Host) : (fuel : Nat) → (scope : Nat) → Expr → List Stmt → Run Flow
  | 0, _, _, _ => Computation.giveUp
  | fuel + 1, scope, test, body => do
    if ← condition host fuel scope test then
      match ← execBody host fuel scope body with
      | .leave => return .pass
      | .giveBack v => return .giveBack v
      | .pass => execLoop host fuel scope test body
      | .skip => execLoop host fuel scope test body
    else return .pass
termination_by structural fuel => fuel

/-- Evaluates the condition of a branch or a loop, which has to be a truth value. -/
def condition (host : Host) : (fuel : Nat) → (scope : Nat) → Expr → Run Bool
  | 0, _, _ => Computation.giveUp
  | fuel + 1, scope, test => do
    let v ← eval host fuel scope test
    match ← Computation.inspect fun s => s.store.bool? v with
    | some b => return b
    | none => Run.failAt test.span (.unsuitable .boolCondition v.kind)
termination_by structural fuel => fuel

end

/-- Runs statements one after the other in a scope, as a session does. The result is the
value of the last statement, when that is an expression, or the value that one of them
gives back; `last` is the result so far. -/
def evalStatements (host : Host) (fuel scope : Nat) (last : Option Value) :
    List Stmt → Run (Option Value)
  | [] => pure last
  | .expr value _ :: rest => do
    let v ← eval host fuel scope value
    evalStatements host fuel scope (some v) rest
  | stmt :: rest => do
    match ← exec host fuel scope stmt with
    | .pass => evalStatements host fuel scope none rest
    | .giveBack v => return some v
    | .leave => Run.failAt stmt.span (.escaped .leave)
    | .skip => Run.failAt stmt.span (.escaped .skip)

end HandleScript
