import HandleScript.Interpreter.Eval
import HandleScript.Program.ControlFlow
import HandleScript.Program.OfSource

/-!
# The interpreter

An interpreter keeps a state between runs. It loads programs that pass the control-flow
check, calls functions by name and evaluates statements in scopes that it opens.
-/

namespace HandleScript

/-- The settings of an interpreter. -/
structure Settings where
  /-- The function that a run calls. -/
  entry : String := "main"
  /-- The number of function calls that may be nested. -/
  maxDepth : Nat := 10000
deriving Repr, Inhabited

/-- An interpreter between two runs. -/
structure Interpreter where
  settings : Settings
  files : Files
  /-- The order in which the candidates for a hint are listed. -/
  listing : Listing
  state : State
deriving Inhabited

/-- Why a source text did not run to its end. -/
inductive Error where
  | compile (e : CompileError)
  | runtime (f : Failure)

/-- The whole text of an error. -/
def Error.text : Error → String
  | compile e => e.text
  | runtime f => f.text

/-- More steps than any run takes before its host runs out of time. -/
def ampleFuel : Nat := Nat.pow 2 60

namespace Interpreter

/-- A use of an interpreter. -/
abbrev Task (α : Type) := Computation Interpreter Error α

/-- The outcome of using an interpreter. -/
abbrev Reply (α : Type) := Outcome Interpreter Error α

/-- An interpreter on which nothing has run. -/
def fresh (settings : Settings) (files : Files) (listing : Listing) (console : Console) :
    Interpreter :=
  ⟨settings, files, listing, .initial console⟩

/-- The host of the scripts that run on an interpreter. -/
def host (i : Interpreter) : Host :=
  ⟨i.settings.maxDepth, i.files, i.listing⟩

/-- Runs a computation on the interpreter's state. -/
def execute {α : Type} (i : Interpreter) (run : Host → Run α) : Reply α :=
  let ⟨settings, files, listing, state⟩ := i
  (run ⟨settings.maxDepth, files, listing⟩ state).lift
    (fun state => ⟨settings, files, listing, state⟩) .runtime

/-- Replaces the state. -/
def modifyState (i : Interpreter) (f : State → State) : Interpreter :=
  let ⟨settings, files, listing, state⟩ := i
  ⟨settings, files, listing, f state⟩

/-- Declares a function, in place of an earlier one of its name. -/
def declare (f : Function) : Task Unit :=
  Computation.update fun i => i.modifyState fun s =>
    { s with functions := s.functions.insert f.name.node f }

/-- Declares functions one after the other. -/
def declareAll : List Function → Task Unit
  | [] => pure ()
  | f :: fs => do
    declare f
    declareAll fs

/-- Checks where a program leaves loops, and declares its functions. -/
def load (i : Interpreter) (p : Program) : Reply Unit :=
  let task : Task Unit := do
    Computation.ofExcept .compile p.check
    declareAll p.functions
  task i

/-- Calls a built-in or loaded function on values. -/
def call (fuel : Nat) (i : Interpreter) (name : String) (values : List Value) :
    Reply Value :=
  i.execute fun host => callNamed host fuel globalScope name (.ready values)

/-- Loads a program and calls the entry function without arguments. -/
def run (fuel : Nat) (i : Interpreter) (p : Program) : Reply Value :=
  let task : Task Value := do
    fun i => i.load p
    fun i => i.call fuel i.settings.entry []
  task i

/-- Reads a source text as a program, and runs it. -/
def runSource (fuel : Nat) (i : Interpreter) (source : String) : Reply Value :=
  let task : Task Value := do
    let p ← Computation.ofExcept .compile (Program.ofSource source)
    fun i => i.run fuel p
  task i

/-- Reads a source text as a program, and loads it. -/
def loadSource (i : Interpreter) (source : String) : Reply Unit :=
  let task : Task Unit := do
    let p ← Computation.ofExcept .compile (Program.ofSource source)
    fun i => i.load p
  task i

/-- Binds a name in the outermost scope. -/
def defineGlobal (i : Interpreter) (name : String) (v : Value) : Interpreter :=
  i.modifyState fun s => { s with scopes := s.scopes.define globalScope name v }

/-- The value of a name in the outermost scope. -/
def global? (i : Interpreter) (name : String) : Option Value :=
  i.state.scopes.get? globalScope name

/-- The names of the loaded functions, sorted. -/
def functionNames (i : Interpreter) : List String :=
  i.state.functions.sortedNames

/-- Opens a scope inside another one. -/
def openScope (i : Interpreter) (parent : Nat) : Nat × Interpreter :=
  let (id, scopes) := i.state.scopes.child parent
  (id, i.modifyState fun s => { s with scopes := scopes })

/-- Makes a new value. -/
def make (i : Interpreter) (content : Content) : Value × Interpreter :=
  let (v, store) := i.state.store.alloc content
  (v, i.modifyState fun s => { s with store := store })

/-- Runs statements in a scope, without the control-flow check. -/
def evalIn (fuel : Nat) (i : Interpreter) (scope : Nat) (stmts : List Stmt) :
    Reply (Option Value) :=
  i.execute fun host => evalStatements host fuel scope none stmts

/-- Reads a source text as statements, and runs them in a scope without the control-flow
check. -/
def evalSource (fuel : Nat) (i : Interpreter) (scope : Nat) (source : String) :
    Reply (Option Value) :=
  let task : Task (Option Value) := do
    let stmts ← Computation.ofExcept .compile (Stmt.ofSource source)
    fun i => i.evalIn fuel scope stmts
  task i

end Interpreter

end HandleScript
