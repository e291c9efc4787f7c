import HandleScript.Console
import HandleScript.Interpreter.Outcome
import HandleScript.Operation.Plan
import HandleScript.Scope

/-!
# The state of a running script

The store, the scopes, the loaded functions, the console and the number of calls that have
not returned. Scripts run on a host, which sets the recursion limit, provides the files
and lists the names that a hint is chosen from.
-/

namespace HandleScript

/-- What surrounds a running script and never changes. -/
structure Host where
  /-- The number of function calls that may be nested. -/
  maxDepth : Nat
  files : Files
  /-- The order in which the candidates for a hint are listed. A run asks for it at most
  once, since the failure that carries the hint ends the run. -/
  listing : Listing

/-- Everything that a running script can change. -/
structure State where
  store : Store
  scopes : Scopes Value
  functions : Bindings Function
  console : Console
  /-- The number of function calls that have not returned. -/
  depth : Nat
deriving Inhabited

/-- The number of the outermost scope. -/
def globalScope : Nat := 0

/-- The state in which nothing has run: the outermost scope holds the dispatcher and the
factory. -/
def State.initial (console : Console) : State :=
  { store := .empty
    scopes := (Scopes.initial.define globalScope dispatcherName .dispatcher).define
      globalScope factoryName .factory
    functions := .empty
    console := console
    depth := 0 }

/-- A computation of a running script. -/
abbrev Run (α : Type) := Computation State Failure α

namespace Run

/-- Fails for a cause; the place is added by the call that failed. -/
@[inline]
def fail {α : Type} (cause : Cause) : Run α :=
  Computation.fail ⟨cause, none⟩

/-- Fails for a cause at a place. -/
@[inline]
def failAt {α : Type} (span : Span) (cause : Cause) : Run α :=
  Computation.fail ⟨cause, some span⟩

/-- Gives the failure of a computation a place, unless it has one. -/
@[inline]
def located {α : Type} (span : Span) (run : Run α) : Run α :=
  run.adjustFailure fun failure => failure.located span

/-- Makes a new value. -/
def alloc (content : Content) : Run Value :=
  fun s =>
    let (v, store) := s.store.alloc content
    .done v { s with store := store }

/-- Decides on an effect by the store as it is, and carries it out. What no block of
memory can hold makes the program crash. -/
def carryOut (plan : Store → Plan) : Run Value :=
  fun s =>
    match plan s.store with
    | .error cause => .failed ⟨cause, none⟩ s
    | .ok effect =>
      if effect.fits then
        let (v, store) := s.store.commit effect
        .done v { s with store := store }
      else .crashed s

/-- Opens a scope inside another one. -/
def openScope (parent : Nat) : Run Nat :=
  fun s =>
    let (id, scopes) := s.scopes.child parent
    .done id { s with scopes := scopes }

/-- Binds a name in a scope. -/
def define (scope : Nat) (name : String) (v : Value) : Run Unit :=
  Computation.update fun s => { s with scopes := s.scopes.define scope name v }

/-- Rebinds a name where it is bound nearest, or else binds it in the scope itself. -/
def assign (scope : Nat) (name : String) (v : Value) : Run Unit :=
  Computation.update fun s => { s with scopes := s.scopes.set scope name v }

/-- The names that may be suggested for an unknown variable: all but the hidden ones. -/
def suggestable (names : List String) : List String :=
  names.filter fun name => !name.toList.contains '.'

/-- The value of a name in a scope. -/
def lookup (listing : Listing) (scope : Nat) (name : String) : Run Value :=
  fun s =>
    match s.scopes.get? scope name with
    | some v => .done v s
    | none =>
      let hint := Text.suggestion name
        (listing.arrange (suggestable (s.scopes.visibleNames scope)))
      .failed ⟨.undefinedVariable name hint, none⟩ s

/-- Writes a text to the console. -/
def write (text : String) : Run Value :=
  fun s =>
    if s.console.fits text then .done .void { s with console := s.console.append text }
    else .failed ⟨.trouble .outputClosed, none⟩ s

/-- Reads a line from the console; `void` at the end of the input. -/
def readLine : Run Value :=
  fun s =>
    match s.console.readLine with
    | (.ok (some line), console) => alloc (.text line) { s with console := console }
    | (.ok none, console) => .done .void { s with console := console }
    | (.error cause, console) => .failed ⟨cause, none⟩ { s with console := console }

end Run

/-- The functions that every script can call. -/
inductive Builtin where
  | println
  | print
  | readln
  | int
deriving DecidableEq, Repr

namespace Builtin

/-- The built-in functions by name. -/
def table : List (String × Builtin) :=
  [("println", println), ("print", print), ("readln", readln), ("int", int)]

/-- The built-in function of a name. -/
def ofName? (name : String) : Option Builtin :=
  table.lookup name

/-- The names of the built-in functions. -/
def names : List String :=
  table.map Prod.fst

/-- Calls a built-in function on evaluated arguments. -/
def call (builtin : Builtin) (args : List Value) : Run Value :=
  match builtin with
  | println => fun s => Run.write (s.store.renderAll args ++ "\n") s
  | print => fun s => Run.write (s.store.renderAll args) s
  | readln =>
    if args.isEmpty then Run.readLine else
      Run.fail (.arityMismatch "readln" 0 args.length)
  | int =>
    match args with
    | [v] => Run.carryOut fun store => FactoryOp.int.plan store "int" [v]
    | _ => Run.fail (.arityMismatch "int" 1 args.length)

end Builtin

end HandleScript
