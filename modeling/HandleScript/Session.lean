import HandleScript.Interpreter

/-!
# Sessions

A session evaluates one input after the other. An input that begins with a function
declaration is a program, whose functions are loaded; any other input is a sequence of
statements, which run in the session's scope. An input that does not compile changes
nothing.
-/

namespace HandleScript

/-- An interpreter and the scope of the session's own variables. -/
structure Session where
  interpreter : Interpreter
  scope : Nat
deriving Inhabited

namespace Session

/-- A use of a session. -/
abbrev Task (α : Type) := Computation Session Error α

/-- The outcome of evaluating an input. -/
abbrev Reply (α : Type) := Outcome Session Error α

/-- A session with a scope of its own inside the outermost one. -/
def new (i : Interpreter) : Session :=
  let (scope, i) := i.openScope globalScope
  ⟨i, scope⟩

/-- Whether tokens begin a function declaration. -/
def startsDeclaration : List (Located Token) → Bool
  | ⟨.keyword .function, _⟩ :: ⟨.word _, _⟩ :: _ => true
  | _ => false

/-- Uses the session's interpreter; the session's scope is given to the use. -/
def within {α : Type} (use : Interpreter → (scope : Nat) → Interpreter.Reply α) :
    Task α :=
  fun session =>
    let ⟨i, scope⟩ := session
    (use i scope).lift (fun i => ⟨i, scope⟩) id

/-- Evaluates an input. Statements give the value of the last one, when that is an
expression, or the value that one of them gives back. -/
def eval (fuel : Nat) (session : Session) (input : String) : Reply (Option Value) :=
  let task : Task (Option Value) := do
    let tokens ← Computation.ofExcept (fun e => .compile (.lexical e)) (tokenize input)
    if startsDeclaration tokens then
      let p ← Computation.ofExcept (fun e => .compile (.grammatical e))
        (parseProgram input tokens)
      within fun i _ => i.load p
      return none
    else
      let stmts ← Computation.ofExcept (fun e => .compile (.grammatical e))
        (parseStatements input tokens)
      Computation.ofExcept .compile (Stmt.checkAll stmts)
      within fun i scope => i.evalIn fuel scope stmts
  task session

/-- Forgets the session's variables by opening a new scope for them. -/
def reset (session : Session) : Session :=
  new session.interpreter

end Session

end HandleScript
