import HandleScript.Program
import HandleScript.Program.CompileError

/-!
# Leaving loops only from inside of them

The check that runs before a program does: every `break` and `continue` stands in a loop
of its own function. The body of a function literal starts over, so that a loop around the
literal does not count. The first offence in the order of the source text is reported.
-/

namespace HandleScript.ControlFlow

/-- The outcome of a check: nothing, or the first offence. -/
abbrev Verdict := Except (Located LoopExit) Unit

/-- A statement that leaves or restarts a loop, of which there has to be one. -/
def checkExit (inLoop : Bool) (exit : LoopExit) (span : Span) : Verdict :=
  if inLoop then .ok () else .error ⟨exit, span⟩

mutual

/-- Checks the function literals in an expression. -/
def checkExpr : Expr → Verdict
  | .call receiver _ args _ => do
    checkExpr receiver
    checkExprs args
  | .lambda ⟨_, _, body, _⟩ => checkStmts false body
  | .name _ _ => .ok ()
  | .literal _ _ => .ok ()

/-- Checks expressions from left to right. -/
def checkExprs : List Expr → Verdict
  | [] => .ok ()
  | e :: es => do
    checkExpr e
    checkExprs es

/-- Checks a statement; `inLoop` tells whether a loop of the same function stands around
it. -/
def checkStmt (inLoop : Bool) : Stmt → Verdict
  | .leave span => checkExit inLoop .leave span
  | .skip span => checkExit inLoop .skip span
  | .branch arms _ => checkArms inLoop arms
  | .loop condition body _ => do
    checkExpr condition
    checkStmts true body
  | .declare _ init _ => checkExpr init
  | .assign _ value _ => checkExpr value
  | .expr value _ => checkExpr value
  | .giveBack none _ => .ok ()
  | .giveBack (some value) _ => checkExpr value
  | .block body _ => checkStmts inLoop body

/-- Checks statements in order. -/
def checkStmts (inLoop : Bool) : List Stmt → Verdict
  | [] => .ok ()
  | s :: ss => do
    checkStmt inLoop s
    checkStmts inLoop ss

/-- Checks the tests and bodies of an `if` statement in order. -/
def checkArms (inLoop : Bool) : Arms → Verdict
  | .done => .ok ()
  | .otherwise body => checkStmts inLoop body
  | .test condition body rest => do
    checkExpr condition
    checkStmts inLoop body
    checkArms inLoop rest

end

/-- Checks functions in order. -/
def checkFunctions : List Function → Verdict
  | [] => .ok ()
  | f :: fs => do
    checkStmts false f.body
    checkFunctions fs

end HandleScript.ControlFlow

namespace HandleScript

/-- Checks every function of a program. -/
def Program.check (p : Program) : Except CompileError Unit :=
  (ControlFlow.checkFunctions p.functions).mapError .controlFlow

/-- Checks a sequence of statements that stands in no loop. -/
def Stmt.checkAll (stmts : List Stmt) : Except CompileError Unit :=
  (ControlFlow.checkStmts false stmts).mapError .controlFlow

end HandleScript
