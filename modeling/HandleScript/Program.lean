import HandleScript.Bindings
import HandleScript.Source.Span

/-!
# Programs

A program is a sequence of function declarations. Expressions are literals, names,
function literals and method calls; a call without a receiver is a call on the name
`this`. Every node carries the span of the source text it was read from.
-/

namespace HandleScript

/-- A value written down in a program. -/
inductive Literal where
  | int (n : Int64)
  | double (x : Float)
  | bool (b : Bool)
  | text (s : String)
  | void
deriving Repr, Inhabited

mutual

/-- An expression. -/
inductive Expr where
  /-- The call `receiver.method(args)`. -/
  | call (receiver : Expr) (method : Located String) (args : List Expr) (span : Span)
  /-- A variable. -/
  | name (text : String) (span : Span)
  | literal (value : Literal) (span : Span)
  /-- The function literal `fun (params) { body }`. -/
  | lambda (function : Function)

/-- A statement. -/
inductive Stmt where
  /-- `if`, with any number of further tests and an optional last body. -/
  | branch (arms : Arms) (span : Span)
  /-- `while (condition) { body }` -/
  | loop (condition : Expr) (body : List Stmt) (span : Span)
  /-- `var name = init`, which binds in the innermost scope. -/
  | declare (name : Located String) (init : Expr) (span : Span)
  /-- `name = value`, which rebinds the nearest binding and makes a local one when there
  is none. -/
  | assign (name : Located String) (value : Expr) (span : Span)
  /-- `return`, with a value or without. -/
  | giveBack (value : Option Expr) (span : Span)
  /-- `break` -/
  | leave (span : Span)
  /-- `continue` -/
  | skip (span : Span)
  /-- A braced sequence, which has a scope of its own. -/
  | block (body : List Stmt) (span : Span)
  /-- An expression that is evaluated for what it does. -/
  | expr (value : Expr) (span : Span)

/-- The tests of an `if` statement with the bodies they guard. -/
inductive Arms where
  /-- Nothing runs when no test holds. -/
  | done
  /-- The body that runs when no test holds. -/
  | otherwise (body : List Stmt)
  /-- A test, the body that it guards, and the tests that follow. -/
  | test (condition : Expr) (body : List Stmt) (rest : Arms)

/-- A function: a declaration of a program, or a function literal. -/
structure Function where
  name : Located String
  params : List (Located String)
  body : List Stmt
  span : Span

end

instance : Inhabited Expr := ⟨.literal .void default⟩

instance : Inhabited Stmt := ⟨.leave default⟩

instance : Inhabited Function := ⟨⟨default, [], [], default⟩⟩

/-- The source text of an expression. -/
def Expr.span : Expr → Span
  | call _ _ _ span => span
  | name _ span => span
  | literal _ span => span
  | lambda function => function.span

/-- The source text of a statement. -/
def Stmt.span : Stmt → Span
  | branch _ span => span
  | loop _ _ span => span
  | declare _ _ span => span
  | assign _ _ span => span
  | giveBack _ span => span
  | leave span => span
  | skip span => span
  | block _ span => span
  | expr _ span => span

/-- The function's parameters by name. -/
def Function.paramNames (f : Function) : List String :=
  f.params.map Located.node

/-- A program: its function declarations in order. -/
structure Program where
  functions : List Function
deriving Inhabited

/-- Binds the functions to their names, in order, so that the last declaration of a name
counts. -/
def Function.declareAll (table : Bindings Function) (functions : List Function) :
    Bindings Function :=
  functions.foldl (fun table f => table.insert f.name.node f) table

/-- The functions of a program by name; the last declaration of a name counts. -/
def Program.functionMap (p : Program) : Bindings Function :=
  Function.declareAll .empty p.functions

/-- The variable that holds the receiver of calls written without one. -/
def dispatcherName : String := "this"

/-- The variable that holds the factory of new values. -/
def factoryName : String := "new"

/-- The name that stands for a function literal in messages. -/
def lambdaName : String := "<lambda>"

/-- The hidden variable that holds the iterator of the `number`-th `for` loop. The point
keeps it apart from every name that a program can spell. -/
def hiddenName (number : Nat) : String :=
  "for." ++ toString number

end HandleScript
