import HandleScript.Files
import HandleScript.Program.CompileError
import HandleScript.Text.Suggestion
import HandleScript.Value

/-!
# Failures of running scripts

The causes for which a running script stops, their messages, and the place of the
innermost call that failed.
-/

namespace HandleScript

/-- What an operation asks of a value. -/
inductive Wanted where
  | intIndex
  | intSize
  | text
  | boolCondition
deriving DecidableEq, Repr

/-- How a message names what is asked for. -/
def Wanted.describe : Wanted → String
  | intIndex => "int index"
  | intSize => "int size"
  | text => "string"
  | boolCondition => "bool condition"

/-- What could not be converted: a certain text, or any value of a kind. -/
inductive Convertee where
  | text (s : String)
  | kind (k : Kind)
deriving DecidableEq, Repr

/-- How a message names what could not be converted. -/
def Convertee.describe : Convertee → String
  | text s => "string " ++ Text.quote s
  | kind k => k.name

/-- Why the console or a file failed. -/
inductive Trouble where
  /-- The console takes no more output. -/
  | outputClosed
  /-- A line of the console is no text. -/
  | inputNotText
  /-- A file cannot be read. -/
  | file (path : String) (why : ReadFailure)
deriving DecidableEq, Repr

/-- The message of a console or file failure. -/
def Trouble.message : Trouble → String
  | outputClosed => "output closed"
  | inputNotText => ReadFailure.notText.message
  | file path why => path ++ ": " ++ why.message

/-- Why a script stops. -/
inductive Cause where
  | undefinedVariable (name : String) (hint : Option String)
  | undefinedFunction (name : String) (hint : Option String)
  | unknownMethod (receiver : Kind) (method : String) (hint : Option String)
  | unsuitable (wanted : Wanted) (got : Kind)
  /-- An operand differs in kind from the receiver. -/
  | operandMismatch (method : String) (receiver : Kind) (got : Kind)
  | callOnVoid (method : String)
  | arityMismatch (name : String) (expected : Nat) (got : Nat)
  | divisionByZero
  | indexOutOfBounds (index : Int) (length : Nat)
  | invalidConversion (source : Convertee) (target : Kind)
  /-- A loop exit reached the end of a function. -/
  | escaped (exit : LoopExit)
  | stackOverflow (limit : Nat)
  | trouble (why : Trouble)
deriving DecidableEq, Repr

/-- The sorts of causes. -/
inductive FailureSort where
  | undefinedVariable
  | undefinedFunction
  | unknownMethod
  | typeError
  | arityMismatch
  | divisionByZero
  | indexOutOfBounds
  | invalidConversion
  | controlFlow
  | stackOverflow
  | ioError
deriving DecidableEq, Repr

namespace Cause

/-- The sort of a cause. -/
def sort : Cause → FailureSort
  | undefinedVariable .. => .undefinedVariable
  | undefinedFunction .. => .undefinedFunction
  | unknownMethod .. => .unknownMethod
  | unsuitable .. => .typeError
  | operandMismatch .. => .typeError
  | callOnVoid .. => .typeError
  | arityMismatch .. => .arityMismatch
  | divisionByZero => .divisionByZero
  | indexOutOfBounds .. => .indexOutOfBounds
  | invalidConversion .. => .invalidConversion
  | escaped .. => .controlFlow
  | stackOverflow .. => .stackOverflow
  | trouble .. => .ioError

/-- The message of a cause. -/
def message : Cause → String
  | undefinedVariable name hint => "undefined variable: " ++ name ++ Text.hintText hint
  | undefinedFunction name hint => "undefined function: " ++ name ++ Text.hintText hint
  | unknownMethod receiver method hint =>
    receiver.name ++ " has no operation `" ++ method ++ "`" ++ Text.hintText hint
  | unsuitable wanted got =>
    "type error: expected " ++ wanted.describe ++ ", got " ++ got.name
  | operandMismatch method receiver got =>
    "type error: `" ++ method ++ "` on " ++ receiver.name ++ " expects " ++
      receiver.name ++ ", got " ++ got.name
  | callOnVoid method => "type error: cannot call `" ++ method ++ "` on void"
  | arityMismatch name expected got =>
    name ++ " expects " ++ toString expected ++ " argument(s), got " ++ toString got
  | divisionByZero => "division by zero"
  | indexOutOfBounds index length =>
    "index " ++ toString index ++ " out of bounds for length " ++ toString length
  | invalidConversion source target =>
    "cannot convert " ++ source.describe ++ " to " ++ target.name
  | escaped exit => "`" ++ exit.spelling ++ "` escaped the enclosing function"
  | stackOverflow limit =>
    "stack overflow: recursion deeper than " ++ toString limit ++ " calls"
  | trouble why => "IO error: " ++ why.message

end Cause

/-- A cause, and the place of the innermost call that failed when there is one. -/
structure Failure where
  cause : Cause
  span : Option Span
deriving DecidableEq, Repr

namespace Failure

/-- The failure with a place, unless it already has one. -/
def located (f : Failure) (span : Span) : Failure :=
  match f.span with
  | some _ => f
  | none => { f with span := some span }

/-- The whole text of a failure. -/
def text (f : Failure) : String :=
  match f.span with
  | some span => "Runtime error at " ++ span.position ++ ": " ++ f.cause.message
  | none => "Runtime error: " ++ f.cause.message

end Failure

end HandleScript
