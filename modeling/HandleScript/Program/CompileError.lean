import HandleScript.Token.Lexer

/-!
# Errors in a source text

The three ways in which a source text fails before anything runs: a piece of it is no
token, its tokens make no program, or it leaves a loop where there is none.
-/

namespace HandleScript

/-- What the grammar asks for at a place. -/
inductive Expected where
  | keyword (k : Keyword)
  | mark (m : Mark)
  | functionName
  | parameterName
  | parameterSeparator
  | variableName
  | loopVariableName
  | inWord
  | methodName
  | expression
  | argumentSeparator
deriving DecidableEq, Repr

/-- How a message names what the grammar asks for. -/
def Expected.describe : Expected → String
  | keyword k => (Token.keyword k).describe
  | mark m => (Token.mark m).describe
  | functionName => "function name"
  | parameterName => "parameter name"
  | parameterSeparator => "`,` or `)` in parameter list"
  | variableName => "variable name"
  | loopVariableName => "loop variable name"
  | inWord => "`in`"
  | methodName => "method name"
  | expression => "expression"
  | argumentSeparator => "`,` or `)` in argument list"

/-- Why tokens do not make a program. -/
inductive GrammarError where
  /-- Another token, or the end of the input, stands where something was expected. -/
  | unexpected (what : Expected) (found : Option Token)
  /-- The input ends inside the body that was opened at a place. -/
  | unterminatedBody (opened : Span)
deriving Repr

/-- The message of a grammatical error. -/
def GrammarError.message : GrammarError → String
  | unexpected what (some found) =>
    "expected " ++ what.describe ++ ", found " ++ found.describe
  | unexpected what none => "expected " ++ what.describe ++ ", found end of input"
  | unterminatedBody opened =>
    "unterminated body: `\x7b` opened at " ++ opened.position ++ " is never closed"

/-- The two statements that only make sense inside a loop. -/
inductive LoopExit where
  | leave
  | skip
deriving DecidableEq, Repr

/-- How the statement is written. -/
def LoopExit.spelling : LoopExit → String
  | leave => Keyword.leave.spelling
  | skip => Keyword.skip.spelling

/-- An error found before anything runs, with its place. -/
inductive CompileError where
  | lexical (e : Located LexError)
  | grammatical (e : Located GrammarError)
  /-- A statement that only makes sense inside a loop stands outside of one. -/
  | controlFlow (e : Located LoopExit)
deriving Repr

namespace CompileError

/-- The place of the error. -/
def span : CompileError → Span
  | lexical e => e.span
  | grammatical e => e.span
  | controlFlow e => e.span

/-- The message without its place. -/
def message : CompileError → String
  | lexical e => e.node.message
  | grammatical e => e.node.message
  | controlFlow e => "`" ++ e.node.spelling ++ "` outside of a loop"

/-- The part of the work that found the error. -/
def title : CompileError → String
  | lexical _ => "Lexer"
  | grammatical _ => "Parser"
  | controlFlow _ => "Control flow"

/-- The whole text of the error. -/
def text (e : CompileError) : String :=
  e.title ++ " error at " ++ e.span.position ++ ": " ++ e.message

end CompileError

end HandleScript
