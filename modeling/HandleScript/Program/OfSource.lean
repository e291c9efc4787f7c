import HandleScript.Proofs.Parser.Account

/-!
# Programs from source texts

A source text is read as functions, or as statements, until its tokens end. The count of
nested readers is enough for all of its tokens, so that the text spells out a program or
has an error, and nothing else can happen.
-/

namespace HandleScript

namespace Parser

/-- The outcome of reading that does not run out of readers to nest. -/
def settle {α : Type} :
    (outcome : Except Stop α) → outcome ≠ .error .exhausted →
      Except (Located GrammarError) α
  | .ok a, _ => .ok a
  | .error (.refused e), _ => .error e
  | .error .exhausted, h => absurd rfl h

end Parser

/-- Reads the tokens of a source text as a program. -/
def parseProgram (source : String) (tokens : List (Located Token)) :
    Except (Located GrammarError) Program :=
  (Parser.settle (Parser.readAll Parser.function source tokens)
    (Parser.functions_settle source tokens)).map Program.mk

/-- Reads the tokens of a source text as a sequence of statements. -/
def parseStatements (source : String) (tokens : List (Located Token)) :
    Except (Located GrammarError) (List Stmt) :=
  Parser.settle (Parser.readAll Parser.statement source tokens)
    (Parser.statements_settle source tokens)

/-- Lifts an error of one part of the work to a compile error. -/
def liftError {ε α : Type} (wrap : ε → CompileError) (result : Except ε α) :
    Except CompileError α :=
  result.mapError wrap

/-- The program that a source text spells out. -/
def Program.ofSource (source : String) : Except CompileError Program := do
  let tokens ← liftError .lexical (tokenize source)
  liftError .grammatical (parseProgram source tokens)

/-- The statements that a source text spells out. -/
def Stmt.ofSource (source : String) : Except CompileError (List Stmt) := do
  let tokens ← liftError .lexical (tokenize source)
  liftError .grammatical (parseStatements source tokens)

end HandleScript
