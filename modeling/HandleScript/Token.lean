import HandleScript.Number.Text
import HandleScript.Source.Span
import HandleScript.Text.Quoted

/-!
# Tokens

The words and marks that a program is written in. A keyword or a mark is known by its
spelling; the other tokens carry an integer, a double, a text or a word. Every token has
two texts: the one used in error messages, and the one used in the token listing.
-/

namespace HandleScript

/-- The reserved words. -/
inductive Keyword where
  | function
  | declare
  | branch
  | otherwise
  | each
  | loop
  | giveBack
  | leave
  | skip
  | yes
  | no
  | nothing
deriving DecidableEq, Repr, Inhabited

namespace Keyword

/-- All reserved words. -/
def all : List Keyword :=
  [function, declare, branch, otherwise, each, loop, giveBack,
    leave, skip, yes, no, nothing]

/-- How a keyword is written. -/
def spelling : Keyword → String
  | function => "fun"
  | declare => "var"
  | branch => "if"
  | otherwise => "else"
  | each => "for"
  | loop => "while"
  | giveBack => "return"
  | leave => "break"
  | skip => "continue"
  | yes => "true"
  | no => "false"
  | nothing => "void"

/-- The keyword that is written as `word`. -/
def ofWord? (word : String) : Option Keyword :=
  all.find? fun k => k.spelling == word

/-- The name of a keyword in the token listing: its spelling with a capital letter. -/
def listing : Keyword → String
  | function => "Fun"
  | declare => "Var"
  | branch => "If"
  | otherwise => "Else"
  | each => "For"
  | loop => "While"
  | giveBack => "Return"
  | leave => "Break"
  | skip => "Continue"
  | yes => "True"
  | no => "False"
  | nothing => "Void"

end Keyword

/-- The punctuation marks. -/
inductive Mark where
  | openParen
  | closeParen
  | openBrace
  | closeBrace
  | dot
  | comma
  | equals
deriving DecidableEq, Repr, Inhabited

namespace Mark

/-- The punctuation mark that a character stands for. -/
def ofChar? : Char → Option Mark
  | '(' => some openParen
  | ')' => some closeParen
  | '{' => some openBrace
  | '}' => some closeBrace
  | '.' => some dot
  | ',' => some comma
  | '=' => some equals
  | _ => none

/-- How a mark is written. -/
def spelling : Mark → String
  | openParen => "("
  | closeParen => ")"
  | openBrace => "\x7b"
  | closeBrace => "\x7d"
  | dot => "."
  | comma => ","
  | equals => "="

/-- The name of a mark in the token listing. -/
def listing : Mark → String
  | openParen => "LParen"
  | closeParen => "RParen"
  | openBrace => "LBrace"
  | closeBrace => "RBrace"
  | dot => "Dot"
  | comma => "Comma"
  | equals => "Eq"

end Mark

/-- A token of a program. -/
inductive Token where
  | keyword (k : Keyword)
  | mark (m : Mark)
  | int (n : Int64)
  | double (x : Float)
  | text (s : String)
  | word (w : String)
deriving Repr, Inhabited

namespace Token

/-- A spelling between the marks that error messages put around code. -/
def inCode (spelling : String) : String :=
  "`" ++ spelling ++ "`"

/-- A token as an error message names it. -/
def describe : Token → String
  | keyword k => inCode k.spelling
  | mark m => inCode m.spelling
  | int n => "integer " ++ inCode (toString n.toInt)
  | double x => "double " ++ inCode (Number.literalText x)
  | text s => "string " ++ Text.quote s
  | word w => inCode w

/-- The sort of a token in the token listing. -/
def sort : Token → String
  | keyword k => k.listing
  | mark m => m.listing
  | int _ => "IntLit"
  | double _ => "DoubleLit"
  | text _ => "StringLit"
  | word _ => "Word"

/-- A token as the token listing shows it. -/
def listing : Token → String
  | keyword k => k.listing
  | mark m => m.listing
  | int n => "IntLit(" ++ toString n.toInt ++ ")"
  | double x => "DoubleLit(" ++ Number.tokenListingText x ++ ")"
  | text s => "StringLit(" ++ Text.quote s ++ ")"
  | word w => "Word(" ++ Text.quote w ++ ")"

end Token

end HandleScript
