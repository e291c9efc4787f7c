/-!
# Lines

A text falls into raw lines, each of which but the last ends with a newline. A console
line is one without all the newlines and carriage returns at its end; a file line is one
without its newline and one carriage return before it.
-/

namespace HandleScript.Text

/-- Cuts a list after each occurrence of `mark`. `piece` holds what has been read since
the last cut, latest first. -/
def cutAfter {α : Type} [DecidableEq α] (mark : α) (piece : List α) :
    List α → List (List α)
  | [] => if piece.isEmpty then [] else [piece.reverse]
  | a :: as =>
    if a = mark then (a :: piece).reverse :: cutAfter mark [] as
    else cutAfter mark (a :: piece) as

/-- The lines of a text with the newlines that end them; a text that ends with a newline
has no further line. -/
def rawLines (cs : List Char) : List (List Char) :=
  cutAfter '\n' [] cs

/-- A raw line as the console gives it. -/
def consoleLine (line : List Char) : List Char :=
  (line.reverse.dropWhile fun c => c = '\n' || c = '\r').reverse

/-- A raw line as a file gives it. -/
def fileLine (line : List Char) : List Char :=
  match line.reverse with
  | '\n' :: '\r' :: rest => rest.reverse
  | '\n' :: rest => rest.reverse
  | _ => line

/-- The lines of a file's text. -/
def fileLines (s : String) : List String :=
  (rawLines s.toList).map fun line => String.ofList (fileLine line)

end HandleScript.Text
