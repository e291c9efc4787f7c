/-!
# Splitting texts

A text cut at the occurrences of a separator, taken from the left so that they do not
overlap.
-/

namespace HandleScript.Text

/-- What follows `separator` at the beginning of a list of characters. -/
def afterSeparator? : (separator : List Char) → List Char → Option (List Char)
  | [], cs => some cs
  | _ :: _, [] => none
  | s :: separator, c :: cs => if s = c then afterSeparator? separator cs else none

/-- The parts of a list of characters between the occurrences of a separator. `piece`
holds the characters since the last one, latest first, and `fuel` is at least the number
of characters. -/
def splitFrom (separator : List Char) :
    (fuel : Nat) → (piece : List Char) → List Char → List (List Char)
  | 0, piece, _ => [piece.reverse]
  | fuel + 1, piece, cs =>
    match afterSeparator? separator cs with
    | some rest => piece.reverse :: splitFrom separator fuel [] rest
    | none =>
      match cs with
      | [] => [piece.reverse]
      | c :: cs => splitFrom separator fuel (c :: piece) cs

/-- The parts of a text between the occurrences of a separator; the single characters if
the separator is empty. -/
def split (s separator : String) : List String :=
  if separator.isEmpty then s.toList.map Char.toString
  else (splitFrom separator.toList (s.length + 1) [] s.toList).map String.ofList

end HandleScript.Text
