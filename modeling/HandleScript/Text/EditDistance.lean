/-!
# Edit distance

The least number of single-character insertions, deletions and substitutions that turn one
text into another, computed row by row. After the characters `p` of the first text have
been read, entry `j` of the row is the distance between `p` and the first `j` characters
of the second text. Two rows suffice: the next one is written over the one before the
last.
-/

namespace HandleScript.Text

/-- Two rows: the one that was computed last, and one that is to be written over. -/
structure Rows where
  last : Array Nat
  spare : Array Nat

/-- Writes the entry after entry `j` of a row, for the character `a` of the first text.
The entries up to `j` have been written, and `above` is the row before. -/
def writeEntry (a : Char) (bs : Array Char) (above row : Array Nat) (j : Nat) :
    Array Nat :=
  let kept := above.getD j 0 + if bs[j]? = some a then 0 else 1
  row.setIfInBounds (j + 1) (min (min (above.getD (j + 1) 0 + 1) (row.getD j 0 + 1)) kept)

/-- Writes a row over another one, for the character `a`, which is the `i`-th of the first
text. -/
def writeRow (a : Char) (i : Nat) (bs : Array Char) (above row : Array Nat) : Array Nat :=
  (List.range bs.size).foldl (writeEntry a bs above) (row.setIfInBounds 0 i)

/-- The row for one more character of the first text is written over the spare one, and
the two change places. -/
def Rows.next (bs : Array Char) (rows : Rows) (read : Char × Nat) : Rows :=
  ⟨writeRow read.1 read.2 bs rows.last rows.spare, rows.last⟩

/-- The edit distance between two lists of characters. -/
def charDistance (as bs : List Char) : Nat :=
  if as.isEmpty then bs.length
  else if bs.isEmpty then as.length
  else
    let start : Rows := ⟨Array.range (bs.length + 1), Array.replicate (bs.length + 1) 0⟩
    ((as.zipIdx 1).foldl (Rows.next bs.toArray) start).last.getD bs.length 0

/-- The edit distance between two texts, counted in characters. -/
def distance (a b : String) : Nat :=
  charDistance a.toList b.toList

end HandleScript.Text
