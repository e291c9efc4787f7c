/-!
# Tables of ranges

A property of characters as a table of the ranges that have it, in increasing order,
searched by bisection.
-/

namespace HandleScript.Text

/-- Ranges of numbers in increasing order, both ends included. -/
abbrev Ranges := Array (Nat × Nat)

namespace Ranges

/-- Whether one of the ranges between the indices `low` and `high` holds `n`. -/
def search (table : Ranges) (n low high : Nat) : Bool :=
  if low < high then
    let middle := (low + high) / 2
    let (first, last) := table.getD middle (0, 0)
    if n < first then search table n low middle
    else if last < n then search table n (middle + 1) high
    else true
  else false
termination_by high - low

/-- Whether one of the ranges holds the number of a character. -/
def holds (table : Ranges) (c : Char) : Bool :=
  table.search c.toNat 0 table.size

end Ranges

end HandleScript.Text
