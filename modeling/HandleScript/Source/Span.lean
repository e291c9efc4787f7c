/-!
# Places in a source text

A `Span` is a byte range together with the line and column of its first byte. Lines and
columns count from one, columns count bytes, and both are 32-bit words. A `LineIndex`
holds the offset at which each line starts and turns byte offsets into positions by
bisection.
-/

namespace HandleScript

/-- A byte range `start .. stop` of a source text and the position of its first byte. -/
structure Span where
  /-- The offset of the first byte. -/
  start : Nat
  /-- The offset just after the last byte. -/
  stop : Nat
  /-- The line of the first byte, counted from one. -/
  line : UInt32
  /-- The column of the first byte, counted from one. -/
  column : UInt32
deriving DecidableEq, Repr, Inhabited

namespace Span

/-- The smallest span that covers both; its position is that of the one that starts first,
and of the left one when they start together. -/
def merge (a b : Span) : Span :=
  let first := if a.start ≤ b.start then a else b
  { start := min a.start b.start
    stop := max a.stop b.stop
    line := first.line
    column := first.column }

/-- The position of a span as it is shown to people, `line:column`. -/
def position (s : Span) : String :=
  toString s.line.toNat ++ ":" ++ toString s.column.toNat

end Span

/-- A value and the place in the source that it came from. -/
structure Located (α : Type) where
  node : α
  span : Span
deriving Repr, Inhabited

/-- The offsets at which the lines of a source text start, in increasing order; the first
is `0`. -/
structure LineIndex where
  starts : Array Nat
deriving Repr

namespace LineIndex

/-- Adds the starts of the lines that begin inside `cs`, whose first character has the
offset `offset`. -/
def addStarts (starts : Array Nat) (offset : Nat) : List Char → Array Nat
  | [] => starts
  | c :: cs =>
    let next := offset + c.utf8Size
    addStarts (if c = '\n' then starts.push next else starts) next cs

/-- The line index of a text: a line starts at the beginning and after each newline. -/
def ofSource (source : String) : LineIndex :=
  ⟨addStarts #[0] 0 source.toList⟩

/-- Where an offset stands in a sorted array. -/
inductive Place where
  /-- It is the entry with this index. -/
  | found (index : Nat)
  /-- It is no entry, and would have to be inserted at this index. -/
  | absent (next : Nat)
deriving DecidableEq, Repr

/-- Searches a sorted array for an offset between the indices `low` and `high`, where the
entries below `low` are smaller than the offset and those from `high` on are larger. -/
def search (starts : Array Nat) (offset low high : Nat) : Place :=
  if low < high then
    let middle := (low + high) / 2
    let entry := starts.getD middle 0
    if entry = offset then .found middle
    else if entry < offset then search starts offset (middle + 1) high
    else search starts offset low middle
  else .absent low
termination_by high - low

/-- The line and column of a byte offset: the line that starts there, or else the line
before the first one that starts after it. -/
def position (index : LineIndex) (offset : Nat) : UInt32 × UInt32 :=
  let line :=
    match search index.starts offset 0 index.starts.size with
    | .found exact => exact
    | .absent next => next - 1
  (UInt32.ofNat line + 1, UInt32.ofNat (offset - index.starts.getD line 0) + 1)

/-- The span of a byte range. -/
def span (index : LineIndex) (start stop : Nat) : Span :=
  let (line, column) := index.position start
  ⟨start, stop, line, column⟩

end LineIndex

end HandleScript
