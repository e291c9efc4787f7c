import HandleScript.Program
import HandleScript.Value

/-!
# The store

The store holds what handles name: one pool of cells for each sort of payload. Cells are
only ever added, so a handle stays good. Ints and longs share a pool, and so do lists and
arrays, whose elements an iterator reads through the cell of its container.
-/

namespace HandleScript

/-- Cells that are numbered in the order in which they were added. -/
structure Pool (α : Type) where
  cells : Array α
deriving Repr, Inhabited

namespace Pool

variable {α : Type}

/-- A pool without cells. -/
def empty : Pool α := ⟨#[]⟩

/-- The number of cells, which is also the number of the next one. -/
def size (p : Pool α) : Nat := p.cells.size

/-- Adds a cell. -/
def push (p : Pool α) (a : α) : Pool α := ⟨p.cells.push a⟩

/-- The contents of a cell; a number without a cell reads as the default. -/
def get [Inhabited α] (p : Pool α) (cell : Nat) : α := p.cells.getD cell default

/-- Replaces the contents of a cell. -/
def set (p : Pool α) (cell : Nat) (a : α) : Pool α := ⟨p.cells.setIfInBounds cell a⟩

/-- Changes the contents of a cell. -/
def modify (p : Pool α) (cell : Nat) (f : α → α) : Pool α := ⟨p.cells.modify cell f⟩

end Pool

/-- A place among the elements of a container. -/
structure Cursor where
  /-- The cell of the container. -/
  items : Nat
  /-- The index of the element that comes next. -/
  next : Nat
deriving DecidableEq, Repr, Inhabited

/-- A function literal with the scope in which it was evaluated. -/
structure Closure where
  function : Function
  scope : Nat
deriving Inhabited

/-- The payloads of all handles. -/
structure Store where
  integers : Pool Int64
  doubles : Pool Float
  bools : Pool Bool
  texts : Pool String
  /-- The elements of lists and arrays. -/
  items : Pool (Array Value)
  cursors : Pool Cursor
  closures : Pool Closure
deriving Inhabited

/-- A number of one of the three kinds. -/
inductive Number where
  | int (n : Int64)
  | long (n : Int64)
  | double (x : Float)
deriving Repr

/-- What a new handle names. -/
inductive Content where
  | number (n : Number)
  | bool (b : Bool)
  | text (s : String)
  | list (elements : Array Value)
  | array (elements : Array Value)
  /-- A cursor at the beginning of the container with this cell. -/
  | iterator (items : Nat)
  | lambda (closure : Closure)

namespace Store

/-- The store without cells. -/
def empty : Store := ⟨.empty, .empty, .empty, .empty, .empty, .empty, .empty⟩

/-- Adds a cell with the given contents, and gives its handle. -/
def alloc (store : Store) : Content → Value × Store
  | .number (.int n) =>
    (.int store.integers.size, { store with integers := store.integers.push n })
  | .number (.long n) =>
    (.long store.integers.size, { store with integers := store.integers.push n })
  | .number (.double x) =>
    (.double store.doubles.size, { store with doubles := store.doubles.push x })
  | .bool b => (.bool store.bools.size, { store with bools := store.bools.push b })
  | .text s => (.text store.texts.size, { store with texts := store.texts.push s })
  | .list elements =>
    (.list store.items.size, { store with items := store.items.push elements })
  | .array elements =>
    (.array store.items.size, { store with items := store.items.push elements })
  | .iterator items =>
    (.iterator store.cursors.size,
      { store with cursors := store.cursors.push ⟨items, 0⟩ })
  | .lambda closure =>
    (.lambda store.closures.size, { store with closures := store.closures.push closure })

/-- Adds a text for each of the given ones, in order. -/
def allocTexts (store : Store) : List String → List Value × Store
  | [] => ([], store)
  | s :: rest =>
    let (first, store) := store.alloc (.text s)
    let (others, store) := store.allocTexts rest
    (first :: others, store)

/-- The number that a handle names. -/
def number? (store : Store) : Value → Option Number
  | .int cell => some (.int (store.integers.get cell))
  | .long cell => some (.long (store.integers.get cell))
  | .double cell => some (.double (store.doubles.get cell))
  | _ => none

/-- The integer that a handle of the kind `int` names. -/
def int? (store : Store) : Value → Option Int64
  | .int cell => some (store.integers.get cell)
  | _ => none

/-- The truth value that a handle names. -/
def bool? (store : Store) : Value → Option Bool
  | .bool cell => some (store.bools.get cell)
  | _ => none

/-- The text that a handle names. -/
def text? (store : Store) : Value → Option String
  | .text cell => some (store.texts.get cell)
  | _ => none

/-- The elements of the container with this cell. -/
def elements (store : Store) (cell : Nat) : Array Value :=
  store.items.get cell

/-- Replaces the number, truth value or text that a handle names by another one of its
kind. -/
def write (store : Store) : Value → Content → Store
  | .int cell, .number (.int n) => { store with integers := store.integers.set cell n }
  | .long cell, .number (.long n) => { store with integers := store.integers.set cell n }
  | .double cell, .number (.double x) =>
    { store with doubles := store.doubles.set cell x }
  | .bool cell, .bool b => { store with bools := store.bools.set cell b }
  | .text cell, .text s => { store with texts := store.texts.set cell s }
  | _, _ => store

/-- A handle with a payload of its own and the same contents; containers share their
elements. Handles of the remaining kinds stay as they are. -/
def copyContent? (store : Store) : Value → Option Content
  | .int cell => some (.number (.int (store.integers.get cell)))
  | .long cell => some (.number (.long (store.integers.get cell)))
  | .double cell => some (.number (.double (store.doubles.get cell)))
  | .bool cell => some (.bool (store.bools.get cell))
  | .text cell => some (.text (store.texts.get cell))
  | .list cell => some (.list (store.items.get cell))
  | .array cell => some (.array (store.items.get cell))
  | _ => none

/-- Whether the cursor has an element before it. -/
def hasNext (store : Store) (cursor : Cursor) : Bool :=
  cursor.next < (store.elements cursor.items).size

end Store

end HandleScript
