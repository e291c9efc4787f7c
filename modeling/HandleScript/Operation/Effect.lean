import HandleScript.Store

/-!
# Effects

What an operation that succeeds does: it gives back a handle that exists already, or a new
one, or it changes the payload of its receiver. An operation first reads the store and
decides on its effect, and only then is the effect carried out. So an operation that fails
changes nothing, by the shape of its definition: it has no way to store anything before it
has decided. Memory is taken to be unlimited, but a single block of it is not: more slots
than a block can hold cannot be had.
-/

namespace HandleScript

/-- The effect of an operation. -/
inductive Effect where
  /-- Gives back a handle. -/
  | give (v : Value)
  /-- Gives back a new handle. -/
  | fresh (content : Content)
  /-- Gives back a new list of new texts. -/
  | freshTexts (parts : List String)
  /-- Gives back a new array of so many empty slots. -/
  | freshArray (slots : Nat)
  /-- Replaces the receiver's number, truth value or text, and gives the receiver back. -/
  | write (receiver : Value) (content : Content)
  /-- Replaces an element of a container, and gives the receiver back. -/
  | setItem (receiver : Value) (cell index : Nat) (element : Value)
  /-- Adds an element at the end of a container, and gives the receiver back. -/
  | addItem (receiver : Value) (cell : Nat) (element : Value)
  /-- Takes an element out of a container, and gives it back. -/
  | removeItem (cell index : Nat) (element : Value)
  /-- Moves a cursor past an element, and gives the element back. -/
  | advance (cell : Nat) (element : Value)

/-- The number of bytes that a slot of a container takes. -/
def slotBytes : Nat := 16

/-- The number of bytes of the largest block of memory. -/
def largestBlock : Nat := Nat.pow 2 63 - 1

/-- Whether a block of memory can hold what the effect makes. -/
def Effect.fits : Effect → Bool
  | freshArray slots => slots * slotBytes ≤ largestBlock
  | _ => true

namespace Store

/-- Carries out an effect. -/
def commit (store : Store) : Effect → Value × Store
  | .give v => (v, store)
  | .fresh content => store.alloc content
  | .freshTexts parts =>
    let (texts, store) := store.allocTexts parts
    store.alloc (.list texts.toArray)
  | .freshArray slots => store.alloc (.array (Array.replicate slots .void))
  | .write receiver content => (receiver, store.write receiver content)
  | .setItem receiver cell index element =>
    (receiver,
      { store with
        items := store.items.modify cell fun elements =>
          elements.setIfInBounds index element })
  | .addItem receiver cell element =>
    (receiver,
      { store with
        items := store.items.modify cell fun elements => elements.push element })
  | .removeItem cell index element =>
    (element,
      { store with
        items := store.items.modify cell fun elements =>
          elements.eraseIdxIfInBounds index })
  | .advance cell element =>
    (element,
      { store with
        cursors := store.cursors.modify cell fun cursor =>
          { cursor with next := cursor.next + 1 } })

end Store

end HandleScript
