import HandleScript.Store
import HandleScript.Text.Path

/-!
# Three equalities

Scripts compare scalars by what their handles name, and everything else by identity.
Handles are the same when they name one payload. Structural equality goes through lists
and arrays element by element; a pair of containers that is already being compared counts
as equal, so that containers which contain themselves are no obstacle.
-/

namespace HandleScript

namespace Store

/-- Equality as scripts see it. -/
def scriptEq (store : Store) : Value → Value → Bool
  | .int a, .int b => store.integers.get a == store.integers.get b
  | .long a, .long b => store.integers.get a == store.integers.get b
  | .double a, .double b => store.doubles.get a == store.doubles.get b
  | .bool a, .bool b => store.bools.get a == store.bools.get b
  | .text a, .text b => store.texts.get a == store.texts.get b
  | .list a, .list b => a == b
  | .array a, .array b => a == b
  | .iterator a, .iterator b => a == b
  | .file a, .file b => Text.samePath a b
  | .lambda a, .lambda b => a == b
  | .void, .void => true
  | .dispatcher, .dispatcher => true
  | .factory, .factory => true
  | _, _ => false

/-- Whether two handles name one payload. -/
def sameHandle (store : Store) : Value → Value → Bool
  | .int a, .int b => a == b
  | .long a, .long b => a == b
  | .double a, .double b => a == b
  | .bool a, .bool b => a == b
  | .text a, .text b => a == b
  | a, b => store.scriptEq a b

/-- The cells of two lists, or of two arrays. -/
def containers? : Value → Value → Option (Nat × Nat)
  | .list a, .list b => some (a, b)
  | .array a, .array b => some (a, b)
  | _, _ => none

/-- Structural equality while the pairs of containers in `opened` are being compared,
which are fewer than `fuel` short of all pairs. -/
def structuralEqFrom (store : Store) :
    (fuel : Nat) → (opened : List (Nat × Nat)) → Value → Value → Bool
  | 0, _, _, _ => true
  | fuel + 1, opened, v, w =>
    match containers? v w with
    | none => store.scriptEq v w
    | some (a, b) =>
      if a == b || opened.contains (a, b) then true
      else
        let left := store.elements a
        let right := store.elements b
        left.size == right.size &&
          (left.toList.zip right.toList).all fun (x, y) =>
            store.structuralEqFrom fuel ((a, b) :: opened) x y

/-- Structural equality. -/
def structuralEq (store : Store) (v w : Value) : Bool :=
  store.structuralEqFrom (store.items.size * store.items.size + 1) [] v w

end Store

end HandleScript
