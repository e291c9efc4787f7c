import HandleScript.Number.Text
import HandleScript.Store
import HandleScript.Text.Quoted

/-!
# The text of a value

What `print` shows. A list or an array shows its elements between brackets; one that is
met again inside itself shows as `[...]`.
-/

namespace HandleScript

/-- The text of a number. -/
def Number.render : Number → String
  | int n => toString n.toInt
  | long n => toString n.toInt
  | double x => Number.displayText x

namespace Store

/-- The text of a value that is not a list or an array. -/
def renderSimple (store : Store) : Value → String
  | .int cell => (Number.int (store.integers.get cell)).render
  | .long cell => (Number.long (store.integers.get cell)).render
  | .double cell => (Number.double (store.doubles.get cell)).render
  | .bool cell => if store.bools.get cell then "true" else "false"
  | .text cell => store.texts.get cell
  | .list _ => ""
  | .array _ => ""
  | .iterator _ => "<iterator>"
  | .file path => "<file " ++ path ++ ">"
  | .lambda cell =>
    "<lambda/" ++ toString (store.closures.get cell).function.params.length ++ ">"
  | .void => "void"
  | .dispatcher => "this"
  | .factory => "new"

/-- The cell of a list or an array. -/
def container? : Value → Option Nat
  | .list cell => some cell
  | .array cell => some cell
  | _ => none

/-- The text of a value inside the containers `opened`, which are fewer than `fuel` short
of all containers. -/
def renderFrom (store : Store) : (fuel : Nat) → (opened : List Nat) → Value → String
  | 0, _, _ => "[...]"
  | fuel + 1, opened, v =>
    match container? v with
    | none => store.renderSimple v
    | some cell =>
      if opened.contains cell then "[...]"
      else
        let parts := (store.elements cell).toList.map fun element =>
          store.renderFrom fuel (cell :: opened) element
        "[" ++ ", ".intercalate parts ++ "]"

/-- The text of a value. -/
def render (store : Store) (v : Value) : String :=
  store.renderFrom (store.items.size + 1) [] v

/-- The texts of values with a blank between them. -/
def renderAll (store : Store) (vs : List Value) : String :=
  " ".intercalate (vs.map store.render)

/-- The kind of a value and its text, as a description for people who debug. -/
def describe (store : Store) (v : Value) : String :=
  match v with
  | .text cell => "string(" ++ Text.quote (store.texts.get cell) ++ ")"
  | .void => v.kind.name
  | .dispatcher => v.kind.name
  | .factory => v.kind.name
  | _ => v.kind.name ++ "(" ++ store.render v ++ ")"

end Store

end HandleScript
