import HandleScript.Text.EditDistance

/-!
# Suggestions for misspelt names

Among a list of candidates, the one closest to a name, provided that it is close enough.
Of equally close candidates the first one in the list is taken.
-/

namespace HandleScript.Text

/-- The better of the best candidate so far, with its distance, and a further
candidate. -/
def closer (name : String) (threshold : Nat) (best : Option (String × Nat))
    (candidate : String) : Option (String × Nat) :=
  let d := distance name candidate
  if d ≤ threshold then
    match best with
    | none => some (candidate, d)
    | some (_, least) => if d < least then some (candidate, d) else best
  else best

/-- The first of the candidates closest to `name`, if it lies within `threshold` edits. -/
def closest (name : String) (candidates : List String) (threshold : Nat) :
    Option String :=
  (candidates.foldl (closer name threshold) none).map Prod.fst

/-- How many edits away a suggestion for `name` may lie: a third of its length, and at
least one. -/
def hintThreshold (name : String) : Nat :=
  max (name.length / 3) 1

/-- The candidate to suggest in place of the unknown name `name`. -/
def suggestion (name : String) (candidates : List String) : Option String :=
  closest name candidates (hintThreshold name)

/-- A suggestion as it is appended to an error message; empty when there is none. -/
def hintText : Option String → String
  | none => ""
  | some candidate => " (hint: did you mean `" ++ candidate ++ "`?)"

end HandleScript.Text
