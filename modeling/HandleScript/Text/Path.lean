/-!
# File paths

A path is a text with parts between slashes. Two paths are the same when they have the
same components: repeated and closing slashes do not count, nor does a part `.` except at
the beginning of a relative path.
-/

namespace HandleScript.Text

/-- The parts of a list of characters between the characters `mark`. -/
def partsAt (mark : Char) : List Char → List (List Char)
  | [] => [[]]
  | c :: cs =>
    if c = mark then [] :: partsAt mark cs
    else
      match partsAt mark cs with
      | [] => [[c]]
      | first :: rest => (c :: first) :: rest

/-- The parts of a path between its slashes. -/
def pathParts (path : String) : List String :=
  (partsAt '/' path.toList).map String.ofList

/-- The component that stands for where a path starts, if it says so. -/
def pathStart (path : String) : List String :=
  match path.toList with
  | '/' :: _ => ["/"]
  | ['.'] => ["."]
  | '.' :: '/' :: _ => ["."]
  | _ => []

/-- The components of a path. -/
def pathComponents (path : String) : List String :=
  pathStart path ++ (pathParts path).filter fun part => part ≠ "" && part ≠ "."

/-- Whether two paths have the same components. -/
def samePath (a b : String) : Bool :=
  pathComponents a = pathComponents b

end HandleScript.Text
