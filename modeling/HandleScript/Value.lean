/-!
# Values

Every value is a handle. The handle of a number, a truth value, a text, a container, an
iterator or a function literal names a cell of the store, so that two handles with the
same cell see each other's changes. A file is its path, and the remaining kinds have a
single value.
-/

namespace HandleScript

/-- The kinds of values. -/
inductive Kind where
  | int
  | long
  | double
  | bool
  | text
  | list
  | array
  | iterator
  | file
  | lambda
  | void
  | dispatcher
  | factory
deriving DecidableEq, Repr, Inhabited

/-- How messages name a kind. -/
def Kind.name : Kind → String
  | int => "int"
  | long => "long"
  | double => "double"
  | bool => "bool"
  | text => "string"
  | list => "list"
  | array => "array"
  | iterator => "iterator"
  | file => "file"
  | lambda => "lambda"
  | void => "void"
  | dispatcher => "this"
  | factory => "new"

/-- A handle. The number in it is the cell that it names, in the pool of its kind. -/
inductive Value where
  | int (cell : Nat)
  | long (cell : Nat)
  | double (cell : Nat)
  | bool (cell : Nat)
  | text (cell : Nat)
  | list (cell : Nat)
  | array (cell : Nat)
  | iterator (cell : Nat)
  | file (path : String)
  | lambda (cell : Nat)
  | void
  /-- The receiver of calls that are written without one. -/
  | dispatcher
  /-- The maker of new values. -/
  | factory
deriving DecidableEq, Repr, Inhabited

/-- The kind of a value. -/
def Value.kind : Value → Kind
  | int _ => .int
  | long _ => .long
  | double _ => .double
  | bool _ => .bool
  | text _ => .text
  | list _ => .list
  | array _ => .array
  | iterator _ => .iterator
  | file _ => .file
  | lambda _ => .lambda
  | void => .void
  | dispatcher => .dispatcher
  | factory => .factory

end HandleScript
