/-!
# Named bindings

A finite map from names to values, kept in the order in which the names were first bound.
A name occurs at most once: binding it again replaces its value.

Nothing that a script does depends on that order. Where names of maps are searched for one
that is near to a misspelt name, the order in which they come is left open: a listing
stands for it.
-/

namespace HandleScript

/-- An order in which names are listed: any rearrangement of them. -/
structure Listing where
  arrange : List String → List String
  perm : ∀ names, (arrange names).Perm names

/-- The order in which the names were bound. -/
def Listing.asBound : Listing := ⟨id, fun _ => .refl _⟩

instance : Inhabited Listing := ⟨.asBound⟩

/-- Names with their values. -/
structure Bindings (α : Type) where
  entries : List (String × α)
deriving Repr, Inhabited

namespace Bindings

variable {α : Type}

/-- No bindings. -/
def empty : Bindings α := ⟨[]⟩

/-- The entries with `name` bound to `value`: in place of its old value, or at the end. -/
def insertEntry (name : String) (value : α) : List (String × α) → List (String × α)
  | [] => [(name, value)]
  | (other, old) :: entries =>
    if other = name then (name, value) :: entries else
      (other, old) :: insertEntry name value entries

/-- Binds `name` to `value`. -/
def insert (b : Bindings α) (name : String) (value : α) : Bindings α :=
  ⟨insertEntry name value b.entries⟩

/-- The value bound to `name`. -/
def get? (b : Bindings α) (name : String) : Option α :=
  b.entries.lookup name

/-- Whether `name` is bound. -/
def contains (b : Bindings α) (name : String) : Bool :=
  (b.get? name).isSome

/-- The bound names. -/
def names (b : Bindings α) : List String :=
  b.entries.map Prod.fst

/-- The bound names in the order of their characters. -/
def sortedNames (b : Bindings α) : List String :=
  b.names.mergeSort fun a c => a ≤ c

end Bindings

end HandleScript
