import HandleScript.Bindings

/-!
# Scopes

A tree of scopes, each with its own bindings. Scopes are numbered in the order in which
they were opened, so the scope around another one has the smaller number. A name means its
binding in the nearest scope that has one.
-/

namespace HandleScript

/-- One scope. -/
structure Scope (α : Type) where
  bindings : Bindings α
  /-- The scope around this one. -/
  parent : Option Nat
  /-- The outermost scope around this one. -/
  root : Nat
deriving Repr, Inhabited

/-- All scopes by number. -/
structure Scopes (α : Type) where
  scopes : Array (Scope α)
deriving Repr, Inhabited

namespace Scopes

variable {α : Type}

/-- One scope without bindings, which has the number `0`. -/
def initial : Scopes α := ⟨#[⟨.empty, none, 0⟩]⟩

/-- The number of scopes. -/
def size (t : Scopes α) : Nat := t.scopes.size

/-- The outermost scope around a scope. -/
def rootOf (t : Scopes α) (id : Nat) : Nat :=
  match t.scopes[id]? with
  | some scope => scope.root
  | none => 0

/-- Opens a scope inside `parent`, and gives its number. -/
def child (t : Scopes α) (parent : Nat) : Nat × Scopes α :=
  (t.size, ⟨t.scopes.push ⟨.empty, some parent, t.rootOf parent⟩⟩)

/-- The bindings of a scope, without those around it. -/
def bindings (t : Scopes α) (id : Nat) : Bindings α :=
  match t.scopes[id]? with
  | some scope => scope.bindings
  | none => .empty

/-- Binds a name in a scope, over any binding around it. -/
def define (t : Scopes α) (id : Nat) (name : String) (value : α) : Scopes α :=
  ⟨t.scopes.modify id fun scope =>
    { scope with bindings := scope.bindings.insert name value }⟩

/-- Binds names to values one after the other, as far as both go. -/
def defineAll (t : Scopes α) (id : Nat) : List String → List α → Scopes α
  | name :: names, value :: values => (t.define id name value).defineAll id names values
  | _, _ => t

/-- The value of a name in a scope. -/
def get? (t : Scopes α) (id : Nat) (name : String) : Option α :=
  match t.scopes[id]? with
  | none => none
  | some scope =>
    match scope.bindings.get? name with
    | some value => some value
    | none =>
      match scope.parent with
      | none => none
      | some parent => if parent < id then t.get? parent name else none
termination_by id

/-- Whether a name has a value in a scope. -/
def contains (t : Scopes α) (id : Nat) (name : String) : Bool :=
  match t.scopes[id]? with
  | none => false
  | some scope =>
    scope.bindings.contains name ||
      match scope.parent with
      | none => false
      | some parent => if parent < id then t.contains parent name else false
termination_by id

/-- Rebinds a name where it is bound nearest. When it is bound nowhere, the value is
handed back. -/
def update (t : Scopes α) (id : Nat) (name : String) (value : α) :
    Except α Unit × Scopes α :=
  match t.scopes[id]? with
  | none => (.error value, t)
  | some scope =>
    if scope.bindings.contains name then (.ok (), t.define id name value)
    else
      match scope.parent with
      | none => (.error value, t)
      | some parent =>
        if parent < id then t.update parent name value else (.error value, t)
termination_by id

/-- Rebinds a name where it is bound nearest, or else binds it in the scope itself. -/
def set (t : Scopes α) (id : Nat) (name : String) (value : α) : Scopes α :=
  match t.update id name value with
  | (.ok (), updated) => updated
  | (.error value, same) => same.define id name value

/-- The names that have a value in a scope, from the inside out; a name that is bound
twice comes twice. -/
def visibleNames (t : Scopes α) (id : Nat) : List String :=
  match t.scopes[id]? with
  | none => []
  | some scope =>
    match scope.parent with
    | none => scope.bindings.names
    | some parent =>
      if parent < id then scope.bindings.names ++ t.visibleNames parent else
        scope.bindings.names
termination_by id

end Scopes

end HandleScript
