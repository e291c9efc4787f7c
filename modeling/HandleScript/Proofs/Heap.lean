import HandleScript.Interpreter.State
import HandleScript.Proofs.Store
import Mathlib.Logic.Relation

/-!
# The state as a graph

A state holds scopes and cells by number. Seen as one graph, every place holds an item,
and items refer to further places. What a script can see is what its scope reaches.
-/

namespace HandleScript

/-- The sorts of places in a state. -/
inductive Region where
  | scope
  | integer
  | double
  | bool
  | text
  | items
  | cursor
  | closure
deriving DecidableEq, Repr

/-- A place in a state: a scope, or a cell of one of the pools. -/
structure Loc where
  region : Region
  number : Nat
deriving DecidableEq, Repr

/-- What a place holds. -/
inductive Item where
  | scope (scope : Scope Value)
  | integer (n : Int64)
  | double (x : Float)
  | bool (b : Bool)
  | text (s : String)
  | items (elements : Array Value)
  | cursor (cursor : Cursor)
  | closure (closure : Closure)

/-- The cell that a handle names. -/
def Value.loc? : Value → Option Loc
  | int cell => some ⟨.integer, cell⟩
  | long cell => some ⟨.integer, cell⟩
  | double cell => some ⟨.double, cell⟩
  | bool cell => some ⟨.bool, cell⟩
  | text cell => some ⟨.text, cell⟩
  | list cell => some ⟨.items, cell⟩
  | array cell => some ⟨.items, cell⟩
  | iterator cell => some ⟨.cursor, cell⟩
  | lambda cell => some ⟨.closure, cell⟩
  | file _ => none
  | void => none
  | dispatcher => none
  | factory => none

/-- The item refers to the place: a scope to the one around it and to what its names are
bound to, a container to its elements, a cursor to the elements it goes through, a closure
to the scope it was evaluated in. -/
def Item.RefersTo : Item → Loc → Prop
  | scope sc, loc =>
    (∃ parent, sc.parent = some parent ∧ loc = ⟨.scope, parent⟩) ∨
      ∃ name v, sc.bindings.get? name = some v ∧ v.loc? = some loc
  | items elements, loc => ∃ v ∈ elements.toList, v.loc? = some loc
  | cursor c, loc => loc = ⟨.items, c.items⟩
  | closure c, loc => loc = ⟨.scope, c.scope⟩
  | integer _, _ => False
  | double _, _ => False
  | bool _, _ => False
  | text _, _ => False

/-- The item at a place of the store; scopes are elsewhere. -/
def Store.item? (store : Store) : Loc → Option Item
  | ⟨.scope, _⟩ => none
  | ⟨.integer, n⟩ => store.integers.cells[n]?.map .integer
  | ⟨.double, n⟩ => store.doubles.cells[n]?.map .double
  | ⟨.bool, n⟩ => store.bools.cells[n]?.map .bool
  | ⟨.text, n⟩ => store.texts.cells[n]?.map .text
  | ⟨.items, n⟩ => store.items.cells[n]?.map .items
  | ⟨.cursor, n⟩ => store.cursors.cells[n]?.map .cursor
  | ⟨.closure, n⟩ => store.closures.cells[n]?.map .closure

/-- The item at a place. -/
def State.item? (s : State) (loc : Loc) : Option Item :=
  match loc.region with
  | .scope => s.scopes.scopes[loc.number]?.map .scope
  | _ => s.store.item? loc

namespace State

/-- One place refers to another one. -/
def Points (s : State) (a b : Loc) : Prop :=
  ∃ x, s.item? a = some x ∧ x.RefersTo b

/-- One place leads to another one over any number of references. -/
def Reaches (s : State) : Loc → Loc → Prop :=
  Relation.ReflTransGen s.Points

/-- A handle leads to a place. -/
def ReachesFrom (s : State) (v : Value) (loc : Loc) : Prop :=
  ∃ start, v.loc? = some start ∧ s.Reaches start loc

@[simp] theorem item?_scope (s : State) (n : Nat) :
    s.item? ⟨.scope, n⟩ = s.scopes.scopes[n]?.map .scope := rfl

theorem item?_of_ne_scope (s : State) {loc : Loc} (h : loc.region ≠ .scope) :
    s.item? loc = s.store.item? loc := by
  obtain ⟨region, n⟩ := loc
  cases region with
  | scope => exact absurd rfl h
  | integer | double | bool | text | items | cursor | closure => rfl

end State

/-! ## What changes change -/

namespace Store

/-- The number of cells of a region. -/
def count (store : Store) : Region → Nat
  | .scope => 0
  | .integer => store.integers.size
  | .double => store.doubles.size
  | .bool => store.bools.size
  | .text => store.texts.size
  | .items => store.items.size
  | .cursor => store.cursors.size
  | .closure => store.closures.size

/-- The place of the next cell of a region. -/
def next (store : Store) (region : Region) : Loc :=
  ⟨region, store.count region⟩

theorem item?_next (store : Store) (region : Region) :
    store.item? (store.next region) = none := by
  cases region with
  | scope => rfl
  | integer | double | bool | text | items | cursor | closure =>
      simp [next, count, item?, Pool.size]

end Store

/-- The region in which a new handle gets its cell. -/
def Content.region : Content → Region
  | number (.int _) => .integer
  | number (.long _) => .integer
  | number (.double _) => .double
  | bool _ => .bool
  | text _ => .text
  | list _ => .items
  | array _ => .items
  | iterator _ => .cursor
  | lambda _ => .closure

/-- What the cell of a new handle holds. -/
def Content.item : Content → Item
  | number (.int n) => .integer n
  | number (.long n) => .integer n
  | number (.double x) => .double x
  | bool b => .bool b
  | text s => .text s
  | list elements => .items elements
  | array elements => .items elements
  | iterator items => .cursor ⟨items, 0⟩
  | lambda closure => .closure closure

theorem Content.region_ne_scope (content : Content) : content.region ≠ .scope := by
  cases content with
  | number n => cases n <;> simp [Content.region]
  | bool | text | list | array | iterator | lambda => simp [Content.region]

namespace Store

theorem item?_alloc (store : Store) (content : Content) (loc : Loc) :
    (store.alloc content).2.item? loc =
      if loc = store.next content.region then some content.item else store.item? loc := by
  obtain ⟨region, n⟩ := loc
  cases content with
  | number number =>
      cases number <;> cases region <;>
        simp [alloc, item?, next, count, Content.region, Content.item, Pool.push,
          Pool.size, Array.getElem?_push] <;>
        split <;> simp_all
  | bool | text | list | array | iterator | lambda =>
      cases region <;>
        simp [alloc, item?, next, count, Content.region, Content.item, Pool.push,
          Pool.size, Array.getElem?_push]
      split <;> simp_all

theorem loc?_alloc (store : Store) (content : Content) :
    (store.alloc content).1.loc? = some (store.next content.region) := by
  cases content with
  | number n => cases n <;> rfl
  | bool | text | list | array | iterator | lambda => rfl

end Store

/-- The content is of the kind that a handle of the given kind names. -/
def Content.suits : Content → Kind → Bool
  | number (.int _), .int => true
  | number (.long _), .long => true
  | number (.double _), .double => true
  | bool _, .bool => true
  | text _, .text => true
  | _, _ => false

namespace Store

theorem write_of_not_suits
    (store : Store) {v : Value} {content : Content} (h : content.suits v.kind = false) :
    store.write v content = store := by
  unfold write
  split <;> first | rfl | cases h

/-- The writes that change anything. -/
theorem cases_of_suits {v : Value} {content : Content} (h : content.suits v.kind = true) :
    (∃ cell n, v = .int cell ∧ content = .number (.int n)) ∨
    (∃ cell n, v = .long cell ∧ content = .number (.long n)) ∨
    (∃ cell x, v = .double cell ∧ content = .number (.double x)) ∨
    (∃ cell b, v = .bool cell ∧ content = .bool b) ∨
    (∃ cell s, v = .text cell ∧ content = .text s) := by
  cases content with
  | number n => cases n <;> cases v <;> simp_all [Content.suits, Value.kind]
  | bool b => cases v <;> simp_all [Content.suits, Value.kind]
  | text s => cases v <;> simp_all [Content.suits, Value.kind]
  | list | array | iterator | lambda => simp [Content.suits] at h

theorem item?_write
    (store : Store) {v : Value} {content : Content} {place : Loc}
    (h : content.suits v.kind = true) (hplace : v.loc? = some place)
    (hthere : (store.item? place).isSome) (loc : Loc) :
    (store.write v content).item? loc =
      if loc = place then some content.item else store.item? loc := by
  obtain ⟨region, n⟩ := loc
  rcases cases_of_suits h with
    ⟨cell, x, rfl, rfl⟩ | ⟨cell, x, rfl, rfl⟩ |
        ⟨cell, x, rfl, rfl⟩ | ⟨cell, x, rfl, rfl⟩ |
      ⟨cell, x, rfl, rfl⟩ <;>
    cases hplace <;>
    simp only [item?, Option.isSome_map, isSome_getElem?] at hthere <;>
    cases region <;>
    simp only [write, item?, Content.item, Loc.mk.injEq, reduceCtorEq, false_and,
      true_and, if_false, Pool.getElem?_set _ _ hthere] <;>
    split <;> rfl

theorem item?_modifyItems
    (store : Store) {cell : Nat} (f : Array Value → Array Value)
    (h : cell < store.items.size) (loc : Loc) :
    item? { store with items := store.items.modify cell f } loc =
      if loc = ⟨.items, cell⟩ then some (.items (f (store.elements cell))) else
        store.item? loc := by
  obtain ⟨region, n⟩ := loc
  cases region with
  | items =>
      simp only [item?, Pool.getElem?_modify _ _ h, elements, Loc.mk.injEq, true_and]
      split <;> rfl
  | scope | integer | double | bool | text | cursor | closure => simp [item?]

theorem item?_modifyCursors
    (store : Store) {cell : Nat} (f : Cursor → Cursor)
    (h : cell < store.cursors.size) (loc : Loc) :
    item? { store with cursors := store.cursors.modify cell f } loc =
      if loc = ⟨.cursor, cell⟩ then some (.cursor (f (store.cursors.get cell)))
      else store.item? loc := by
  obtain ⟨region, n⟩ := loc
  cases region with
  | cursor =>
      simp only [item?, Pool.getElem?_modify _ _ h, Loc.mk.injEq, true_and]
      split <;> rfl
  | scope | integer | double | bool | text | items | closure => simp [item?]

end Store

/-! ## Chains of scopes -/

namespace Scopes

variable {α : Type}

/-- Every scope is outermost, or lies inside an earlier one and has the same outermost
scope as that. -/
def Linked (t : Scopes α) : Prop :=
  ∀ id sc, t.scopes[id]? = some sc →
    (sc.parent = none ∧ sc.root = id) ∨
      ∃ parent, sc.parent = some parent ∧ parent < id ∧ sc.root = t.rootOf parent

theorem rootOf_define (t : Scopes α) (id : Nat) (name : String) (v : α) (other : Nat) :
    (t.define id name v).rootOf other = t.rootOf other := by
  simp only [rootOf, define, Array.getElem?_modify]
  by_cases heq : id = other
  · subst heq
    cases t.scopes[id]? <;> simp
  · simp [heq]

theorem bindings_define
    (t : Scopes α) {id : Nat} (name : String) (v : α) (h : id < t.size) (other : Nat) :
    (t.define id name v).bindings other =
      if other = id then (t.bindings id).insert name v else t.bindings other := by
  simp only [bindings, define, Array.getElem?_modify]
  by_cases heq : other = id
  · subst heq
    have hcell : t.scopes[other]? = some t.scopes[other] := Array.getElem?_eq_getElem h
    simp [hcell]
  · simp [heq, Ne.symm heq]

theorem rootOf_child (t : Scopes α) (parent : Nat) {id : Nat} (h : id < t.size) :
    (t.child parent).2.rootOf id = t.rootOf id := by
  have hne : id ≠ t.scopes.size := Nat.ne_of_lt h
  simp [rootOf, child, Array.getElem?_push, hne]

theorem Linked.define
    {t : Scopes α} (h : t.Linked) (id : Nat) (name : String) (v : α) :
    (t.define id name v).Linked := by
  intro other sc hsc
  simp only [rootOf_define]
  simp only [Scopes.define, Array.getElem?_modify] at hsc
  by_cases heq : id = other
  · subst heq
    rw [if_pos rfl] at hsc
    obtain ⟨old, hold, rfl⟩ := Option.map_eq_some_iff.mp hsc
    exact h id old hold
  · rw [if_neg heq] at hsc
    exact h other sc hsc

theorem Linked.child
    {t : Scopes α} (h : t.Linked) {parent : Nat} (hparent : parent < t.size) :
    (t.child parent).2.Linked := by
  intro id sc hsc
  simp only [Scopes.child, Array.getElem?_push] at hsc
  by_cases heq : id = t.scopes.size
  · rw [if_pos heq] at hsc
    cases hsc
    refine Or.inr ⟨parent, rfl, ?_, ?_⟩
    · exact heq ▸ hparent
    · exact (rootOf_child t parent hparent).symm
  · rw [if_neg heq] at hsc
    rcases h id sc hsc with hnone | ⟨p, hp, hlt, hroot⟩
    · exact Or.inl hnone
    · have hid : id < t.size := (Array.getElem?_eq_some_iff.mp hsc).1
      refine Or.inr ⟨p, hp, hlt, ?_⟩
      rw [rootOf_child t parent (Nat.lt_trans hlt hid)]
      exact hroot

end Scopes

/-! ## Steps that write one place -/

/-- The second state differs from the first one only in what one place holds, and its
scopes still form chains. -/
structure State.Writes (s : State) (place : Loc) (x : Item) (s' : State) : Prop where
  item? : ∀ loc, s'.item? loc = if loc = place then some x else s.item? loc
  roots : ∀ id, id < s.scopes.size → s'.scopes.rootOf id = s.scopes.rootOf id
  linked : s.scopes.Linked → s'.scopes.Linked
  functions : s'.functions = s.functions
  console : s'.console = s.console
  depth : s'.depth = s.depth

namespace State

theorem Writes.item?_of_ne
    {s s' : State} {place loc : Loc} {x : Item} (h : s.Writes place x s')
    (hne : loc ≠ place) : s'.item? loc = s.item? loc := by
  rw [h.item?, if_neg hne]

theorem writes_store
    {s : State} {store : Store} {place : Loc} {x : Item} (hregion : place.region ≠ .scope)
    (h : ∀ loc, store.item? loc = if loc = place then some x else s.store.item? loc) :
    s.Writes place x { s with store := store } := by
  refine ⟨fun loc => ?_, fun _ _ => rfl, id, rfl, rfl, rfl⟩
  by_cases hscope : loc.region = .scope
  · have hne : loc ≠ place := fun heq => hregion (heq ▸ hscope)
    rw [if_neg hne]
    simp only [State.item?, hscope]
  · rw [item?_of_ne_scope _ hscope, item?_of_ne_scope _ hscope]
    exact h loc

theorem writes_alloc (s : State) (content : Content) :
    s.Writes (s.store.next content.region) content.item
      { s with store := (s.store.alloc content).2 } :=
  writes_store content.region_ne_scope (s.store.item?_alloc content)

theorem writes_write
    (s : State) {v : Value} {content : Content} {place : Loc}
    (h : content.suits v.kind = true) (hplace : v.loc? = some place)
    (hthere : (s.item? place).isSome) :
    s.Writes place content.item { s with store := s.store.write v content } := by
  have hregion : place.region ≠ .scope := by
    intro hscope
    obtain ⟨region, n⟩ := place
    cases hscope
    cases v <;> cases hplace
  rw [item?_of_ne_scope s hregion] at hthere
  exact writes_store hregion (s.store.item?_write h hplace hthere)

theorem writes_modifyItems
    (s : State) {cell : Nat} (f : Array Value → Array Value)
    (h : cell < s.store.items.size) :
    s.Writes ⟨.items, cell⟩ (.items (f (s.store.elements cell)))
      { s with store := { s.store with items := s.store.items.modify cell f } } :=
  writes_store (fun hscope => nomatch hscope) (s.store.item?_modifyItems f h)

theorem writes_modifyCursors
    (s : State) {cell : Nat} (f : Cursor → Cursor) (h : cell < s.store.cursors.size) :
    s.Writes ⟨.cursor, cell⟩ (.cursor (f (s.store.cursors.get cell)))
      { s with store := { s.store with cursors := s.store.cursors.modify cell f } } :=
  writes_store (fun hscope => nomatch hscope) (s.store.item?_modifyCursors f h)

theorem writes_define
    (s : State) {id : Nat} {sc : Scope Value} (name : String) (v : Value)
    (h : s.scopes.scopes[id]? = some sc) :
    s.Writes ⟨.scope, id⟩ (.scope { sc with bindings := sc.bindings.insert name v })
      { s with scopes := s.scopes.define id name v } := by
  refine ⟨fun loc => ?_, fun other _ => s.scopes.rootOf_define id name v other,
    fun hlinked => hlinked.define id name v, rfl, rfl, rfl⟩
  obtain ⟨region, n⟩ := loc
  cases region with
  | scope =>
      by_cases heq : n = id
      · subst heq
        simp [Scopes.define, Array.getElem?_modify, h]
      · have hne : id ≠ n := fun hc => heq hc.symm
        simp [Scopes.define, Array.getElem?_modify, heq, hne]
  | integer | double | bool | text | items | cursor | closure => simp [State.item?]

theorem writes_child (s : State) {parent : Nat} (h : parent < s.scopes.size) :
    s.Writes ⟨.scope, s.scopes.size⟩
        (.scope ⟨.empty, some parent, s.scopes.rootOf parent⟩)
      { s with scopes := (s.scopes.child parent).2 } := by
  refine ⟨fun loc => ?_, fun other hother => s.scopes.rootOf_child parent hother,
    fun hlinked => hlinked.child h, rfl, rfl, rfl⟩
  obtain ⟨region, n⟩ := loc
  cases region with
  | scope =>
      by_cases heq : n = s.scopes.size
      · subst heq
        simp [Scopes.child, Scopes.size]
      · simp only [Scopes.size] at heq
        simp [Scopes.child, Scopes.size, Array.getElem?_push, heq]
  | integer | double | bool | text | items | cursor | closure => simp [State.item?]

end State

/-! ## Well-formed states -/

/-- Every reference leads somewhere, and the scopes form chains. -/
structure State.WellFormed (s : State) : Prop where
  closed : ∀ a b, s.Points a b → (s.item? b).isSome
  linked : s.scopes.Linked

namespace State

theorem isSome_item?_scope {s : State} {id : Nat} :
    (s.item? ⟨.scope, id⟩).isSome ↔ id < s.scopes.size := by
  simp [Scopes.size]

theorem WellFormed.isSome_of_reaches
    {s : State} (hs : s.WellFormed) {a b : Loc} (ha : (s.item? a).isSome)
    (h : s.Reaches a b) : (s.item? b).isSome := by
  cases h with
  | refl => exact ha
  | tail _ hlast => exact hs.closed _ _ hlast

/-- A scope reaches the outermost scope around it. -/
theorem WellFormed.reaches_rootOf
    {s : State} (hs : s.WellFormed) {id : Nat} (hid : id < s.scopes.size) :
    s.Reaches ⟨.scope, id⟩ ⟨.scope, s.scopes.rootOf id⟩ := by
  -- Parents are earlier scopes, so the induction is on the number of the scope.
  induction id using Nat.strongRecOn with
  | ind id ih =>
      obtain ⟨sc, hsc⟩ : ∃ sc, s.scopes.scopes[id]? = some sc :=
        ⟨_, Array.getElem?_eq_getElem hid⟩
      have hroot : s.scopes.rootOf id = sc.root := by simp [Scopes.rootOf, hsc]
      rw [hroot]
      rcases hs.linked id sc hsc with ⟨-, hself⟩ | ⟨parent, hparent, hlt, hshared⟩
      · rw [hself]
        exact Relation.ReflTransGen.refl
      · rw [hshared]
        have hup : s.Points ⟨.scope, id⟩ ⟨.scope, parent⟩ :=
          ⟨.scope sc, by simp [hsc], Or.inl ⟨parent, hparent, rfl⟩⟩
        exact (ih parent hlt (Nat.lt_trans hlt hid)).head hup

end State

end HandleScript
