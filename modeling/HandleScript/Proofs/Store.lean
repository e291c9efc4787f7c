import HandleScript.Operation.Effect

/-!
# Cells and bindings

How the contents of a pool and of a set of bindings read after each of the ways to change
them. Later proofs rest on these equations alone.
-/

namespace HandleScript

namespace Pool

variable {α : Type}

theorem getElem?_push (p : Pool α) (a : α) (cell : Nat) :
    (p.push a).cells[cell]? = if cell = p.size then some a else p.cells[cell]? := by
  simp only [Pool.push, Pool.size, Array.getElem?_push]
  congr

theorem getElem?_set (p : Pool α) {cell : Nat} (a : α) (h : cell < p.size) (other : Nat) :
    (p.set cell a).cells[other]? = if other = cell then some a else p.cells[other]? := by
  simp only [Pool.size] at h
  simp only [Pool.set, Array.getElem?_setIfInBounds]
  by_cases heq : cell = other
  · subst heq
    simp [h]
  · simp [heq, Ne.symm heq]

variable [Inhabited α]

theorem getElem?_eq_get (p : Pool α) {cell : Nat} (h : cell < p.size) :
    p.cells[cell]? = some (p.get cell) := by
  simp only [Pool.size] at h
  simp [Pool.get, h]

theorem get_of_map_eq_some
    {β : Type} {p : Pool α} {wrap : α → β} (hwrap : ∀ {x y}, wrap x = wrap y → x = y)
    {cell : Nat} {a : α} (h : p.cells[cell]?.map wrap = some (wrap a)) :
    p.get cell = a := by
  obtain ⟨x, hx, heq⟩ := Option.map_eq_some_iff.mp h
  simp [Pool.get, hx, hwrap heq]

theorem getElem?_modify (p : Pool α) {cell : Nat} (f : α → α) (h : cell < p.size)
    (other : Nat) :
    (p.modify cell f).cells[other]? =
      if other = cell then some (f (p.get cell)) else p.cells[other]? := by
  simp only [Pool.modify, Array.getElem?_modify]
  by_cases heq : cell = other
  · subst heq
    simp [p.getElem?_eq_get h]
  · simp [heq, Ne.symm heq]

theorem get_modify (p : Pool α) {cell : Nat} (f : α → α) (h : cell < p.size) :
    (p.modify cell f).get cell = f (p.get cell) := by
  have hcell := p.getElem?_modify f h cell
  rw [if_pos rfl] at hcell
  rw [get, Array.getD_eq_getD_getElem?, hcell]
  rfl

theorem get_push (p : Pool α) (a : α) (cell : Nat) :
    (p.push a).get cell = if cell = p.size then a else p.get cell := by
  simp only [Pool.get, Array.getD_eq_getD_getElem?, getElem?_push]
  split <;> rfl

end Pool

/-- A number without a cell reads as a container without elements. -/
theorem Store.lt_size_of_mem_elements {store : Store} {cell : Nat} {v : Value}
    (h : v ∈ (store.elements cell).toList) : cell < store.items.size := by
  refine Nat.lt_of_not_le fun hout => ?_
  have hempty : store.elements cell = #[] := by
    simp only [Pool.size] at hout
    simp [elements, Pool.get, hout]
    rfl
  simp [hempty] at h

namespace Store

/-- The handles that the next `n` texts will have. -/
def nextTexts (store : Store) (n : Nat) : List Value :=
  (List.range' store.texts.size n).map .text

/-- The store with further texts. -/
def withTexts (store : Store) (lines : List String) : Store :=
  { store with texts := ⟨store.texts.cells ++ lines.toArray⟩ }

theorem withTexts_nil (store : Store) : store.withTexts [] = store := by
  simp [withTexts]

theorem alloc_text (store : Store) (line : String) :
    store.alloc (.text line) = (.text store.texts.size, store.withTexts [line]) := by
  simp [alloc, withTexts, Pool.push]

theorem withTexts_withTexts (store : Store) (first rest : List String) :
    (store.withTexts first).withTexts rest = store.withTexts (first ++ rest) := by
  simp [withTexts]

theorem nextTexts_succ (store : Store) (line : String) (n : Nat) :
    store.nextTexts (n + 1) = .text store.texts.size ::
      (store.withTexts [line]).nextTexts n := by
  simp [nextTexts, withTexts, List.range'_succ, Pool.size]

theorem map_text?_nextTexts (store : Store) (lines : List String) :
    (store.nextTexts lines.length).map (store.withTexts lines).text? =
      lines.map some := by
  refine List.ext_getElem? fun i => ?_
  by_cases hlt : i < lines.length
  · simp [nextTexts, withTexts, text?, Pool.get, Pool.size, hlt]
  · simp [nextTexts, hlt]

theorem allocTexts_eq (store : Store) (lines : List String) :
    store.allocTexts lines = (store.nextTexts lines.length, store.withTexts lines) := by
  induction lines generalizing store with
  | nil => rw [withTexts_nil]; rfl
  | cons line rest ih =>
      rw [allocTexts, alloc_text]
      simp only [ih, withTexts_withTexts]
      rw [List.length_cons, nextTexts_succ store line, List.singleton_append]

theorem commit_freshTexts (store : Store) (parts : List String) :
    store.commit (.freshTexts parts) =
      (.list store.items.size,
        { store.withTexts parts with
          items := store.items.push (store.nextTexts parts.length).toArray }) := by
  simp only [commit, allocTexts_eq]
  rfl

end Store

namespace Bindings

variable {α : Type}

theorem lookup_insertEntry (entries : List (String × α)) (name : String) (value : α)
    (other : String) :
    (insertEntry name value entries).lookup other =
      if other = name then some value else entries.lookup other := by
  induction entries with
  | nil =>
      by_cases h : other = name
      · simp [insertEntry, h]
      · have hne : (other == name) = false := by simpa using h
        simp [insertEntry, h, List.lookup_cons, hne]
  | cons entry entries ih =>
      obtain ⟨first, old⟩ := entry
      by_cases hfirst : first = name
      · subst hfirst
        by_cases h : other = first
        · simp [insertEntry, h]
        · have hne : (other == first) = false := by simpa using h
          simp [insertEntry, h, List.lookup_cons, hne]
      · simp only [insertEntry, if_neg hfirst]
        by_cases h : other = first
        · subst h
          simp [hfirst]
        · have hne : (other == first) = false := by simpa using h
          simp only [List.lookup_cons, hne, ih]

theorem get?_insert (b : Bindings α) (name : String) (value : α) (other : String) :
    (b.insert name value).get? other = if other = name then
      some value else b.get? other :=
  lookup_insertEntry b.entries name value other

theorem names_insert (b : Bindings α) (name : String) (value : α) :
    (b.insert name value).names = if b.contains name then
      b.names else b.names ++ [name] := by
  obtain ⟨entries⟩ := b
  simp only [insert, names, contains, get?]
  induction entries with
  | nil => rfl
  | cons entry entries ih =>
      obtain ⟨first, old⟩ := entry
      by_cases hfirst : first = name
      · subst hfirst
        simp [insertEntry]
      · have hne : (name == first) = false := by simpa using Ne.symm hfirst
        simp only [insertEntry, if_neg hfirst, List.map_cons, List.lookup_cons, hne]
        cases hbound : (entries.lookup name).isSome <;> simpa [hbound] using ih

end Bindings

/-- What holds of the functions that were declared and of those that are declared next
holds of all of them. -/
theorem Function.forall_declareAll
    {holds : Function → Prop} {table : Bindings Function} {fs : List Function}
    (htable : ∀ name f, table.get? name = some f → holds f) (hfs : ∀ f ∈ fs, holds f) :
    ∀ name f, (Function.declareAll table fs).get? name = some f → holds f := by
  induction fs generalizing table with
  | nil => exact htable
  | cons g gs ih =>
      refine ih ?_ fun f hf => hfs f (List.mem_cons_of_mem g hf)
      intro name f hf
      rw [Bindings.get?_insert] at hf
      split at hf
      · cases hf
        exact hfs g List.mem_cons_self
      · exact htable name f hf

end HandleScript
