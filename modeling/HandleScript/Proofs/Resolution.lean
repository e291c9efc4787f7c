import HandleScript.Proofs.Scoping
import HandleScript.Proofs.ScopeTree

/-!
# What a name means

The scopes around a scope are a chain, and a name means its binding in the nearest scope
on the chain that has one. All readings of a scope are readings of its chain. A write goes
to one scope, which may lie far out and be shared by many chains; which of them notice
depends on where else they bind the name.
-/

namespace HandleScript

namespace Scopes

variable {α : Type} {t t' : Scopes α} {name : String} {id : Nat}

/-- A tree of scopes that was made from one scope by opening scopes in it and by binding
names in them. -/
inductive Built : Scopes α → Prop
  | initial : Built initial
  | child {t : Scopes α} {id : Nat} (h : Built t) (hid : id < t.size) :
      Built (t.child id).2
  | define {t : Scopes α} {id : Nat} (h : Built t) (hid : id < t.size)
      (name : String) (v : α) :
      Built (t.define id name v)
  | set {t : Scopes α} {id : Nat} (h : Built t) (hid : id < t.size)
      (name : String) (v : α) :
      Built (t.set id name v)
  | update {t : Scopes α} {id : Nat} (h : Built t) (hid : id < t.size)
      (name : String) (v : α) :
      Built (t.update id name v).2

/-- The scopes from a scope outwards, nearest first. -/
def chain (t : Scopes α) (id : Nat) : List Nat :=
  match t.parent? id with
  | none => [id]
  | some outer => if outer < id then id :: t.chain outer else [id]
termination_by id

/-- The nearest scope on the chain of a scope that binds a name. -/
def nearest? (t : Scopes α) (name : String) (id : Nat) : Option Nat :=
  (t.chain id).find? fun scope => (t.bindings scope).contains name

/-! ## Readings of a scope are readings of its chain -/

theorem Rooted.chain_eq (h : t.Rooted) (hid : id < t.size) :
    t.chain id = id :: ((t.parent? id).map t.chain).getD [] := by
  rw [chain]
  by_cases hglobal : id = globalScope
  · have hparent : t.parent? id = none := hglobal ▸ h.global_outermost
    simp [hparent]
  · obtain ⟨outer, hin, hlt⟩ := h.inner id hid hglobal
    have hparent : t.parent? id = some outer := hin
    simp [hparent, hlt]

/-- A scope that does not exist binds nothing and lies nowhere. -/
theorem chain_of_none (h : t.scopes[id]? = none) : t.chain id = [id] := by
  have hparent : t.parent? id = none := by simp [parent?, h]
  rw [chain, hparent]

theorem chain_of_some {sc : Scope α} (h : t.scopes[id]? = some sc) :
    t.chain id = id :: (sc.parent.elim [] fun outer => if outer < id then
      t.chain outer else []) := by
  have hparent : t.parent? id = sc.parent := by simp [parent?, h]
  rw [chain, hparent]
  cases sc.parent with
  | none => rfl
  | some outer => by_cases hlt : outer < id <;> simp [hlt]

theorem holder?_eq_nearest? (t : Scopes α) (name : String) (id : Nat) :
    t.holder? name id = t.nearest? name id := by
  induction id using Nat.strongRecOn with
  | ind id ih =>
      rw [holder?, nearest?]
      cases hsc : t.scopes[id]? with
      | none =>
          simp [chain_of_none hsc, bindings, hsc, Bindings.contains,
            Bindings.get?, Bindings.empty]
      | some sc =>
          have hhere : t.bindings id = sc.bindings := by simp [bindings, hsc]
          rw [chain_of_some hsc, List.find?_cons, hhere]
          by_cases hbound : sc.bindings.contains name = true
          · simp [hbound]
          · cases hparent : sc.parent with
            | none => simp [hbound, hparent]
            | some outer =>
                by_cases hlt : outer < id
                · simpa [hbound, hparent, hlt, nearest?] using ih outer hlt
                · simp [hbound, hparent, hlt]

theorem findSome?_eq_bind_find? {β γ : Type} (f : β → Option γ) (xs : List β) :
    xs.findSome? f = (xs.find? fun x => (f x).isSome).bind f := by
  induction xs with
  | nil => rfl
  | cons x xs ih =>
      cases hx : f x with
      | none => simpa [List.findSome?_cons, List.find?_cons, hx] using ih
      | some y => simp [hx]

theorem get?_eq_findSome? (t : Scopes α) (id : Nat) (name : String) :
    t.get? id name = (t.chain id).findSome? fun scope =>
      (t.bindings scope).get? name := by
  rw [get?_eq_holder?, holder?_eq_nearest?, nearest?, findSome?_eq_bind_find?]
  rfl

theorem visibleNames_eq_flatMap (t : Scopes α) (id : Nat) :
    t.visibleNames id = (t.chain id).flatMap fun scope => (t.bindings scope).names := by
  induction id using Nat.strongRecOn with
  | ind id ih =>
      rw [visibleNames]
      cases hsc : t.scopes[id]? with
      | none => simp [chain_of_none hsc, bindings, hsc, Bindings.names, Bindings.empty]
      | some sc =>
          have hhere : t.bindings id = sc.bindings := by simp [bindings, hsc]
          rw [chain_of_some hsc, List.flatMap_cons, hhere]
          cases hparent : sc.parent with
          | none => simp [hparent]
          | some outer =>
              by_cases hlt : outer < id
              · simpa [hparent, hlt] using ih outer hlt
              · simp [hparent, hlt]

/-- A name has a value exactly when some scope on the chain binds it. -/
theorem isSome_get?_iff (t : Scopes α) (id : Nat) (name : String) :
    (t.get? id name).isSome ↔ (t.nearest? name id).isSome := by
  rw [get?_eq_findSome?, nearest?, List.isSome_findSome?, List.isSome_find?]
  rfl

theorem contains_iff (t : Scopes α) (id : Nat) (name : String) :
    t.contains id name ↔ (t.nearest? name id).isSome := by
  rw [contains_eq_holder?, holder?_eq_nearest?]

theorem mem_visibleNames_iff (t : Scopes α) (id : Nat) (name : String) :
    name ∈ t.visibleNames id ↔ (t.nearest? name id).isSome := by
  rw [nearest?, visibleNames_eq_flatMap, List.isSome_find?,
    List.any_eq_true, List.mem_flatMap]
  simp only [Bindings.contains_iff_mem_names]

/-! ## Writes -/

/-- The second tree is the first one with a name bound in one scope, and nothing else
changed. -/
structure BindsOnly (t : Scopes α) (scope : Nat) (name : String) (v : α) (t' : Scopes α) :
    Prop where
  links : t.SameLinks t'
  binding : ∀ id other, (t'.bindings id).get? other =
    if id = scope ∧ other = name then some v else (t.bindings id).get? other

theorem bindsOnly_define (hid : id < t.size) (name : String) (v : α) :
    t.BindsOnly id name v (t.define id name v) := by
  refine ⟨t.sameLinks_define id name v, fun scope other => ?_⟩
  rw [bindings_define t name v hid]
  by_cases hscope : scope = id
  · subst hscope
    simp [Bindings.get?_insert]
  · simp [hscope]

theorem lt_size_of_contains (h : (t.bindings id).contains name = true) : id < t.size := by
  rcases Nat.lt_or_ge id t.size with hlt | hge
  · exact hlt
  · have hnone : t.scopes[id]? = none := Array.getElem?_eq_none hge
    simp [bindings, hnone, Bindings.contains, Bindings.get?, Bindings.empty] at h

theorem lt_size_of_nearest? {holder : Nat} (h : t.nearest? name id = some holder) :
    holder < t.size := by
  have hbound := List.find?_some h
  exact lt_size_of_contains hbound

theorem update_of_nearest? {holder : Nat} (h : t.nearest? name id = some holder) (v : α) :
    t.update id name v = (.ok (), t.define holder name v) := by
  rw [update_eq_holder?, holder?_eq_nearest?, h]
  rfl

theorem update_of_unbound (h : t.nearest? name id = none) (v : α) :
    t.update id name v = (.error v, t) := by
  rw [update_eq_holder?, holder?_eq_nearest?, h]
  rfl

theorem set_eq_define (t : Scopes α) (id : Nat) (name : String) (v : α) :
    t.set id name v = t.define ((t.nearest? name id).getD id) name v := by
  rw [set_eq_holder?, holder?_eq_nearest?]

theorem SameLinks.chain_eq (h : t.SameLinks t') (id : Nat) :
    t'.chain id = t.chain id := by
  induction id using Nat.strongRecOn with
  | ind id ih =>
      rw [chain, chain, h.parent?]
      cases t.parent? id with
      | none => rfl
      | some outer =>
          by_cases hlt : outer < id
          · simp only [if_pos hlt, ih outer hlt]
          · simp only [if_neg hlt]

/-- A search along a list notices that a function has changed at one place exactly when it
stops there. -/
theorem findSome?_of_changed {f g : Nat → Option α} {place : Nat} {v : α}
    (hg : ∀ x, g x = if x = place then some v else f x) (xs : List Nat) :
    xs.findSome? g =
      if xs.find? (fun x => (g x).isSome) = some place then
        some v else xs.findSome? f := by
  induction xs with
  | nil => simp
  | cons x xs ih =>
      by_cases hx : x = place
      · have hnew : g place = some v := by rw [hg, if_pos rfl]
        simp [hx, hnew]
      · have hsame : g x = f x := by rw [hg, if_neg hx]
        cases hfx : f x with
        | none => simpa [List.findSome?_cons, List.find?_cons, hsame, hfx] using ih
        | some y => simp [hsame, hfx, hx]

/-- After a write, a scope sees the new value under the name if it resolves the name to
the scope that was written, and what it saw before otherwise. -/
theorem BindsOnly.get?_eq {scope : Nat} {v : α} (h : t.BindsOnly scope name v t')
    (id : Nat) (other : String) :
    t'.get? id other = if other = name ∧ t'.nearest? name id = some scope then
      some v else t.get? id other := by
  rw [get?_eq_findSome?, get?_eq_findSome?, h.links.chain_eq]
  by_cases hother : other = name
  · subst hother
    have hchanged : ∀ x, (t'.bindings x).get? other = if x = scope then some v else
        (t.bindings x).get? other := by
      intro x
      rw [h.binding]
      simp
    rw [findSome?_of_changed hchanged, nearest?, h.links.chain_eq]
    simp [Bindings.contains]
  · have hsame : ∀ x, (t'.bindings x).get? other = (t.bindings x).get? other := by
      intro x
      rw [h.binding]
      simp [hother]
    simp [hsame, hother]

/-! ## Trees that are built -/

theorem initial_rooted : (initial : Scopes α).Rooted := by
  constructor
  · exact Nat.zero_lt_one
  · rfl
  · intro id hid hinner
    exact absurd (Nat.lt_one_iff.mp hid) hinner
  · intro id hid
    rw [Nat.lt_one_iff.mp hid]
    rfl

theorem Rooted.define (h : t.Rooted) (id : Nat) (name : String) (v : α) :
    (t.define id name v).Rooted :=
  h.of_sameLinks (t.sameLinks_define id name v)

theorem Built.rooted (h : t.Built) : t.Rooted := by
  induction h with
  | initial => exact initial_rooted
  | child h hid ih => exact ih.child hid
  | define h hid name v ih => exact ih.define _ name v
  | set h hid name v ih =>
      rw [set_eq_define]
      exact ih.define _ name v
  | @update t id h hid name v ih =>
      cases hnearest : t.nearest? name id with
      | none =>
          rw [update_of_unbound hnearest]
          exact ih
      | some holder =>
          rw [update_of_nearest? hnearest]
          exact ih.define holder name v

/-- In every tree of scopes, a name means its binding in the nearest scope on the chain
that has one, and it has a value exactly when it is contained, visible and can be updated.
An update of an unbound name hands the value back and changes nothing; every other write
binds the name in the nearest scope that binds it, or in the scope itself when none does,
and nothing else. So after a write the scopes that resolve the name to the scope written
see the new value, and all other readings stay as they were. -/
theorem scopes_resolve_along_chains (t : Scopes α) (h : t.Built) :
    (∀ id, id < t.size → t.chain id = id :: ((t.parent? id).map t.chain).getD []) ∧
    ∀ id, id < t.size → ∀ name,
      t.get? id name = (t.chain id).findSome?
        (fun scope => (t.bindings scope).get? name) ∧
      ((t.get? id name).isSome ↔ t.contains id name) ∧
      ((t.get? id name).isSome ↔ name ∈ t.visibleNames id) ∧
      ∀ v,
        ((t.get? id name).isSome ↔ (t.update id name v).1 = .ok ()) ∧
        (t.nearest? name id = none →
          t.update id name v = (.error v, t) ∧ t.BindsOnly id name v (t.set id name v)) ∧
        (∀ holder, t.nearest? name id = some holder →
          t.update id name v = (.ok (), t.set id name v) ∧
            t.BindsOnly holder name v (t.set id name v)) ∧
        ∀ other name', (t.set id name v).get? other name' =
          if name' = name ∧ (t.set id name v).nearest? name other =
            some ((t.nearest? name id).getD id) then some v
          else t.get? other name' := by
  refine ⟨fun id hid => h.rooted.chain_eq hid, fun id hid name => ?_⟩
  refine ⟨t.get?_eq_findSome? id name, ?_, ?_, fun v => ?_⟩
  · rw [isSome_get?_iff, contains_iff]
  · rw [isSome_get?_iff, mem_visibleNames_iff]
  rw [isSome_get?_iff, set_eq_define]
  cases hnearest : t.nearest? name id with
  | none =>
      have hbinds := bindsOnly_define hid name v
      refine ⟨by simp [update_of_unbound hnearest], fun _ => ?_, nofun, hbinds.get?_eq⟩
      exact ⟨update_of_unbound hnearest v, hbinds⟩
  | some holder =>
      have hbinds := bindsOnly_define (lt_size_of_nearest? hnearest) name v
      refine ⟨by simp [update_of_nearest? hnearest], nofun, ?_, hbinds.get?_eq⟩
      rintro _ ⟨⟩
      exact ⟨update_of_nearest? hnearest v, hbinds⟩

/-- The outermost scope binds a name, a scope in it binds the name again, and each has a
scope inside it without bindings. -/
def shadowing : Scopes Nat :=
  (((((initial.define 0 "x" 1).child 0).2.define 1 "x" 10).child 1).2.child 0).2

theorem built_shadowing : shadowing.Built :=
  .child (.child (.define (.child (.define .initial (by decide) "x" 1) (by decide))
      (by decide) "x" 10) (by decide))
    (by decide)

theorem scopes_resolve_along_chains_shadowing :
    shadowing.Built ∧ shadowing.nearest? "x" 2 = some 1 ∧
      shadowing.BindsOnly 1 "x" 99 (shadowing.set 2 "x" 99) ∧
        (shadowing.set 2 "x" 99).get? 2 "x" = some 99 ∧
      (shadowing.set 2 "x" 99).get? 3 "x" = some 1 ∧
        shadowing.update 2 "y" 5 = (.error 5, shadowing) := by
  have hall := (scopes_resolve_along_chains shadowing built_shadowing).2 2 (by decide)
  obtain ⟨-, -, -, hx⟩ := hall "x"
  obtain ⟨-, -, hbound, hafter⟩ := hx 99
  obtain ⟨-, -, -, hy⟩ := hall "y"
  have hnearest : shadowing.nearest? "x" 2 = some 1 := by decide +kernel
  refine ⟨built_shadowing, hnearest, (hbound 1 hnearest).2, ?_, ?_,
    ((hy 5).2.1 (by decide +kernel)).1⟩
  · have hwritten : (shadowing.set 2 "x" 99).nearest? "x" 2 = some 1 := by decide +kernel
    rw [hafter 2 "x", hnearest, hwritten]
    rfl
  · have hother : (shadowing.set 2 "x" 99).nearest? "x" 3 = some 0 := by decide +kernel
    have hold : shadowing.get? 3 "x" = some 1 := by decide +kernel
    rw [hafter 3 "x", hnearest, hother, hold]
    rfl

end Scopes

end HandleScript
