import HandleScript.Scope

/-!
# The scope that holds a name

Reading a name, asking for it, rebinding it and setting it each go outwards from a scope
until they meet a binding. They all stop at the same scope, the nearest one that binds the
name.
-/

namespace HandleScript.Scopes

variable {α : Type}

/-- The nearest scope, from `id` outwards, that binds `name`. -/
def holder? (t : Scopes α) (name : String) (id : Nat) : Option Nat :=
  match t.scopes[id]? with
  | none => none
  | some scope =>
    if scope.bindings.contains name then some id
    else
      match scope.parent with
      | none => none
      | some parent => if parent < id then t.holder? name parent else none
termination_by id

/-- A name has the value that its holder binds it to. -/
theorem get?_eq_holder? (t : Scopes α) (id : Nat) (name : String) :
    t.get? id name = (t.holder? name id).bind fun holder =>
      (t.bindings holder).get? name := by
  fun_induction holder? t name id with
  | case1 id hscope => simp [get?, hscope]
  | case2 id scope hscope hbound =>
      obtain ⟨v, hv⟩ := Option.isSome_iff_exists.mp hbound
      simp [get?, bindings, hscope, hv]
  | case3 id scope hscope hbound hparent =>
      have hv := Option.not_isSome_iff_eq_none.mp hbound
      simp [get?, hscope, hv, hparent]
  | case4 id scope hscope hbound parent hparent hlt ih =>
      have hv := Option.not_isSome_iff_eq_none.mp hbound
      rw [get?]
      simpa [hscope, hv, hparent, hlt] using ih
  | case5 id scope hscope hbound parent hparent hlt =>
      have hv := Option.not_isSome_iff_eq_none.mp hbound
      simp [get?, hscope, hv, hparent, hlt]

/-- A name has a value where it has a holder. -/
theorem contains_eq_holder? (t : Scopes α) (id : Nat) (name : String) :
    t.contains id name = (t.holder? name id).isSome := by
  fun_induction holder? t name id with
  | case1 id hscope => simp [contains, hscope]
  | case2 id scope hscope hbound =>
      rw [contains]
      simp [hscope, hbound]
  | case3 id scope hscope hbound hparent => simp [contains, hscope, hbound, hparent]
  | case4 id scope hscope hbound parent hparent hlt ih =>
      rw [contains]
      simpa [hscope, hbound, hparent, hlt] using ih
  | case5 id scope hscope hbound parent hparent hlt =>
      simp [contains, hscope, hbound, hparent, hlt]

/-- A name is rebound in its holder. -/
theorem update_eq_holder? (t : Scopes α) (id : Nat) (name : String) (v : α) :
    t.update id name v =
      (t.holder? name id).elim (.error v, t) fun holder =>
        (.ok (), t.define holder name v) := by
  fun_induction holder? t name id with
  | case1 id hscope => simp [update, hscope]
  | case2 id scope hscope hbound => simp [update, hscope, hbound]
  | case3 id scope hscope hbound hparent => simp [update, hscope, hbound, hparent]
  | case4 id scope hscope hbound parent hparent hlt ih =>
      rw [update]
      simpa [hscope, hbound, hparent, hlt] using ih
  | case5 id scope hscope hbound parent hparent hlt =>
      simp [update, hscope, hbound, hparent, hlt]

/-- A name is set in its holder, or else in the scope itself. -/
theorem set_eq_holder? (t : Scopes α) (id : Nat) (name : String) (v : α) :
    t.set id name v = t.define ((t.holder? name id).getD id) name v := by
  rw [set, update_eq_holder?]
  cases t.holder? name id <;> rfl

end HandleScript.Scopes
