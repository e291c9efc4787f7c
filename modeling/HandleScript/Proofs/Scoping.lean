import HandleScript.Proofs.Evolution
import HandleScript.Proofs.Heap

/-!
# Names never leak

Evaluating an expression, or running a body in braces, leaves the names of every scope
that existed before as they were, however it ends. A single statement adds at most one
name, to its own scope: a declaration adds the name that it declares, unless the scope has
it already, and an assignment adds its name when no scope around it binds that name.
-/

namespace HandleScript

namespace Scopes

variable {α : Type} {t t' : Scopes α}

/-- Every scope that exists in the first tree has the same names in the second one. -/
def SameNames (t t' : Scopes α) : Prop :=
  ∀ id < t.size, (t'.bindings id).names = (t.bindings id).names

/-- The second tree has one name more in a scope of the first one, if a name is given, and
no other name more. -/
def NameAdded (t : Scopes α) (scope : Nat) (name? : Option String) (t' : Scopes α) :
    Prop :=
  ∀ id < t.size, (t'.bindings id).names = (t.bindings id).names ++ if id =
    scope then name?.toList else []

theorem Grows.sameNames {free : Nat → Prop} (h : t.Grows free t')
    (hfree : ∀ id, ¬free id) : t.SameNames t' :=
  fun id hid => h.names_eq hid (hfree id)

theorem SameNames.nameAdded (h : t.SameNames t') (scope : Nat) :
    t.NameAdded scope none t' := by
  intro id hid
  simp [h id hid]

/-- The new binding of a name in a scope, if there is one. -/
theorem nameAdded_define (t : Scopes α) (scope : Nat) (name : String) (v : α) :
    t.NameAdded scope (if (t.bindings scope).contains name then none else some name)
      (t.define scope name v) := by
  intro id hid
  by_cases heq : id = scope
  · subst heq
    rw [bindings_define t name v hid, if_pos rfl, Bindings.names_insert, if_pos rfl]
    split <;> simp
  · have hgrows : t.Grows (· = scope) (t.define scope name v) := by
      apply Grows.define
      exact .inl rfl
    rw [hgrows.names_eq hid heq, if_neg heq, List.append_nil]

/-- Scopes that keep what is around them and the names in them keep where a name is bound
nearest. -/
theorem Grows.holder?_eq (h : t.Grows nowhere t') (name : String) {id : Nat}
    (hid : id < t.size) : t'.holder? name id = t.holder? name id := by
  induction id using Nat.strongRecOn with
  | ind id ih =>
      have hsc : t.scopes[id]? = some t.scopes[id] := Array.getElem?_eq_getElem hid
      obtain ⟨sc', hsc', hparent, hnames⟩ := h id _ hsc
      have hbound : sc'.bindings.contains name = t.scopes[id].bindings.contains name :=
        Bindings.contains_eq_of_names_eq (hnames fun hin => hin) name
      rw [holder?, holder?, hsc, hsc']
      dsimp only
      rw [hbound, hparent]
      split
      · rfl
      · split
        · rfl
        next parent _ =>
          split
          next hlt => exact ih parent hlt (Nat.lt_trans hlt hid)
          · rfl

theorem contains_bindings_of_holder?_eq_none
    {name : String} {id : Nat} (hid : id < t.size) (h : t.holder? name id = none) :
    (t.bindings id).contains name = false := by
  have hsc : t.scopes[id]? = some t.scopes[id] := Array.getElem?_eq_getElem hid
  rw [holder?, hsc] at h
  dsimp only at h
  split at h
  · cases h
  next hunbound => simpa [Scopes.bindings, hsc] using hunbound

/-- An assignment binds a new name in its scope when no scope around it binds the name. -/
theorem nameAdded_set (t : Scopes α) (scope : Nat) (name : String) (v : α) :
    t.NameAdded scope (if t.contains scope name then none else some name)
      (t.set scope name v) := by
  rw [Scopes.set_eq_holder?, Scopes.contains_eq_holder?]
  cases hholder : t.holder? name scope with
  | some holder =>
      have hgrows : t.Grows nowhere (t.define holder name v) :=
        .define (.inr (contains_of_holder? hholder)) v
      simpa using (hgrows.sameNames fun _ => id).nameAdded scope
  | none =>
      intro id hid
      have hadded := nameAdded_define t scope name v id hid
      by_cases heq : id = scope
      · subst heq
        simpa [contains_bindings_of_holder?_eq_none hid hholder] using hadded
      · simpa [heq] using hadded

end Scopes

/-- The name that a statement adds to its scope, if it ends well. -/
def Stmt.newName? {α : Type} (t : Scopes α) (scope : Nat) : Stmt → Option String
  | declare name _ _ =>
    if (t.bindings scope).contains name.node then none else some name.node
  | assign name _ _ => if t.contains scope name.node then none else some name.node
  | _ => none

theorem Stmt.newName?_of_not_binds
    {α : Type} {stmt : Stmt} (h : ¬stmt.Binds) (t : Scopes α) (scope : Nat) :
    stmt.newName? t scope = none := by
  cases stmt with
  | declare | assign => exact absurd trivial h
  | branch | loop | giveBack | leave | skip | block | expr => rfl

/-- The name that a statement adds depends on nothing but the names in the scopes around
it. -/
theorem Scopes.Grows.newName?_eq
    {α : Type} {t t' : Scopes α} (h : t.Grows nowhere t') {scope : Nat}
    (hscope : scope < t.size) (stmt : Stmt) :
    stmt.newName? t' scope = stmt.newName? t scope := by
  cases stmt with
  | declare name init span =>
      have hnames := h.names_eq hscope fun hin => hin
      simp only [Stmt.newName?, Bindings.contains_eq_of_names_eq hnames]
  | assign name value span =>
      rw [Stmt.newName?, Stmt.newName?, Scopes.contains_eq_holder?,
        Scopes.contains_eq_holder?, h.holder?_eq _ hscope]
  | branch | loop | giveBack | leave | skip | block | expr => rfl

/-- The name that a statement adds after its value has been evaluated is the one that it
would have added before. -/
theorem Scopes.Grows.nameAdded
    {α : Type} {t t' t'' : Scopes α} {scope : Nat} {stmt : Stmt} (h : t.Grows nowhere t')
    (hadded : t'.NameAdded scope (stmt.newName? t' scope) t'') :
    t.NameAdded scope (stmt.newName? t scope) t'' := by
  intro id hid
  have hnames := hadded id (Nat.lt_of_lt_of_le hid h.size_le)
  rw [hnames, h.names_eq hid fun hin => hin]
  by_cases heq : id = scope
  · subst heq
    rw [h.newName?_eq hid]
  · simp [heq]

section Exec

variable {host : Host} {fuel scope : Nat} {s : State}

/-- Whatever the outcome, no scope that existed has lost or gained a name. -/
theorem sameNames_of_job
    (host : Host) (fuel : Nat) (job : Job) (h : ∀ id, ¬job.free id) (s : State) :
    (job.run host fuel s).Meets (fun _ s' => s.scopes.SameNames s'.scopes)
      (fun _ s' => s.scopes.SameNames s'.scopes) :=
  (job.forward host fuel s).mono (fun _ _ hd => hd.scopes.sameNames h) fun _ _ hf =>
    hf.scopes.sameNames h

/-- A statement that evaluates an expression and then changes the scopes adds a name if
the change does. -/
theorem exec_nameAdded
    {stmt : Stmt} {e : Expr} {bind : Value → State → State}
    (hexec : exec host (fuel + 1) scope stmt =
      (eval host fuel scope e >>= fun v => Computation.update (bind v) >>= fun _ =>
        pure .pass))
    (hbind : ∀ v (s : State), s.scopes.NameAdded scope
      (stmt.newName? s.scopes scope) (bind v s).scopes) :
    (exec host (fuel + 1) scope stmt s).Meets
      (fun _ s' => s.scopes.NameAdded scope (stmt.newName? s.scopes scope) s'.scopes)
      (fun _ s' => s.scopes.SameNames s'.scopes) := by
  have heval := Job.forward host fuel (.eval scope e) s
  change (eval host fuel scope e s).Meets _ _ at heval
  rw [hexec]
  cases hrun : eval host fuel scope e s with
  | crashed t =>
      rw [Computation.bind_of_crashed hrun]
      trivial
  | exhausted =>
      rw [Computation.bind_of_exhausted hrun]
      trivial
  | failed failure s' =>
      rw [hrun] at heval
      rw [Computation.bind_of_failed hrun]
      exact heval.scopes.sameNames fun _ => id
  | done v s' =>
      rw [hrun] at heval
      rw [Computation.bind_of_done hrun]
      exact heval.scopes.nameAdded (hbind v s')

end Exec

/-- However the evaluation of an expression or the run of a body in braces ends, the
scopes that existed bind the same names as before. A statement that runs in a scope adds
no name when it fails; otherwise it adds at most one name, to that scope, and this only if
it is a declaration of a name that the scope does not bind, or an assignment to a name
that no scope around it binds. -/
theorem names_never_leak (host : Host) (fuel scope : Nat) (s : State) :
    (∀ e, (eval host fuel scope e s).Meets
      (fun _ s' => s.scopes.SameNames s'.scopes)
        (fun _ s' => s.scopes.SameNames s'.scopes)) ∧
    (∀ body, (execBody host fuel scope body s).Meets
      (fun _ s' => s.scopes.SameNames s'.scopes)
        (fun _ s' => s.scopes.SameNames s'.scopes)) ∧
    (∀ stmt, (exec host fuel scope stmt s).Meets
      (fun _ s' => s.scopes.NameAdded scope (stmt.newName? s.scopes scope) s'.scopes)
      (fun _ s' => s.scopes.SameNames s'.scopes)) := by
  refine ⟨?_, ?_, ?_⟩
  · intro e
    exact sameNames_of_job host fuel (.eval scope e) (fun _ => id) s
  · intro body
    exact sameNames_of_job host fuel (.execBody scope body) (fun _ => id) s
  · intro stmt
    by_cases hbinds : stmt.Binds
    · cases fuel with
      | zero => trivial
      | succ fuel =>
          cases stmt with
          | declare name init span =>
              exact exec_nameAdded rfl fun v s =>
                Scopes.nameAdded_define s.scopes scope name.node v
          | assign name value span =>
              exact exec_nameAdded rfl fun v s =>
                Scopes.nameAdded_set s.scopes scope name.node v
          | branch | loop | giveBack | leave | skip | block | expr => exact hbinds.elim
    · have hkept : ∀ id, ¬(Job.exec scope stmt).free id := fun _ hin => hbinds hin.2
      rw [Stmt.newName?_of_not_binds hbinds]
      exact (sameNames_of_job host fuel _ hkept s).mono
        (fun _ _ hd => hd.nameAdded scope) fun _ _ hf => hf

end HandleScript
