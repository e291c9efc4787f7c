import HandleScript.Proofs.Heap
import HandleScript.Proofs.Requests

/-!
# The tree of scopes

Blocks, loops, calls and sessions open scopes, and closures keep scopes that no code runs
in any more. Whatever has run, all these scopes are one tree under the outermost one: the
links from a scope to the one around it lead there, and the root that a scope has noted is
that one. So a call of a loaded function runs its body in a new scope right inside the
outermost one, however deep the call stands, and a closure runs its body in a new scope
inside the one in which its literal was evaluated.
-/

namespace HandleScript

/-! ## Trees under the outermost scope -/

namespace Scopes

variable {α : Type} {t t' : Scopes α}

/-- The scope around a scope. -/
def parent? (t : Scopes α) (id : Nat) : Option Nat :=
  t.scopes[id]?.bind Scope.parent

/-- The first scope is right inside the second one. -/
def LiesIn (t : Scopes α) (id outer : Nat) : Prop :=
  t.parent? id = some outer

/-- Every scope but the outermost one lies in an earlier scope, and all have noted the
outermost one as their root. -/
structure Rooted (t : Scopes α) : Prop where
  exists_global : globalScope < t.size
  global_outermost : t.parent? globalScope = none
  inner : ∀ id, id < t.size → id ≠ globalScope → ∃ outer, t.LiesIn id outer ∧ outer < id
  roots : ∀ id, id < t.size → t.rootOf id = globalScope

/-- From any scope the links lead to the outermost one. -/
theorem Rooted.leads_to_global (h : t.Rooted) {id : Nat} (hid : id < t.size) :
    Relation.ReflTransGen t.LiesIn id globalScope := by
  induction id using Nat.strongRecOn with
  | ind id ih =>
      by_cases hglobal : id = globalScope
      · rw [hglobal]
      · obtain ⟨outer, hin, hlt⟩ := h.inner id hid hglobal
        have hrest := ih outer hlt (Nat.lt_trans hlt hid)
        exact .head hin hrest

theorem Rooted.rootOf_eq (h : t.Rooted) (id : Nat) : t.rootOf id = globalScope := by
  by_cases hid : id < t.size
  · exact h.roots id hid
  · have hnone : t.scopes[id]? = none := Array.getElem?_eq_none (Nat.le_of_not_lt hid)
    simp only [rootOf, hnone]
    rfl

/-- The second table differs from the first one in bindings only. -/
structure SameLinks (t t' : Scopes α) : Prop where
  size : t'.size = t.size
  parent? : ∀ id, t'.parent? id = t.parent? id
  rootOf : ∀ id, t'.rootOf id = t.rootOf id

theorem SameLinks.refl (t : Scopes α) : t.SameLinks t :=
  ⟨rfl, fun _ => rfl, fun _ => rfl⟩

theorem sameLinks_define (t : Scopes α) (id : Nat) (name : String) (v : α) :
    t.SameLinks (t.define id name v) := by
  refine ⟨?_, ?_, t.rootOf_define id name v⟩
  · simp [size, define]
  · intro other
    simp only [Scopes.parent?, define, Array.getElem?_modify]
    by_cases heq : id = other
    · subst heq
      cases t.scopes[id]? <;> simp
    · simp [heq]

theorem sameLinks_defineAll (t : Scopes α) (id : Nat) (names : List String)
    (values : List α) : t.SameLinks (t.defineAll id names values) := by
  induction names generalizing t values with
  | nil => exact .refl t
  | cons name names ih =>
      cases values with
      | nil => exact .refl t
      | cons v values =>
          have hfirst := t.sameLinks_define id name v
          have hrest := ih (t.define id name v) values
          exact ⟨hrest.size.trans hfirst.size, fun other =>
              (hrest.parent? other).trans (hfirst.parent? other),
            fun other => (hrest.rootOf other).trans (hfirst.rootOf other)⟩

theorem Rooted.of_sameLinks (h : t.Rooted) (hsame : t.SameLinks t') : t'.Rooted := by
  constructor
  · rw [hsame.size]
    exact h.exists_global
  · rw [hsame.parent?]
    exact h.global_outermost
  · intro id hid hinner
    rw [hsame.size] at hid
    obtain ⟨outer, hin, hlt⟩ := h.inner id hid hinner
    exact ⟨outer, (hsame.parent? id).trans hin, hlt⟩
  · intro id hid
    rw [hsame.size] at hid
    rw [hsame.rootOf]
    exact h.roots id hid

theorem size_child (t : Scopes α) (outer : Nat) :
    (t.child outer).2.size = t.size + 1 := by
  simp [size, child]

theorem parent?_child_of_lt (t : Scopes α) (outer : Nat) {id : Nat} (h : id < t.size) :
    (t.child outer).2.parent? id = t.parent? id := by
  have hne : id ≠ t.scopes.size := Nat.ne_of_lt h
  simp [parent?, child, Array.getElem?_push, hne]

/-- A scope that is opened lies in the given one. -/
theorem liesIn_child (t : Scopes α) (outer : Nat) :
    (t.child outer).2.LiesIn t.size outer := by
  simp [LiesIn, parent?, child, size]

theorem rootOf_child_new (t : Scopes α) (outer : Nat) :
    (t.child outer).2.rootOf t.size = t.rootOf outer := by
  simp [rootOf, child, size]

theorem Rooted.child (h : t.Rooted) {outer : Nat} (houter : outer < t.size) :
    (t.child outer).2.Rooted := by
  have hnew : ∀ id, id < (t.child outer).2.size → id < t.size ∨ id = t.size := by
    intro id hid
    rw [size_child] at hid
    omega
  constructor
  · rw [size_child]
    exact Nat.lt_succ_of_lt h.exists_global
  · rw [parent?_child_of_lt t outer h.exists_global]
    exact h.global_outermost
  · intro id hid hinner
    rcases hnew id hid with hold | rfl
    · obtain ⟨outer', hin, hlt⟩ := h.inner id hold hinner
      exact ⟨outer', (parent?_child_of_lt t outer hold).trans hin, hlt⟩
    · exact ⟨outer, t.liesIn_child outer, houter⟩
  · intro id hid
    rcases hnew id hid with hold | rfl
    · rw [rootOf_child t outer hold]
      exact h.roots id hold
    · rw [rootOf_child_new]
      exact h.roots outer houter

end Scopes

/-! ## Code keeps the tree -/

/-- The scopes are a tree under the outermost one, and those of the closures are among
them. -/
structure State.Rooted (s : State) : Prop where
  scopes : s.scopes.Rooted
  closures : ∀ cell, (s.store.closures.get cell).scope < s.scopes.size

theorem State.initial_rooted (console : Console) : (State.initial console).Rooted := by
  have hfirst : (Scopes.initial : Scopes Value).Rooted := by
    constructor
    · exact Nat.zero_lt_one
    · rfl
    · intro id hid hinner
      exact absurd (Nat.lt_one_iff.mp hid) hinner
    · intro id hid
      cases Nat.lt_one_iff.mp hid
      rfl
  have hbound :=
      (hfirst.of_sameLinks
      (Scopes.sameLinks_define _ globalScope dispatcherName .dispatcher)).of_sameLinks
    (Scopes.sameLinks_define _ globalScope factoryName .factory)
  exact ⟨hbound, fun _ => hbound.exists_global⟩

/-- The table is what is left after a call has entered a body: a new scope inside the
given one, with bindings. -/
theorem State.enter_sameLinks (s : State) (outer : Nat) (f : Function)
    (values : List Value) :
    (s.scopes.child outer).2.SameLinks (s.enter outer f values).2.scopes :=
  Scopes.sameLinks_defineAll _ _ _ _

/-- The scopes that arguments name have smaller numbers. -/
def Arguments.ScopesBelow (n : Nat) : Arguments → Prop
  | ready _ => True
  | deferred scope _ => scope < n

namespace Job

/-- The scopes that the job names have smaller numbers. -/
def ScopesBelow (n : Nat) : Job → Prop
  | eval scope _ => scope < n
  | evalAll scope _ => scope < n
  | force args => args.ScopesBelow n
  | dispatch scope _ _ args => scope < n ∧ args.ScopesBelow n
  | operate _ _ _ args => args.ScopesBelow n
  | callNamed _ _ args => args.ScopesBelow n
  | invoke _ _ => True
  | callFunction _ _ outer => outer < n
  | execAll scope _ => scope < n
  | execBody scope _ => scope < n
  | exec scope _ => scope < n
  | execArms scope _ => scope < n
  | execLoop scope _ _ => scope < n
  | condition scope _ => scope < n
  | input scope _ => scope < n

variable {host : Host} {fuel : Nat} {job job' : Job} {s s' t t' : State}

/-- No act closes a scope. -/
theorem Change.size_le (h : Change job s t t') : t.scopes.size ≤ t'.scopes.size := by
  cases h with
  | console | scalar | lambda | operation | leave => exact Nat.le_refl _
  | enter =>
      rw [(t.enter_sameLinks _ _ _).size, Scopes.size_child]
      exact Nat.le_succ _
  | opened =>
      rw [Scopes.size_child]
      exact Nat.le_succ _
  | define id name v => exact Nat.le_of_eq (t.scopes.sameLinks_define id name v).size.symm

/-- An act that opens a scope does so inside one that its job names. -/
theorem Change.rooted (h : Change job s t t') (hbelow : job.ScopesBelow s.scopes.size)
    (ht : t.scopes.Rooted) : t'.scopes.Rooted := by
  cases h with
  | console | scalar | lambda | operation | leave => exact ht
  | enter hjob hs =>
      subst hjob hs
      exact (ht.child hbelow).of_sameLinks (t.enter_sameLinks _ _ _)
  | opened hjob hs =>
      subst hjob hs
      exact ht.child hbelow
  | define id name v => exact ht.of_sameLinks (t.scopes.sameLinks_define id name v)

/-- However long code runs, there are as many scopes as before or more. -/
theorem size_invariant (host : Host) (n : Nat) :
    Invariant host (fun s => n ≤ s.scopes.size) fun _ _ => True where
  acts acts _ hle := Nat.le_trans hle acts.change.size_le
  calls _ _ _ _ := trivial

theorem Calls.size_le (h : Calls host fuel job s job' s') :
    s.scopes.size ≤ s'.scopes.size :=
  (size_invariant host s.scopes.size).holds_of_comesTo trivial (Nat.le_refl _) h.comesTo

theorem Starts.scope_eq {scope : Nat} {stmts : List Stmt}
    (h : Starts host fuel scope stmts s job t) :
    (∃ e, job = .eval scope e) ∨ ∃ stmt, job = .exec scope stmt := by
  induction h with
  | expr => exact .inl ⟨_, rfl⟩
  | stmt => exact .inr ⟨_, rfl⟩
  | afterExpr _ _ ih => exact ih
  | afterStmt _ _ _ ih => exact ih

/-- Jobs name only scopes that exist, and so do the jobs that they call for. -/
theorem Calls.scopesBelow
    (h : Calls host fuel job s job' s') (hbelow : job.ScopesBelow s.scopes.size)
    (hs : s.Rooted) (hs' : s'.Rooted) : job'.ScopesBelow s'.scopes.size := by
  have hle := h.size_le
  cases h with
  | receiver | first | deferred | invokeArgs | operand | operands | builtinArgs
  | functionArgs | statement | arms | loop | init | value | result | block | expr
  | otherwise | armTest | loopTest | tested => exact hbelow
  | named => exact hbelow.2
  | operation => exact hbelow.2
  | invoke => trivial
  | others | statements | armBody | armRest | loopBody | again =>
      exact Nat.lt_of_lt_of_le hbelow hle
  | method =>
      have hscope := Nat.lt_of_lt_of_le hbelow hle
      exact ⟨hscope, hscope⟩
  | function =>
      change s'.scopes.rootOf _ < _
      rw [hs'.scopes.rootOf_eq]
      exact hs'.scopes.exists_global
  | lambda => exact hs.closures _
  | body =>
      change s.scopes.size < _
      rw [(s.enter_sameLinks _ _ _).size, Scopes.size_child]
      exact Nat.lt_succ_self _
  | opened =>
      change s.scopes.size < _
      rw [Scopes.size_child]
      exact Nat.lt_succ_self _
  | started hstarts =>
      have hscope := Nat.lt_of_lt_of_le hbelow hle
      obtain ⟨e, rfl⟩ | ⟨stmt, rfl⟩ := hstarts.scope_eq
      · exact hscope
      · exact hscope

/-- Code keeps all scopes in one tree. -/
theorem rooted_invariant (host : Host) :
    Invariant host State.Rooted fun job s => job.ScopesBelow s.scopes.size where
  calls calls hbelow hs hs' := calls.scopesBelow hbelow hs hs'
  acts {fuel job s t t'} acts hbelow ht := by
    have hchange := acts.change
    refine ⟨hchange.rooted hbelow ht.scopes, ?_⟩
    intro cell
    have hkept : (t.store.closures.get cell).scope < t'.scopes.size :=
      Nat.lt_of_lt_of_le (ht.closures cell) hchange.size_le
    obtain hsame | ⟨scope, f, hjob, hs, hpush⟩ := hchange.closures
    · rw [hsame]
      exact hkept
    · subst hjob hs
      rw [hpush, Pool.get_push]
      split
      · exact Nat.lt_of_lt_of_le hbelow hchange.size_le
      · exact hkept

/-! ## Where closures come from -/

/-- While the job is done from the state `s`, a function literal is evaluated, and its
closure gets this cell. -/
def Encloses (host : Host) (fuel : Nat) (job : Job) (s : State) (cell : Nat)
    (closure : Closure) : Prop :=
  ∃ entered left start, Active host fuel job s entered left
      (.eval closure.scope (.lambda closure.function)) start ∧
    start.store.closures.size = cell

/-- A closure that acts leave was there before, or a literal has been evaluated for it, in
the closure's scope. -/
theorem Trace.closure_cases
    {actors : List Job} (h : Trace host fuel job s t actors t') {cell : Nat}
    {closure : Closure} (hcell : t'.store.closures.cells[cell]? = some closure) :
    t.store.closures.cells[cell]? = some closure ∨
      Encloses host fuel job s cell closure := by
  induction h with
  | nil => exact .inl hcell
  | @cons t u t' actor actors step _ ih =>
      rcases ih hcell with hbefore | hlater
      · obtain ⟨active, acts⟩ := step
        obtain hsame | ⟨scope, f, hactor, hstart, hpush⟩ := acts.change.closures
        · rw [hsame] at hbefore
          exact .inl hbefore
        · rw [hpush, Pool.getElem?_push] at hbefore
          split at hbefore
          next hnew =>
            subst hactor hstart
            cases hbefore
            exact .inr ⟨_, _, _, active, hnew.symm⟩
          · exact .inl hbefore
      · exact .inr hlater

/-! ## Where bodies run -/

/-- A call runs the body of its function in a new scope, right inside the one that the
call is given. -/
theorem Calls.body_liesIn
    {f : Function} {values : List Value} {outer inner : Nat} {body : List Stmt}
    (h : Calls host fuel (.callFunction f values outer) s (.execAll inner body) s') :
    s.scopes.size ≤ inner ∧ s'.scopes.LiesIn inner outer := by
  cases h with
  | body arity admitted =>
      refine ⟨Nat.le_refl _, ?_⟩
      rw [Scopes.LiesIn, (s.enter_sameLinks outer f values).parent?]
      exact s.scopes.liesIn_child outer

/-- Functions are called by name, inside the outermost scope, or as closures, inside the
scope of the closure. -/
theorem Calls.function_cases
    {f : Function} {values : List Value} {outer : Nat}
    (h : Calls host fuel job s (.callFunction f values outer) s') (hs' : s'.Rooted) :
    (∃ scope name args, job = .callNamed scope name args ∧ outer = globalScope) ∨
      ∃ cell, job = .invoke (.lambda cell) values ∧
          (s.store.closures.get cell).function = f ∧
        outer = (s.store.closures.get cell).scope := by
  cases h with
  | function => exact .inl ⟨_, _, _, rfl, hs'.scopes.rootOf_eq _⟩
  | lambda => exact .inr ⟨_, rfl, rfl, rfl⟩
  | started hstarts =>
      obtain ⟨e, heq⟩ | ⟨stmt, heq⟩ := hstarts.scope_eq
      · cases heq
      · cases heq

end Job

/-! ## Whole histories -/

/-- A host makes no closures. -/
theorem Store.closures_alloc_of_isData (store : Store) {content : Content}
    (data : content.IsData) : (store.alloc content).2.closures = store.closures := by
  cases content with
  | number n => cases n <;> rfl
  | lambda closure => cases data
  | bool | text | list | array | iterator => rfl

namespace Interpreter

variable {i i' : Interpreter} {request : Request} {fuel : Nat} {job : Job} {s : State}

/-- In the past a function literal has been evaluated, and its closure got this cell. -/
def Enclosed (past : Past) (cell : Nat) (closure : Closure) : Prop :=
  ∃ i request fuel job s, (i, request) ∈ past ∧ i.SetsOff request fuel job s ∧
    Job.Encloses i.host fuel job s cell closure

theorem SetsOff.rooted (h : i.SetsOff request fuel job s) (hi : i.state.Rooted) :
    s.Rooted := by
  obtain ⟨hstore, hscopes⟩ := h.same
  refine ⟨?_, ?_⟩
  · rw [hscopes]
    exact hi.scopes
  · rw [hstore, hscopes]
    exact hi.closures

theorem SetsOff.scopesBelow (h : i.SetsOff request fuel job s)
    (hscope : i.HasScope request) : job.ScopesBelow s.scopes.size := by
  cases h with
  | run | call => trivial
  | input | statements => exact hscope

theorem Settles.closures_eq {given : Option Value} (h : i.Settles request given s) :
    s.store.closures = i.state.store.closures := by
  cases h with
  | @made content data => exact i.state.store.closures_alloc_of_isData data
  | refused | loaded | defined | opened => rfl

theorem Settles.rooted {given : Option Value} (h : i.Settles request given s)
    (hi : i.state.Rooted) : s.Rooted := by
  have hclosures := h.closures_eq
  cases h with
  | refused => exact hi
  | loaded => exact ⟨hi.scopes, hi.closures⟩
  | made =>
      refine ⟨hi.scopes, ?_⟩
      rw [hclosures]
      exact hi.closures
  | @defined name v =>
      have hsame := i.state.scopes.sameLinks_define globalScope name v
      refine ⟨hi.scopes.of_sameLinks hsame, fun cell => ?_⟩
      exact Nat.lt_of_lt_of_eq (hi.closures cell) hsame.size.symm
  | opened =>
      refine ⟨hi.scopes.child hi.scopes.exists_global, fun cell => ?_⟩
      rw [Scopes.size_child]
      exact Nat.lt_succ_of_lt (hi.closures cell)

theorem answer_rooted
    (hi : i.state.Rooted) (hscope : i.HasScope request)
    (hends : (i.answer request).state? = some i') : i'.state.Rooted := by
  rcases i.setsOff_or_settled request with ⟨fuel, job, s, hsets⟩ |
    ⟨given, s', hsettles, hstate, -⟩
  · obtain ⟨s', hs', rfl⟩ := hsets.ended hends
    exact (Job.rooted_invariant i.host).holds_of_state?
      (hsets.scopesBelow hscope) (hsets.rooted hi) hs'
  · cases hstate.symm.trans hends
    exact hsettles.rooted hi

/-- A closure was there before the request, or a literal has been evaluated for it
since. -/
theorem answer_closure_cases
    (hends : (i.answer request).state? = some i') {cell : Nat} {closure : Closure}
    (hcell : i'.state.store.closures.cells[cell]? = some closure) :
    i.state.store.closures.cells[cell]? = some closure ∨
      ∃ fuel job s, i.SetsOff request fuel job s ∧
        Job.Encloses i.host fuel job s cell closure := by
  rcases i.setsOff_or_settled request with ⟨fuel, job, s, hsets⟩ |
    ⟨given, s', hsettles, hstate, -⟩
  · obtain ⟨s', hs', rfl⟩ := hsets.ended hends
    obtain ⟨actors, htrace⟩ := Job.exists_trace hs'
    rcases htrace.closure_cases hcell with hbefore | hnew
    · rw [hsets.same.1] at hbefore
      exact .inl hbefore
    · exact .inr ⟨fuel, job, s, hsets, hnew⟩
  · cases hstate.symm.trans hends
    rw [hsettles.closures_eq] at hcell
    exact .inl hcell

variable {past : Past}

theorem Served.rooted (h : Served (fun _ i request => i.HasScope request) past i) :
    i.state.Rooted := by
  induction h with
  | fresh settings files listing console => exact State.initial_rooted console
  | next _ permitted hends ih => exact answer_rooted ih permitted hends

/-- All closures come from literals that have been evaluated. -/
theorem Served.enclosed
    {allowed : Past → Interpreter → Request → Prop} (h : Served allowed past i)
    {cell : Nat} {closure : Closure}
    (hcell : i.state.store.closures.cells[cell]? = some closure) :
    Enclosed past cell closure := by
  induction h with
  | fresh settings files listing console =>
      have hnone : (State.initial console).store.closures.cells[cell]? = none := rfl
      exact absurd (hnone.symm.trans hcell) (nomatch ·)
  | @next past i i' request _ _ hends ih =>
      rcases answer_closure_cases hends hcell with hbefore | ⟨fuel, job, s, hsets, hnew⟩
      · obtain ⟨j, request', fuel, job, s, hmem, hsets, hencloses⟩ := ih hbefore
        exact ⟨j, request', fuel, job, s, List.mem_cons_of_mem _ hmem, hsets, hencloses⟩
      · exact ⟨i, request, fuel, job, s, List.mem_cons_self, hsets, hnew⟩

end Interpreter

/-- The links from every scope, those of closures included, lead to the outermost one,
which has no scope around it and which every scope has noted as its root. -/
structure State.ScopeTree (s : State) : Prop where
  outermost : globalScope < s.scopes.size ∧ s.scopes.parent? globalScope = none
  leads : ∀ id, id < s.scopes.size →
    Relation.ReflTransGen s.scopes.LiesIn id globalScope ∧
      s.scopes.rootOf id = globalScope
  captured : ∀ cell, (s.store.closures.get cell).scope < s.scopes.size

theorem State.Rooted.scopeTree {s : State} (h : s.Rooted) : s.ScopeTree where
  outermost := ⟨h.scopes.exists_global, h.scopes.global_outermost⟩
  leads id hid := ⟨h.scopes.leads_to_global hid, h.scopes.roots id hid⟩
  captured := h.closures

/-- Whatever is asked of an interpreter, its scopes are one tree under the outermost one,
between requests and whenever code starts a job. Every call of a function, at any depth,
is a call by name, whose body runs in a new scope right inside the outermost one, or the
call of a closure, whose body runs in a new scope right inside the one in which its
literal was evaluated, in an earlier request or in this one. -/
theorem scopes_hang_from_outermost :
    ∀ past i, Interpreter.Served (fun _ i request => i.HasScope request) past i →
      i.state.ScopeTree ∧
      ∀ request fuel job s, i.HasScope request → i.SetsOff request fuel job s →
        ∀ entered left last t, Job.Active i.host fuel job s entered left last t →
          t.ScopeTree ∧
          ∀ n f values outer t', Job.Calls i.host n last t
              (.callFunction f values outer) t' →
            ((∃ scope name args, last = .callNamed scope name args ∧
                outer = globalScope) ∨
              ∃ cell closure, last = .invoke (.lambda cell) values ∧
                  t.store.closures.get cell = closure ∧
                f = closure.function ∧ outer = closure.scope ∧
                (cell < t.store.closures.size →
                  Interpreter.Enclosed past cell closure ∨
                    Job.Encloses i.host fuel job s cell closure)) ∧
            ∀ m inner body t'', Job.Calls i.host m (.callFunction f values outer) t'
                (.execAll inner body) t'' →
              t'.scopes.size ≤ inner ∧ t''.scopes.LiesIn inner outer := by
  intro past i hserved
  have hi := hserved.rooted
  refine ⟨hi.scopeTree, ?_⟩
  intro request fuel job s hscope hsets entered left last t hactive
  have hinv := Job.rooted_invariant i.host
  obtain ⟨hbelow, ht⟩ := hinv.of_active (hsets.scopesBelow hscope)
    (hsets.rooted hi) hactive
  refine ⟨ht.scopeTree, ?_⟩
  intro n f values outer t' hcalls
  have ht' := hinv.holds_of_comesTo hbelow ht hcalls.comesTo
  refine ⟨?_, fun m inner body t'' hbody => hbody.body_liesIn⟩
  rcases hcalls.function_cases ht' with hnamed | ⟨cell, rfl, rfl, rfl⟩
  · exact .inl hnamed
  · refine .inr ⟨cell, _, rfl, rfl, rfl, rfl, fun hcell => ?_⟩
    obtain ⟨actors, htrace⟩ := hactive.exists_trace
    rcases htrace.closure_cases (Pool.getElem?_eq_get _ hcell) with hbefore | hnew
    · rw [hsets.same.1] at hbefore
      exact .inl (hserved.enclosed hbefore)
    · exact .inr hnew

/-- A session, whose scope is the second one, binds a closure. When the closure is called,
its body runs in a new scope right inside the session's, where the literal was
evaluated. -/
theorem scopes_hang_from_outermost_closure :
    let call : Expr := .call (.name "g" default) ⟨"invoke", default⟩ [] default
    ∃ past i, Interpreter.Served (fun _ i request => i.HasScope request) past i ∧
        i.state.ScopeTree ∧
      ∃ closure, i.state.store.closures.get 0 = closure ∧ closure.scope = 1 ∧
        (Interpreter.Enclosed past 0 closure ∨
          Job.Encloses i.host 10 (.input 1 [.expr call default]) i.state 0 closure) ∧
        ∃ inner body t, Job.Calls i.host 0 (.callFunction closure.function [] 1) i.state
            (.execAll inner body) t ∧
          i.state.scopes.size ≤ inner ∧ t.scopes.LiesIn inner 1 := by
  intro call
  let fresh : Interpreter := .fresh {} .empty .asBound (.ofLines [] none)
  let start := (Session.new fresh).interpreter
  let bind : Request := .input 1 (.eval 40 "var g = fun () \x7b return 1 \x7d")
  let bound := (start.answer bind).state?
  have hends : bound.isSome := by decide +kernel
  have hfound : (bound.getD default).state.scopes.get? 1 "g" = some (.lambda 0) := by
    decide +kernel
  have hcell : 0 < (bound.getD default).state.store.closures.size := by decide +kernel
  have hplace : ((bound.getD default).state.store.closures.get 0).scope = 1 := by
    decide +kernel
  have harity : ((bound.getD default).state.store.closures.get 0).function.params.length =
    0 := by decide +kernel
  have hdepth : (bound.getD default).state.depth + 1 ≤
    (bound.getD default).host.maxDepth := by decide +kernel
  have hsize : 1 < (bound.getD default).state.scopes.size := by decide +kernel
  obtain ⟨i, hi⟩ := Option.isSome_iff_exists.mp hends
  rw [hi, Option.getD_some] at hfound hcell hplace harity hdepth hsize
  have hopens : (fresh.answer .session).state? = some start := rfl
  have hscope : start.HasScope bind := Nat.lt_succ_self 1
  have hopened : Interpreter.Served (fun _ i request => i.HasScope request)
      [(fresh, .session)] start :=
    .next (.fresh {} .empty .asBound (.ofLines [] none)) trivial hopens
  have hserved := hopened.next hscope hi
  obtain ⟨htree, hjobs⟩ := scopes_hang_from_outermost _ i hserved
  have hvalue : eval i.host 8 1 (.name "g" default) i.state =
      .done (.lambda 0) i.state := by
    simp [eval, Run.located, Computation.adjustFailure, Run.lookup, hfound]
  have hactive : Job.Active i.host 10 (.input 1 [.expr call default]) i.state _ 6
      (.invoke (.lambda 0) []) i.state :=
    .inside (.started .expr) <| .inside (.method hvalue) <|
      .inside (.operation nofun nofun rfl rfl) <| .inside (.invoke rfl) .here
  obtain ⟨-, hcalls⟩ := hjobs (.statements 9 1 [.expr call default])
    10 _ _ hsize .statements _ _ _ _ hactive
  obtain ⟨hnamed | ⟨cell, closure, hlast, rfl, -, -, horigin⟩, hbody⟩ :=
    hcalls 0 _ _ _ _ .lambda
  · obtain ⟨_, _, _, hlast, -⟩ := hnamed
    cases hlast
  · cases hlast
    have hruns : Job.Calls i.host 0
        (.callFunction (i.state.store.closures.get 0).function [] 1) i.state _ _ :=
      .body harity hdepth
    rw [hplace] at hbody
    exact ⟨_, i, hserved, htree, _, rfl, hplace, horigin hcell, _, _, _,
      hruns, hbody 0 _ _ _ hruns⟩

end HandleScript
