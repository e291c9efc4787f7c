import HandleScript.Proofs.Effects
import HandleScript.Proofs.Fuel

/-!
# Code runs alike in states that are alike

Run in corresponding scopes of two states that are alike, one piece of code has outcomes
that are alike. The proof goes along the evaluator: what each function does with so many
steps granted follows from what all of them do with one step less. Everything that scripts
can neither see nor change is derived from this one statement.
-/

namespace HandleScript

/-! ## Steps on scopes -/

section Scopes

variable {ρ : Renaming} {s t : State} {a b : Nat}

/-- New scopes inside corresponding ones correspond, with any choice of clear names among
those that are clear around them. -/
theorem Related.openScopeWith
    (h : Related ρ s t) (hab : ρ.rel .scope a b) {clear : String → Prop}
    (hinside : ∀ name, clear name → ρ.clear a b name)
    (hplain : ∀ name, ¬ρ.hidden name → clear name) :
    Ends ρ s t (fun ρ' c d => ρ'.rel .scope c d ∧ ∀ name, ρ'.clear c d name ↔ clear name)
      (Run.openScope a s) (Run.openScope b t) := by
  have ha : s.item? ⟨.scope, s.scopes.size⟩ = none := by simp [Scopes.size]
  have hb : t.item? ⟨.scope, t.scopes.size⟩ = none := by simp [Scopes.size]
  have hs := s.writes_child (State.isSome_item?_scope.mp (h.isSome_left hab))
  have ht := t.writes_child (State.isSome_item?_scope.mp (h.isSome_right hab))
  have hgrows := h.within_add ha t.scopes.size clear fun _ => False
  have hnew : ∀ name,
      (ρ.add .scope s.scopes.size t.scopes.size clear fun _ => False).clear
      s.scopes.size t.scopes.size name ↔ clear name := by
    intro name
    simp [Renaming.add]
  obtain ⟨hroot, hrootClear⟩ := h.rootOf_rel hab
  refine .done (h.extends_add clear (fun _ => False) ha hb hs ht ?_)
    (h.add ha hb hs ht (.scope ?_) ?_) ?_
  · intro hitems
    cases hitems
  · constructor
    · refine .some ⟨hgrows.rel hab, fun name hname => ?_⟩
      exact (hgrows.clear hab name).mpr (hinside name ((hnew name).mp hname))
    · exact hgrows.rel hroot
    · exact fun name => (hgrows.clear hroot name).mpr (hrootClear name)
    · rfl
    · exact fun _ _ => .none
  · exact fun _ => hplain
  · exact ⟨Or.inr ⟨rfl, rfl, rfl⟩, hnew⟩

theorem Related.openScope (h : Related ρ s t) (hab : ρ.rel .scope a b) :
    Ends ρ s t
      (fun ρ' c d => ρ'.rel .scope c d ∧ ∀ name, ρ.clear a b name → ρ'.clear c d name)
      (Run.openScope a s) (Run.openScope b t) := by
  cases h.openScopeWith hab (fun _ hname => hname) (h.plain hab) with
  | done hgrown hrelated hinner =>
      exact .done hgrown hrelated ⟨hinner.1, fun name => (hinner.2 name).mpr⟩

theorem suggestable_insert_eq
    {sc sd : Scope Value} (hscopes : ρ.OnScopes a b sc sd) {name : String}
    (hclear : ρ.clear a b name) (v w : Value) :
    Run.suggestable (sc.bindings.insert name v).names =
      Run.suggestable (sd.bindings.insert name w).names := by
  have hold := hscopes.names
  simp only [Run.suggestable] at hold ⊢
  rw [Bindings.names_insert, Bindings.names_insert,
    Related.contains_binding_eq hscopes hclear]
  split
  · exact hold
  · rw [List.filter_append, List.filter_append, hold]

theorem Related.define
    {v w : Value} (h : Related ρ s t) (hab : ρ.rel .scope a b) (name : String)
    (hclear : ρ.clear a b name) (hvw : ρ.OnValues v w) :
    Ends ρ s t (fun _ _ _ => True) (Run.define a name v s) (Run.define b name w t) := by
  obtain ⟨sc, sd, hsc, hsd, hscopes⟩ := h.scope hab
  have hs := s.writes_define name v hsc
  have ht := t.writes_define name w hsd
  refine .done (.of_writes h hab hs ht (fun _ other hother => ?_) fun hitems =>
      nomatch hitems)
    (h.update hab hs ht (.scope ?_)) trivial
  · have hne : other ≠ name := fun heq => hother (heq ▸ hclear)
    have hb := State.isSome_item?_scope.mp (h.isSome_right hab)
    rw [Scopes.bindings_define _ _ _ hb, if_pos rfl, Bindings.get?_insert, if_neg hne]
  · constructor
    · exact hscopes.parent
    · exact hscopes.root
    · exact hscopes.rootClear
    · exact suggestable_insert_eq hscopes hclear v w
    · intro other hother
      rw [Bindings.get?_insert, Bindings.get?_insert]
      split
      · exact .some hvw
      · exact hscopes.values other hother

theorem Related.assign
    {v w : Value} (h : Related ρ s t) (hab : ρ.rel .scope a b) {name : String}
    (hclear : ρ.clear a b name) (hvw : ρ.OnValues v w) :
    Ends ρ s t (fun _ _ _ => True) (Run.assign a name v s) (Run.assign b name w t) := by
  have hholder := h.holder?_rel hab hclear
  simp only [Run.assign, Computation.update, Scopes.set_eq_holder?]
  generalize s.scopes.holder? name a = o, t.scopes.holder? name b = o' at hholder
  cases hholder with
  | none => exact h.define hab name hclear hvw
  | some hcd => exact h.define hcd.1 name hcd.2 hvw

theorem Related.lookup
    (h : Related ρ s t) (hab : ρ.rel .scope a b) (listing : Listing) {name : String}
    (hclear : ρ.clear a b name) :
    Ends ρ s t Renaming.OnValues (Run.lookup listing a name s)
      (Run.lookup listing b name t) := by
  have hvalue := h.get?_rel hab hclear
  simp only [Run.lookup, h.suggestable_eq hab]
  generalize s.scopes.get? a name = o, t.scopes.get? b name = o' at hvalue
  cases hvalue with
  | none => exact .fail h _
  | some hvw => exact .pure h hvw

end Scopes

/-! ## Steps that leave store and scopes -/

section Rest

variable {ρ : Renaming} {s t s' t' : State}

theorem State.item?_eq
    (hstore : s'.store = s.store) (hscopes : s'.scopes = s.scopes) (loc : Loc) :
    s'.item? loc = s.item? loc := by
  rw [State.item?, State.item?, hstore, hscopes]

theorem State.Frame.of_eq
    (inside : Loc → Prop) (hstore : s'.store = s.store) (hscopes : s'.scopes = s.scopes) :
    s.Frame inside s' := by
  refine ⟨fun loc _ _ => State.item?_eq hstore hscopes loc,
    fun loc hloc => ?_, fun id _ => ?_⟩
  · rw [State.item?_eq hstore hscopes]
    exact hloc
  · rw [hscopes]

theorem Related.of_eq
    (h : Related ρ s t) (hstore : s'.store = s.store) (hscopes : s'.scopes = s.scopes)
    (hstore' : t'.store = t.store) (hscopes' : t'.scopes = t.scopes)
    (hfunctions : s'.functions = t'.functions) (hconsole : s'.console = t'.console)
    (hdepth : s'.depth = t'.depth) : Extends ρ s t ρ s' t' ∧ Related ρ s' t' := by
  constructor
  · refine ⟨.refl ρ, Or.inl, .of_eq _ hstore hscopes,
      .of_eq _ hstore' hscopes', ?_, ?_, ?_, Or.inl⟩
    · intro loc hnone hsome
      rw [State.item?_eq hstore hscopes, hnone] at hsome
      cases hsome
    · intro a b _ name _
      rw [hscopes']
    · intro a b _ _
      rw [hstore]
  · refine ⟨h.leftUnique, h.rightUnique, fun hab => ?_, h.plain, ?_, ?_,
      hfunctions, hconsole, hdepth⟩
    · rw [State.item?_eq hstore hscopes, State.item?_eq hstore' hscopes']
      exact h.item hab
    · rw [hscopes]
      exact h.leftLinked
    · rw [hscopes']
      exact h.rightLinked

theorem Related.withDepth (h : Related ρ s t) (change : Nat → Nat) :
    Extends ρ s t ρ { s with depth := change s.depth }
        { t with depth := change t.depth } ∧
      Related ρ { s with depth := change s.depth } { t with depth := change t.depth } :=
  h.of_eq rfl rfl rfl rfl h.functions h.console (congrArg change h.depth)

theorem Related.withConsole (h : Related ρ s t) (console : Console) :
    Extends ρ s t ρ { s with console := console } { t with console := console } ∧
      Related ρ { s with console := console } { t with console := console } :=
  h.of_eq rfl rfl rfl rfl h.functions rfl h.depth

theorem Related.writeText (h : Related ρ s t) (text : String) :
    Ends ρ s t Renaming.OnValues (Run.write text s) (Run.write text t) := by
  unfold Run.write
  rw [h.console]
  split
  · obtain ⟨hgrown, hrelated⟩ := h.withConsole (t.console.append text)
    exact .done hgrown hrelated .void
  · exact .fail h _

theorem Related.readLine (h : Related ρ s t) :
    Ends ρ s t Renaming.OnValues (Run.readLine s) (Run.readLine t) := by
  unfold Run.readLine
  rw [h.console]
  obtain ⟨answer, console⟩ := t.console.readLine
  obtain ⟨hgrown, hrelated⟩ := h.withConsole console
  rcases answer with cause | _ | line
  · exact .failed _ hgrown hrelated
  · exact .done hgrown hrelated .void
  · exact (hrelated.alloc (.text line)).later hgrown

theorem Related.callBuiltin
    {vs ws : List Value} (h : Related ρ s t) (hvws : List.Forall₂ ρ.OnValues vs ws)
    (builtin : Builtin) :
    Ends ρ s t Renaming.OnValues (builtin.call vs s) (builtin.call ws t) := by
  cases builtin with
  | println =>
      simp only [Builtin.call, h.renderAll_eq hvws]
      exact h.writeText _
  | print =>
      simp only [Builtin.call, h.renderAll_eq hvws]
      exact h.writeText _
  | readln =>
      cases hvws with
      | nil => exact h.readLine
      | cons hfirst hrest =>
          simp only [Builtin.call, List.length_cons, hrest.length_eq]
          exact .fail h _
  | int =>
      rcases hvws with _ | ⟨hxy, _ | ⟨hxy', hrest⟩⟩
      · exact .fail h _
      · simp only [Builtin.call]
        exact h.carryOut (FactoryOp.int.plan_alike "int" h (.cons hxy .nil))
      · simp only [Builtin.call, List.length_cons, hrest.length_eq]
        exact .fail h _

theorem Related.make (h : Related ρ s t) (value : Literal) :
    Ends ρ s t Renaming.OnValues (value.make s) (value.make t) := by
  cases value with
  | int n => exact h.alloc (.number (.int n))
  | double x => exact h.alloc (.number (.double x))
  | bool b => exact h.alloc (.bool b)
  | text s => exact h.alloc (.text s)
  | void => exact .pure h .void

end Rest

/-! ## Running code -/

namespace Renaming

variable (ρ : Renaming)

/-- The same way to end, with corresponding values. -/
inductive OnFlows : Flow → Flow → Prop
  | pass : OnFlows .pass .pass
  | giveBack {v w : Value} (h : ρ.OnValues v w) : OnFlows (.giveBack v) (.giveBack w)
  | leave : OnFlows .leave .leave
  | skip : OnFlows .skip .skip

/-- Names that are clear in two corresponding scopes. -/
structure Sees (a b : Nat) (names : List String) : Prop where
  scope : ρ.rel .scope a b
  clear : ∀ name ∈ names, ρ.clear a b name

/-- Corresponding values, or the same expressions in scopes that see the names in them. -/
inductive OnArguments : Arguments → Arguments → Prop
  | deferred {a b : Nat} {exprs : List Expr} (h : ρ.Sees a b (Expr.usedAll exprs)) :
      OnArguments (.deferred a exprs) (.deferred b exprs)
  | ready {vs ws : List Value} (h : List.Forall₂ ρ.OnValues vs ws) :
      OnArguments (.ready vs) (.ready ws)

/-- Scopes inside corresponding outermost scopes. -/
structure OnRoots (s t : State) (a b : Nat) : Prop where
  left : a < s.scopes.size
  right : b < t.scopes.size
  root : ρ.rel .scope (s.scopes.rootOf a) (t.scopes.rootOf b)
  clear : ∀ name, ρ.clear (s.scopes.rootOf a) (t.scopes.rootOf b) name

variable {ρ} {ρ' : Renaming} {s t s' t' : State} {a b : Nat} {names names' : List String}

theorem Sees.mono (h : ρ.Sees a b names) (hρ : ρ.Within ρ') : ρ'.Sees a b names :=
  ⟨hρ.rel h.scope, fun name hname => (hρ.clear h.scope name).mpr (h.clear name hname)⟩

theorem Sees.left (h : ρ.Sees a b (names ++ names')) : ρ.Sees a b names :=
  ⟨h.scope, fun name hname => h.clear name (List.mem_append_left names' hname)⟩

theorem Sees.right (h : ρ.Sees a b (names ++ names')) : ρ.Sees a b names' :=
  ⟨h.scope, fun name hname => h.clear name (List.mem_append_right names hname)⟩

theorem Sees.head {name : String} (h : ρ.Sees a b (name :: names)) : ρ.clear a b name :=
  h.clear name List.mem_cons_self

theorem Sees.tail {name : String} (h : ρ.Sees a b (name :: names)) : ρ.Sees a b names :=
  ⟨h.scope, fun other hother => h.clear other (List.mem_cons_of_mem name hother)⟩

theorem OnArguments.mono
    {args args' : Arguments} (h : ρ.OnArguments args args') (hρ : ρ.Within ρ') :
    ρ'.OnArguments args args' := by
  cases h with
  | deferred hsees => exact .deferred (hsees.mono hρ)
  | ready hvws => exact .ready (forall₂_mono hvws hρ)

theorem OnArguments.count_eq {args args' : Arguments} (h : ρ.OnArguments args args') :
    args.count = args'.count := by
  cases h with
  | deferred => rfl
  | ready hvws => exact hvws.length_eq

theorem Sees.onRoots (hsees : ρ.Sees a b names) (h : Related ρ s t) :
    ρ.OnRoots s t a b := by
  obtain ⟨hroot, hclear⟩ := h.rootOf_rel hsees.scope
  exact ⟨State.isSome_item?_scope.mp (h.isSome_left hsees.scope),
    State.isSome_item?_scope.mp (h.isSome_right hsees.scope), hroot, hclear⟩

theorem OnRoots.mono
    (h : ρ.OnRoots s t a b) (hgrown : Extends ρ s t ρ' s' t') : ρ'.OnRoots s' t' a b := by
  have hleft := hgrown.left.kept ⟨.scope, a⟩ (State.isSome_item?_scope.mpr h.left)
  have hright := hgrown.right.kept ⟨.scope, b⟩ (State.isSome_item?_scope.mpr h.right)
  refine ⟨State.isSome_item?_scope.mp hleft, State.isSome_item?_scope.mp hright, ?_,
    fun name => ?_⟩
  · rw [hgrown.left.roots a h.left, hgrown.right.roots b h.right]
    exact hgrown.grows.rel h.root
  · rw [hgrown.left.roots a h.left, hgrown.right.roots b h.right]
    exact (hgrown.grows.clear h.root name).mpr (h.clear name)

end Renaming

/-! ## Entering and leaving a call -/

section Calls

variable {ρ : Renaming} {s t : State} {a b : Nat}

theorem Related.defineAll
    {vs ws : List Value} {names : List String} (h : Related ρ s t)
    (hsees : ρ.Sees a b names) (hvws : List.Forall₂ ρ.OnValues vs ws) :
    Ends ρ s t (fun _ _ _ => True)
      (.done () { s with scopes := s.scopes.defineAll a names vs })
      (.done () { t with scopes := t.scopes.defineAll b names ws }) := by
  induction names generalizing ρ s t vs ws with
  | nil => exact .pure h trivial
  | cons name names ih =>
      cases hvws with
      | nil => exact .pure h trivial
      | cons hvw hvws =>
          cases h.define hsees.scope name hsees.head hvw with
          | done hgrown hrelated _ =>
              have hsees' := hsees.tail.mono hgrown.grows
              exact (ih hrelated hsees' (Renaming.forall₂_mono hvws hgrown.grows)).later
                hgrown

theorem Related.enter
    {f : Function} {vs ws : List Value} (h : Related ρ s t) (hsees : ρ.Sees a b f.used)
    (hvws : List.Forall₂ ρ.OnValues vs ws) :
    Ends ρ s t (fun ρ' c d => ρ'.Sees c d f.used)
      (.done (s.enter a f vs).1 (s.enter a f vs).2)
        (.done (t.enter b f ws).1 (t.enter b f ws).2) := by
  cases h.openScope hsees.scope with
  | done hopened hrelated hinner =>
      have hvws' := Renaming.forall₂_mono hvws hopened.grows
      have hsees' : Renaming.Sees _ s.scopes.size t.scopes.size f.used :=
        ⟨hinner.1, fun name hname => hinner.2 name (hsees.clear name hname)⟩
      cases hrelated.defineAll hsees'.left hvws' with
      | done hbound hrelated' _ =>
          obtain ⟨hdeeper, hrelated''⟩ := hrelated'.withDepth (· + 1)
          exact .done ((hopened.trans hbound).trans hdeeper) hrelated''
            (hsees'.mono hbound.grows)

theorem Ends.return
    {o o' : Outcome State Failure Flow} (h : Ends ρ s t Renaming.OnFlows o o') :
    Ends ρ s t Renaming.OnValues (State.return o) (State.return o') := by
  cases h with
  | exhausted => exact .exhausted
  | crashed hgrown hrelated => exact .crashed hgrown hrelated
  | failed failure hgrown hrelated =>
      obtain ⟨hmore, hrelated'⟩ := hrelated.withDepth (· - 1)
      exact .failed failure (hgrown.trans hmore) hrelated'
  | done hgrown hrelated hflow =>
      obtain ⟨hmore, hrelated'⟩ := hrelated.withDepth (· - 1)
      cases hflow with
      | pass => exact .done (hgrown.trans hmore) hrelated' .void
      | giveBack hvw => exact .done (hgrown.trans hmore) hrelated' hvw
      | leave => exact .failed _ (hgrown.trans hmore) hrelated'
      | skip => exact .failed _ (hgrown.trans hmore) hrelated'

end Calls

/-! ## The evaluator -/

/-- With so many steps granted, code runs alike in states that are alike. -/
structure Simulates (host : Host) (fuel : Nat) : Prop where
  eval : ∀ {ρ s t a b e}, Related ρ s t → ρ.Sees a b e.used →
    Ends ρ s t Renaming.OnValues (eval host fuel a e s) (eval host fuel b e t)
  evalAll : ∀ {ρ s t a b es}, Related ρ s t → ρ.Sees a b (Expr.usedAll es) →
    Ends ρ s t (fun ρ' => List.Forall₂ ρ'.OnValues) (evalAll host fuel a es s)
      (evalAll host fuel b es t)
  force : ∀ {ρ s t args args'}, Related ρ s t → ρ.OnArguments args args' →
    Ends ρ s t (fun ρ' => List.Forall₂ ρ'.OnValues) (force host fuel args s)
      (force host fuel args' t)
  dispatch : ∀ {ρ s t a b v w method args args'}, Related ρ s t →
      ρ.OnRoots s t a b → ρ.OnValues v w →
    ρ.OnArguments args args' →
    Ends ρ s t Renaming.OnValues (dispatch host fuel a v method args s)
      (dispatch host fuel b w method args' t)
  operate : ∀ {ρ s t op v w method args args'}, Related ρ s t → ρ.OnValues v w →
    (op.grows = true → v.kind = .list) → ρ.OnArguments args args' →
    Ends ρ s t Renaming.OnValues (operate host fuel op v method args s)
      (operate host fuel op w method args' t)
  callNamed : ∀ {ρ s t a b name args args'}, Related ρ s t → ρ.OnRoots s t a b →
    ρ.OnArguments args args' →
    Ends ρ s t Renaming.OnValues (callNamed host fuel a name args s)
      (callNamed host fuel b name args' t)
  invoke : ∀ {ρ s t v w vs ws}, Related ρ s t → ρ.OnValues v w →
      List.Forall₂ ρ.OnValues vs ws →
    Ends ρ s t Renaming.OnValues (invoke host fuel v vs s) (invoke host fuel w ws t)
  callFunction : ∀ {ρ s t a b f vs ws}, Related ρ s t → ρ.Sees a b (Function.used f) →
    List.Forall₂ ρ.OnValues vs ws →
    Ends ρ s t Renaming.OnValues (callFunction host fuel f vs a s)
      (callFunction host fuel f ws b t)
  execAll : ∀ {ρ s t a b stmts}, Related ρ s t → ρ.Sees a b (Stmt.usedAll stmts) →
    Ends ρ s t Renaming.OnFlows (execAll host fuel a stmts s)
      (execAll host fuel b stmts t)
  execBody : ∀ {ρ s t a b stmts}, Related ρ s t → ρ.Sees a b (Stmt.usedAll stmts) →
    Ends ρ s t Renaming.OnFlows (execBody host fuel a stmts s)
      (execBody host fuel b stmts t)
  exec : ∀ {ρ s t a b stmt}, Related ρ s t → ρ.Sees a b (Stmt.used stmt) →
    Ends ρ s t Renaming.OnFlows (exec host fuel a stmt s) (exec host fuel b stmt t)
  execArms : ∀ {ρ s t a b arms}, Related ρ s t → ρ.Sees a b (Arms.used arms) →
    Ends ρ s t Renaming.OnFlows (execArms host fuel a arms s)
      (execArms host fuel b arms t)
  execLoop : ∀ {ρ s t a b test body}, Related ρ s t → ρ.Sees a b (Expr.used test) →
    ρ.Sees a b (Stmt.usedAll body) →
    Ends ρ s t Renaming.OnFlows (execLoop host fuel a test body s)
      (execLoop host fuel b test body t)
  condition : ∀ {ρ s t a b test}, Related ρ s t → ρ.Sees a b (Expr.used test) →
    Ends ρ s t (fun _ => Eq) (condition host fuel a test s) (condition host fuel b test t)

namespace Simulates

variable {host : Host} {fuel : Nat} {ρ : Renaming} {s t : State} {a b : Nat}

theorem zero : Simulates host 0 := by
  constructor <;> intros <;> exact .exhausted

theorem eval_succ
    (ih : Simulates host fuel) {e : Expr} (h : Related ρ s t)
    (hsees : ρ.Sees a b e.used) :
    Ends ρ s t Renaming.OnValues (HandleScript.eval host (fuel + 1) a e s)
      (HandleScript.eval host (fuel + 1) b e t) := by
  cases e with
  | literal value span => exact h.make value
  | name text span =>
      exact (h.lookup hsees.scope host.listing
        (hsees.clear text (List.mem_singleton_self text))).located span
  | lambda function =>
      rw [Expr.used_lambda] at hsees
      exact h.alloc (.lambda ⟨rfl, hsees.scope, hsees.clear⟩)
  | call receiver method args span =>
      refine (ih.eval h hsees.left).bind fun ρ' s' t' v w hgrown hrelated hvw => ?_
      have hargs := hsees.right.mono hgrown.grows
      exact (ih.dispatch hrelated (hargs.onRoots hrelated) hvw
        (.deferred hargs)).located method.span

theorem evalAll_succ
    (ih : Simulates host fuel) {es : List Expr} (h : Related ρ s t)
    (hsees : ρ.Sees a b (Expr.usedAll es)) :
    Ends ρ s t (fun ρ' => List.Forall₂ ρ'.OnValues)
        (HandleScript.evalAll host (fuel + 1) a es s)
      (HandleScript.evalAll host (fuel + 1) b es t) := by
  cases es with
  | nil => exact .pure h .nil
  | cons e es =>
      refine (ih.eval h hsees.left).bind fun ρ₁ s₁ t₁ v w hgrown₁ hrelated₁ hvw => ?_
      refine (ih.evalAll hrelated₁ (hsees.right.mono hgrown₁.grows)).bind ?_
      intro ρ₂ s₂ t₂ vs ws hgrown₂ hrelated₂ hvws
      exact .pure hrelated₂ (.cons (hvw.mono hgrown₂.grows) hvws)

theorem force_succ
    (ih : Simulates host fuel) {args args' : Arguments} (h : Related ρ s t)
    (hargs : ρ.OnArguments args args') :
    Ends ρ s t (fun ρ' => List.Forall₂ ρ'.OnValues)
        (HandleScript.force host (fuel + 1) args s)
      (HandleScript.force host (fuel + 1) args' t) := by
  cases hargs with
  | deferred hsees => exact ih.evalAll h hsees
  | ready hvws => exact .pure h hvws

theorem dispatch_succ
    (ih : Simulates host fuel) {v w : Value} {method : String} {args args' : Arguments}
    (h : Related ρ s t) (hroots : ρ.OnRoots s t a b) (hvw : ρ.OnValues v w)
    (hargs : ρ.OnArguments args args') :
    Ends ρ s t Renaming.OnValues (HandleScript.dispatch host (fuel + 1) a v method args s)
      (HandleScript.dispatch host (fuel + 1) b w method args' t) := by
  by_cases hvoid : v = .void
  · subst hvoid
    cases hvw
    exact .fail h _
  · by_cases hdispatcher : v = .dispatcher
    · subst hdispatcher
      cases hvw
      exact ih.callNamed h hroots hargs
    · have hvoid' : w ≠ .void := by
        rintro rfl
        cases hvw
        exact hvoid rfl
      have hdispatcher' : w ≠ .dispatcher := by
        rintro rfl
        cases hvw
        exact hdispatcher rfl
      rw [dispatch_eq_dispatchKind host fuel a method args hvoid hdispatcher,
        dispatch_eq_dispatchKind host fuel b method args' hvoid' hdispatcher',
          dispatchKind, dispatchKind,
        hvw.kind_eq, hargs.count_eq]
      cases hop : w.kind.operation? method with
      | none => exact .fail h _
      | some op =>
          dsimp only
          by_cases haccepts : op.accepts args'.count = true
          · rw [if_pos haccepts, if_pos haccepts]
            refine ih.operate h hvw (fun hgrows => ?_) hargs
            rw [hvw.kind_eq]
            exact Kind.eq_list_of_grows hop hgrows
          · rw [if_neg haccepts, if_neg haccepts]
            exact .fail h _

theorem operate_succ
    (ih : Simulates host fuel) {op : Operation} {v w : Value} {method : String}
    {args args' : Arguments} (h : Related ρ s t) (hvw : ρ.OnValues v w)
    (hkind : op.grows = true → v.kind = .list) (hargs : ρ.OnArguments args args') :
    Ends ρ s t Renaming.OnValues (HandleScript.operate host (fuel + 1) op v method args s)
      (HandleScript.operate host (fuel + 1) op w method args' t) := by
  cases op with
  | invoke =>
      refine (ih.force h hargs).bind fun ρ' s' t' vs ws hgrown hrelated hvws => ?_
      exact ih.invoke hrelated (hvw.mono hgrown.grows) hvws
  | connective op =>
      refine Ends.bind (.inspect h (by simp only [(h.looksLike hvw).bool?_eq])) ?_
      intro ρ₁ s₁ t₁ decided decided' hgrown₁ hrelated₁ heq
      cases heq
      cases decided with
      | some b => exact hrelated₁.alloc (.bool b)
      | none =>
          refine (ih.force hrelated₁ (hargs.mono hgrown₁.grows)).bind ?_
          intro ρ₂ s₂ t₂ vs ws hgrown₂ hrelated₂ hvws
          exact hrelated₂.carryOut (op.plan_alike method hrelated₂ hvws)
  | eager op =>
      refine (ih.force h hargs).bind fun ρ' s' t' vs ws hgrown hrelated hvws => ?_
      have hgrowth : ∀ growth, op = .growth growth → v.kind = .list := by
        rintro growth rfl
        exact hkind rfl
      exact hrelated.carryOut
        (op.plan_alike method host.files hrelated (hvw.mono hgrown.grows) hgrowth hvws)

theorem callNamed_succ
    (ih : Simulates host fuel) {name : String} {args args' : Arguments}
    (h : Related ρ s t) (hroots : ρ.OnRoots s t a b) (hargs : ρ.OnArguments args args') :
    Ends ρ s t Renaming.OnValues (HandleScript.callNamed host (fuel + 1) a name args s)
      (HandleScript.callNamed host (fuel + 1) b name args' t) := by
  unfold HandleScript.callNamed
  cases Builtin.ofName? name with
  | some builtin =>
      refine (ih.force h hargs).bind fun ρ' s' t' vs ws hgrown hrelated hvws => ?_
      exact hrelated.callBuiltin hvws builtin
  | none =>
      refine Ends.bind (.inspect h (by simp only [h.functions])) ?_
      intro ρ₁ s₁ t₁ found found' hgrown₁ hrelated₁ heq
      cases heq
      cases found with
      | none =>
          simp only [hrelated₁.functions]
          exact .fail hrelated₁ _
      | some function =>
          refine (ih.force hrelated₁ (hargs.mono hgrown₁.grows)).bind ?_
          intro ρ₂ s₂ t₂ vs ws hgrown₂ hrelated₂ hvws
          have hroots₂ := (hroots.mono hgrown₁).mono hgrown₂
          exact ih.callFunction hrelated₂
            ⟨hroots₂.root, fun name _ => hroots₂.clear name⟩ hvws

theorem invoke_succ
    (ih : Simulates host fuel) {v w : Value} {vs ws : List Value} (h : Related ρ s t)
    (hvw : ρ.OnValues v w) (hvws : List.Forall₂ ρ.OnValues vs ws) :
    Ends ρ s t Renaming.OnValues (HandleScript.invoke host (fuel + 1) v vs s)
      (HandleScript.invoke host (fuel + 1) w ws t) := by
  cases hvw with
  | lambda hab =>
      obtain ⟨hfunction, hscope, hused⟩ := h.closure hab
      have hcall := ih.callFunction h ⟨hscope, hused⟩ hvws
      nth_rewrite 2 [hfunction] at hcall
      exact hcall
  | int | long | double | bool | text | list | array | iterator | file | void | dispatcher
  | factory =>
      exact .fail h _

theorem callFunction_succ
    (ih : Simulates host fuel) {f : Function} {vs ws : List Value} (h : Related ρ s t)
    (hsees : ρ.Sees a b f.used) (hvws : List.Forall₂ ρ.OnValues vs ws) :
    Ends ρ s t Renaming.OnValues (HandleScript.callFunction host (fuel + 1) f vs a s)
      (HandleScript.callFunction host (fuel + 1) f ws b t) := by
  unfold HandleScript.callFunction
  dsimp only
  rw [hvws.length_eq, h.depth]
  by_cases hcount : f.params.length ≠ ws.length
  · rw [if_pos hcount, if_pos hcount]
    exact .fail h _
  · rw [if_neg hcount, if_neg hcount]
    by_cases hdeep : host.maxDepth < t.depth + 1
    · rw [if_pos hdeep, if_pos hdeep]
      exact .fail h _
    · rw [if_neg hdeep, if_neg hdeep]
      cases h.enter hsees hvws with
      | done hgrown hrelated hinner =>
          exact (ih.execAll hrelated hinner.right).return.later hgrown

theorem execAll_succ
    (ih : Simulates host fuel) {stmts : List Stmt} (h : Related ρ s t)
    (hsees : ρ.Sees a b (Stmt.usedAll stmts)) :
    Ends ρ s t Renaming.OnFlows (HandleScript.execAll host (fuel + 1) a stmts s)
      (HandleScript.execAll host (fuel + 1) b stmts t) := by
  cases stmts with
  | nil => exact .pure h .pass
  | cons stmt rest =>
      refine (ih.exec h hsees.left).bind fun ρ' s' t' flow flow' hgrown hrelated hflow =>
        ?_
      cases hflow with
      | pass => exact ih.execAll hrelated (hsees.right.mono hgrown.grows)
      | giveBack hvw => exact .pure hrelated (.giveBack hvw)
      | leave => exact .pure hrelated .leave
      | skip => exact .pure hrelated .skip

theorem execBody_succ
    (ih : Simulates host fuel) {stmts : List Stmt} (h : Related ρ s t)
    (hsees : ρ.Sees a b (Stmt.usedAll stmts)) :
    Ends ρ s t Renaming.OnFlows (HandleScript.execBody host (fuel + 1) a stmts s)
      (HandleScript.execBody host (fuel + 1) b stmts t) := by
  refine (h.openScope hsees.scope).bind fun ρ' s' t' c d hgrown hrelated hinner => ?_
  exact ih.execAll hrelated ⟨hinner.1, fun name hname =>
    hinner.2 name (hsees.clear name hname)⟩

theorem exec_succ
    (ih : Simulates host fuel) {stmt : Stmt} (h : Related ρ s t)
    (hsees : ρ.Sees a b stmt.used) :
    Ends ρ s t Renaming.OnFlows (HandleScript.exec host (fuel + 1) a stmt s)
      (HandleScript.exec host (fuel + 1) b stmt t) := by
  cases stmt with
  | branch arms span => exact ih.execArms h hsees
  | loop test body span => exact ih.execLoop h hsees.left hsees.right
  | declare name init span =>
      refine (ih.eval h hsees.tail).bind fun ρ₁ s₁ t₁ v w hgrown₁ hrelated₁ hvw => ?_
      have hsees₁ := hsees.mono hgrown₁.grows
      refine (hrelated₁.define hsees₁.scope name.node hsees₁.head hvw).bind ?_
      intro ρ₂ s₂ t₂ _ _ _ hrelated₂ _
      exact .pure hrelated₂ .pass
  | assign name value span =>
      refine (ih.eval h hsees.tail).bind fun ρ₁ s₁ t₁ v w hgrown₁ hrelated₁ hvw => ?_
      have hsees₁ := hsees.mono hgrown₁.grows
      refine (hrelated₁.assign hsees₁.scope hsees₁.head hvw).bind ?_
      intro ρ₂ s₂ t₂ _ _ _ hrelated₂ _
      exact .pure hrelated₂ .pass
  | giveBack value span =>
      cases value with
      | none => exact .pure h (.giveBack .void)
      | some value =>
          refine (ih.eval h hsees).bind fun ρ' s' t' v w _ hrelated hvw => ?_
          exact .pure hrelated (.giveBack hvw)
  | leave span => exact .pure h .leave
  | skip span => exact .pure h .skip
  | block body span => exact ih.execBody h hsees
  | expr value span =>
      refine (ih.eval h hsees).bind fun ρ' s' t' _ _ _ hrelated _ => ?_
      exact .pure hrelated .pass

theorem execArms_succ
    (ih : Simulates host fuel) {arms : Arms} (h : Related ρ s t)
    (hsees : ρ.Sees a b arms.used) :
    Ends ρ s t Renaming.OnFlows (HandleScript.execArms host (fuel + 1) a arms s)
      (HandleScript.execArms host (fuel + 1) b arms t) := by
  cases arms with
  | done => exact .pure h .pass
  | otherwise body => exact ih.execBody h hsees
  | test test body rest =>
      refine (ih.condition h hsees.left.left).bind
        fun ρ' s' t' holds holds' hgrown hrelated heq => ?_
      cases heq
      cases holds with
      | true => exact ih.execBody hrelated (hsees.left.right.mono hgrown.grows)
      | false => exact ih.execArms hrelated (hsees.right.mono hgrown.grows)

theorem execLoop_succ
    (ih : Simulates host fuel) {test : Expr} {body : List Stmt} (h : Related ρ s t)
    (htest : ρ.Sees a b test.used) (hbody : ρ.Sees a b (Stmt.usedAll body)) :
    Ends ρ s t Renaming.OnFlows (HandleScript.execLoop host (fuel + 1) a test body s)
      (HandleScript.execLoop host (fuel + 1) b test body t) := by
  refine (ih.condition h htest).bind fun ρ₁ s₁ t₁ holds holds' hgrown₁ hrelated₁ heq => ?_
  cases heq
  cases holds with
  | false => exact .pure hrelated₁ .pass
  | true =>
      have hbody₁ := hbody.mono hgrown₁.grows
      refine (ih.execBody hrelated₁ hbody₁).bind
        fun ρ₂ s₂ t₂ flow flow' hgrown₂ hrelated₂ hflow => ?_
      have hagain := ih.execLoop hrelated₂ ((htest.mono hgrown₁.grows).mono hgrown₂.grows)
        (hbody₁.mono hgrown₂.grows)
      cases hflow with
      | pass => exact hagain
      | giveBack hvw => exact .pure hrelated₂ (.giveBack hvw)
      | leave => exact .pure hrelated₂ .pass
      | skip => exact hagain

theorem condition_succ
    (ih : Simulates host fuel) {test : Expr} (h : Related ρ s t)
    (hsees : ρ.Sees a b test.used) :
    Ends ρ s t (fun _ => Eq) (HandleScript.condition host (fuel + 1) a test s)
      (HandleScript.condition host (fuel + 1) b test t) := by
  refine (ih.eval h hsees).bind fun ρ₁ s₁ t₁ v w hgrown₁ hrelated₁ hvw => ?_
  refine Ends.bind
    (.inspect hrelated₁ (by simp only [(hrelated₁.looksLike hvw).bool?_eq])) ?_
  intro ρ₂ s₂ t₂ found found' hgrown₂ hrelated₂ heq
  cases heq
  cases found with
  | some b => exact .pure hrelated₂ rfl
  | none =>
      rw [hvw.kind_eq]
      exact .fail hrelated₂ _

/-- Code runs alike in states that are alike, however many steps it is granted. -/
theorem always (host : Host) (fuel : Nat) : Simulates host fuel := by
  induction fuel with
  | zero => exact zero
  | succ fuel ih =>
      exact
        { eval := ih.eval_succ
          evalAll := ih.evalAll_succ
          force := ih.force_succ
          dispatch := ih.dispatch_succ
          operate := ih.operate_succ
          callNamed := ih.callNamed_succ
          invoke := ih.invoke_succ
          callFunction := ih.callFunction_succ
          execAll := ih.execAll_succ
          execBody := ih.execBody_succ
          exec := ih.exec_succ
          execArms := ih.execArms_succ
          execLoop := ih.execLoop_succ
          condition := ih.condition_succ }

end Simulates

theorem Related.evalStatements
    {ρ : Renaming} {s t : State} {a b : Nat} {stmts : List Stmt}
    {last last' : Option Value} (host : Host) (fuel : Nat) (h : Related ρ s t)
    (hsees : ρ.Sees a b (Stmt.usedAll stmts)) (hlast : Option.Rel ρ.OnValues last last') :
    Ends ρ s t (fun ρ' => Option.Rel ρ'.OnValues)
        (evalStatements host fuel a last stmts s)
      (evalStatements host fuel b last' stmts t) := by
  have hruns := Simulates.always host fuel
  induction stmts generalizing ρ s t last last' with
  | nil => exact .pure h hlast
  | cons stmt rest ih =>
      by_cases hexpr : ∃ value span, stmt = .expr value span
      · obtain ⟨value, span, rfl⟩ := hexpr
        refine (hruns.eval h hsees.left).bind fun ρ' s' t' v w hgrown hrelated hvw => ?_
        exact ih hrelated (hsees.right.mono hgrown.grows) (.some hvw)
      · have hne : ∀ value span, stmt ≠ .expr value span :=
          fun value span heq => hexpr ⟨value, span, heq⟩
        rw [evalStatements_cons host fuel a last rest hne,
          evalStatements_cons host fuel b last' rest hne]
        refine (hruns.exec h hsees.left).bind
          fun ρ' s' t' flow flow' hgrown hrelated hflow => ?_
        cases hflow with
        | pass => exact ih hrelated (hsees.right.mono hgrown.grows) .none
        | giveBack hvw => exact .pure hrelated (.some hvw)
        | leave => exact .fail hrelated _
        | skip => exact .fail hrelated _

end HandleScript
