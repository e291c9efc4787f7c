import HandleScript.Proofs.Acts
import HandleScript.Proofs.Failing

/-!
# The nodes of running code

Every piece of code consists of nodes with places: statements, expressions, the names of
methods, variables, and the conditions of branches and loops. Running code comes from the
job at hand, from loaded functions and from closures, and no run makes new nodes. So a
failure that is not a loop exit is placed at a method, a variable or a condition of the
code that was there when the run began.
-/

namespace HandleScript

/-- What a node of a program is. -/
inductive NodeSort where
  /-- The name of a method in a call. -/
  | method
  | variable
  /-- The condition of a branch or a loop, as such. -/
  | condition
  /-- An expression that is no variable. -/
  | expression
  | statement
deriving DecidableEq, Repr

/-- Failures are placed at nodes of this sort. -/
def NodeSort.IsSite (sort : NodeSort) : Prop :=
  sort = .method ∨ sort = .variable ∨ sort = .condition

/-- A node of a program at its place. -/
abbrev Node := Located NodeSort

mutual

/-- The nodes of an expression. -/
def Expr.nodes : Expr → List Node
  | .call receiver method args span =>
    ⟨.expression, span⟩ :: ⟨.method, method.span⟩ ::
      (receiver.nodes ++ Expr.nodesAll args)
  | .name _ span => [⟨.variable, span⟩]
  | .literal _ span => [⟨.expression, span⟩]
  | .lambda ⟨_, _, body, span⟩ => ⟨.expression, span⟩ :: Stmt.nodesAll body

/-- The nodes of expressions. -/
def Expr.nodesAll : List Expr → List Node
  | [] => []
  | e :: es => e.nodes ++ Expr.nodesAll es

/-- The nodes of a statement. -/
def Stmt.nodes : Stmt → List Node
  | .branch arms span => ⟨.statement, span⟩ :: arms.nodes
  | .loop test body span =>
    ⟨.statement, span⟩ :: ⟨.condition, test.span⟩ :: (test.nodes ++ Stmt.nodesAll body)
  | .declare _ init span => ⟨.statement, span⟩ :: init.nodes
  | .assign _ value span => ⟨.statement, span⟩ :: value.nodes
  | .giveBack none span => [⟨.statement, span⟩]
  | .giveBack (some value) span => ⟨.statement, span⟩ :: value.nodes
  | .leave span => [⟨.statement, span⟩]
  | .skip span => [⟨.statement, span⟩]
  | .block body span => ⟨.statement, span⟩ :: Stmt.nodesAll body
  | .expr value span => ⟨.statement, span⟩ :: value.nodes

/-- The nodes of statements. -/
def Stmt.nodesAll : List Stmt → List Node
  | [] => []
  | stmt :: rest => stmt.nodes ++ Stmt.nodesAll rest

/-- The nodes of the tests of an `if` statement. -/
def Arms.nodes : Arms → List Node
  | .done => []
  | .otherwise body => Stmt.nodesAll body
  | .test test body rest =>
    ⟨.condition, test.span⟩ :: (test.nodes ++ Stmt.nodesAll body ++ rest.nodes)

end

/-- The nodes of a function's body. -/
def Function.nodes (f : Function) : List Node :=
  Stmt.nodesAll f.body

/-- The nodes of a program. -/
def Program.nodes (p : Program) : List Node :=
  p.functions.flatMap Function.nodes

/-- The nodes of arguments that have not been evaluated. -/
def Arguments.nodes : Arguments → List Node
  | deferred _ exprs => Expr.nodesAll exprs
  | ready _ => []

theorem Function.nodes_subset_lambda (f : Function) :
    f.nodes ⊆ (Expr.lambda f).nodes := by
  obtain ⟨name, params, body, span⟩ := f
  rw [Expr.nodes]
  exact List.subset_cons_self _ _

namespace Job

/-- The nodes of the code that a job is about. -/
def nodes : Job → List Node
  | eval _ e => e.nodes
  | evalAll _ es => Expr.nodesAll es
  | force args => args.nodes
  | dispatch _ _ _ args => args.nodes
  | operate _ _ _ args => args.nodes
  | callNamed _ _ args => args.nodes
  | invoke _ _ => []
  | callFunction f _ _ => f.nodes
  | execAll _ stmts => Stmt.nodesAll stmts
  | execBody _ body => Stmt.nodesAll body
  | exec _ stmt => stmt.nodes
  | execArms _ arms => arms.nodes
  | execLoop _ test body => ⟨.condition, test.span⟩ :: (test.nodes ++ Stmt.nodesAll body)
  | condition _ test => ⟨.condition, test.span⟩ :: test.nodes
  | input _ stmts => Stmt.nodesAll stmts

end Job

/-! ## Code that is made of given nodes -/

/-- The functions that a state can call: those that have been loaded, and those of
closures. -/
inductive State.CanCall (s : State) : Function → Prop
  | loaded {name : String} {f : Function} (h : s.functions.get? name = some f) :
      CanCall s f
  | closure (cell : Nat) : CanCall s (s.store.closures.get cell).function

/-- Everything that a state can call is made of these nodes. -/
def State.MadeOf (known : Node → Prop) (s : State) : Prop :=
  ∀ f, s.CanCall f → ∀ n ∈ f.nodes, known n

namespace Job

variable {host : Host} {fuel : Nat} {job job' : Job} {s s' t t' : State}
  {raised : Failure} {stack : List Job}
  {known : Node → Prop}

/-- The code of a job is made of these nodes. -/
def MadeOf (known : Node → Prop) (job : Job) : Prop :=
  ∀ n ∈ job.nodes, known n

/-- The jobs that statements come to are about parts of the statements. -/
theorem Starts.nodes_subset {scope : Nat} {stmts : List Stmt}
    (h : Starts host fuel scope stmts s job t) : job.nodes ⊆ Stmt.nodesAll stmts := by
  induction h with
  | expr =>
      intro n hn
      simp only [nodes] at hn
      simp [Stmt.nodesAll, Stmt.nodes, hn]
  | stmt plain => exact List.subset_append_left _ _
  | afterExpr before _ ih => exact List.Subset.trans ih (List.subset_append_right _ _)
  | afterStmt plain before _ ih =>
      exact List.Subset.trans ih (List.subset_append_right _ _)

/-- A job calls for jobs about parts of its own code, or for a function that the state can
call. -/
theorem Calls.nodes_subset (h : Calls host fuel job s job' t) :
    job'.nodes ⊆ job.nodes ∨ ∃ f values parent, job' = .callFunction f values parent ∧
      s.CanCall f := by
  cases h with
  | function _ found _ => exact .inr ⟨_, _, _, rfl, .loaded found⟩
  | lambda => exact .inr ⟨_, _, _, rfl, .closure _⟩
  | started hstarts => exact .inl hstarts.nodes_subset
  | deferred | named | operation | invokeArgs | operand | operands | builtinArgs
  | functionArgs | body | opened | otherwise | again => exact .inl (List.Subset.refl _)
  | invoke => exact .inl (List.nil_subset _)
  | receiver | method | first | others | statement | statements | arms | loop | init
  | value | result | block | expr | armTest | armBody | armRest | loopTest | loopBody
  | tested =>
      refine .inl fun n hn => ?_
      simp only [nodes, Expr.nodes, Expr.nodesAll, Stmt.nodes, Stmt.nodesAll, Arms.nodes,
        Arguments.nodes, List.mem_cons, List.mem_append] at hn ⊢
      grind

theorem Calls.madeOf (h : Calls host fuel job s job' t) (hjob : job.MadeOf known)
    (hs : s.MadeOf known) : job'.MadeOf known := by
  rcases h.nodes_subset with hsub | ⟨f, values, parent, rfl, hf⟩
  · exact fun n hn => hjob n (hsub hn)
  · exact hs f hf

/-- What a state can run stays made of the same nodes, whatever is run. -/
theorem madeOf_invariant (host : Host) (known : Node → Prop) :
    Invariant host (State.MadeOf known) (fun job _ => job.MadeOf known) where
  acts := by
    intro fuel job s t t' hacts hjob ht f hf
    cases hf with
    | loaded hloaded =>
        rw [hacts.change.functions_eq] at hloaded
        exact ht f (.loaded hloaded)
    | closure cell =>
        rcases hacts.change.closures with hsame | ⟨scope, f, rfl, -, hpush⟩
        · rw [hsame]
          exact ht _ (.closure cell)
        · rw [hpush, Pool.get_push]
          split
          · exact fun n hn => hjob n (f.nodes_subset_lambda hn)
          · exact ht _ (.closure cell)
  calls := by
    intro fuel job s job' s' hcalls hjob hs _
    exact hcalls.madeOf hjob hs

/-- All jobs of a chain that fails are made of the nodes that were there when the run
began. -/
theorem Fails.madeOf (h : Fails host fuel job s stack raised) (hjob : job.MadeOf known)
    (hs : s.MadeOf known) : ∀ job' ∈ stack, job'.MadeOf known := by
  induction h with
  | raised =>
      intro job' hmem
      rw [List.mem_singleton] at hmem
      exact hmem ▸ hjob
  | within calls _ ih =>
      intro job' hmem
      rcases List.mem_cons.mp hmem with rfl | hrest
      · exact hjob
      · have hs' := (madeOf_invariant host known).holds_of_comesTo hjob hs calls.comesTo
        exact ih (calls.madeOf hjob hs) hs' job' hrest

/-! ## Places of failures -/

theorem Fails.exists_raises (h : Fails host fuel job s stack raised) :
    ∃ fuel' job' t, job' ∈ stack ∧ Raises host fuel' job' t raised := by
  induction h with
  | raised raises => exact ⟨_, _, _, List.mem_cons_self, raises⟩
  | within _ _ ih =>
      obtain ⟨fuel', job', t, hmem, hraises⟩ := ih
      exact ⟨fuel', job', t, List.mem_cons_of_mem _ hmem, hraises⟩

/-- A failure that is raised with a place and is no loop exit is placed at a site of the
job's code. -/
theorem Raises.site {span : Span} (h : Raises host fuel job s raised)
    (hspan : raised.span = some span) (hplain : raised.cause.Plain) :
    ∃ sort, NodeSort.IsSite sort ∧ ⟨sort, span⟩ ∈ job.nodes := by
  cases h with
  | unbound =>
      cases hspan
      exact ⟨.variable, .inr (.inl rfl), List.mem_cons_self⟩
  | notBool =>
      cases hspan
      exact ⟨.condition, .inr (.inr rfl), List.mem_cons_self⟩
  | builtin _ _ failed =>
      obtain ⟨cause, rfl, -⟩ := Builtin.call_eq_failed failed
      cases hspan
  | outside => exact absurd rfl hplain
  | onVoid | unknown | misfit | operand | operands | undefined | notLambda | arity
  | overflow | escaped => cases hspan

theorem calling_mem_nodes {span : Span} (h : job.calling = some span) :
    ⟨.method, span⟩ ∈ job.nodes := by
  unfold calling at h
  split at h
  · cases h
    simp [nodes, Expr.nodes]
  · cases h

theorem exists_calling_of_innermostCall {span : Span}
    (h : innermostCall stack = some span) : ∃ job ∈ stack, job.calling = some span := by
  induction stack with
  | nil => cases h
  | cons job stack ih =>
      rcases Option.or_eq_some_iff.mp h with hinner | ⟨-, hhere⟩
      · obtain ⟨job', hmem, hcalling⟩ := ih hinner
        exact ⟨job', List.mem_cons_of_mem _ hmem, hcalling⟩
      · exact ⟨job, List.mem_cons_self, hhere⟩

/-- A failure is placed at a site of the code of a job on the stack, which is not the call
of a function. -/
theorem Fails.exists_site
    {span : Span} (h : Fails host fuel job s stack raised) (hplain : raised.cause.Plain)
    (hspan : raised.span.or (innermostCall stack) = some span) :
    ∃ job' ∈ stack, job'.bodies = 0 ∧ ∃ sort, NodeSort.IsSite sort ∧
      ⟨sort, span⟩ ∈ job'.nodes := by
  rcases Option.or_eq_some_iff.mp hspan with hraised | ⟨-, hcall⟩
  · obtain ⟨fuel', job', t, hmem, hraises⟩ := h.exists_raises
    refine ⟨job', hmem, ?_, hraises.site hraised hplain⟩
    cases hraises with
    | arity | overflow | escaped => cases hraised
    | unbound | onVoid | unknown | misfit | operand | operands | builtin | undefined
    | notLambda | notBool | outside => rfl
  · obtain ⟨job', hmem, hcalling⟩ := exists_calling_of_innermostCall hcall
    refine ⟨job', hmem, ?_, .method, .inl rfl, calling_mem_nodes hcalling⟩
    cases job' with
    | callFunction => cases hcalling
    | _ => rfl

/-- The place at which a failure is reported is a site of the code that was there when the
run began. -/
theorem Fails.site
    {span : Span} (h : Fails host fuel job s stack raised) (hjob : job.MadeOf known)
    (hs : s.MadeOf known) (hplain : raised.cause.Plain)
    (hspan : raised.span.or (innermostCall stack) = some span) :
    ∃ sort, NodeSort.IsSite sort ∧ known ⟨sort, span⟩ := by
  obtain ⟨job', hmem, -, sort, hsite, hnode⟩ := h.exists_site hplain hspan
  exact ⟨sort, hsite, h.madeOf hjob hs job' hmem _ hnode⟩

/-! ## Failures outside of functions -/

theorem Fails.exists_stack (h : Fails host fuel job s stack raised) :
    ∃ more, stack = job :: more := by
  cases h <;> exact ⟨_, rfl⟩

/-- As long as no body has been entered, the jobs on the stack are about parts of the
first one's code. -/
theorem Fails.nodes_subset
    (h : Fails host fuel job s stack raised)
    (houtside : ∀ job' ∈ stack.dropLast, job'.bodies = 0) :
    ∀ job' ∈ stack, job'.bodies = 0 → job'.nodes ⊆ job.nodes := by
  induction h with
  | raised =>
      intro last hmem _
      rw [List.mem_singleton] at hmem
      rw [hmem]
      exact List.Subset.refl _
  | @within fuel job job' s s' stack raised calls rest ih =>
      obtain ⟨more, rfl⟩ := rest.exists_stack
      rw [List.dropLast_cons_cons] at houtside
      intro last hmem hlast
      rcases List.mem_cons.mp hmem with rfl | hlater
      · exact List.Subset.refl _
      · have hsub := ih (fun j hj => houtside j (List.mem_cons_of_mem _ hj))
          last hlater hlast
        rcases calls.nodes_subset with hpart | ⟨f, values, parent, rfl, -⟩
        · exact List.Subset.trans hsub hpart
        · -- A function's call that is not the last job has entered the body.
          cases more with
          | nil =>
              rw [List.mem_singleton] at hlater
              rw [hlater] at hlast
              cases hlast
          | cons next more => cases houtside _ (List.mem_cons_of_mem _ List.mem_cons_self)

/-- The place of a failure outside of all bodies is a site of the code that the first job
is about. -/
theorem Fails.site_outside
    {span : Span} (h : Fails host fuel job s stack raised)
    (houtside : ∀ job' ∈ stack.dropLast, job'.bodies = 0) (hplain : raised.cause.Plain)
    (hspan : raised.span.or (innermostCall stack) = some span) :
    ∃ sort, NodeSort.IsSite sort ∧ ⟨sort, span⟩ ∈ job.nodes := by
  obtain ⟨job', hmem, hnone, sort, hsite, hnode⟩ := h.exists_site hplain hspan
  exact ⟨sort, hsite, h.nodes_subset houtside job' hmem hnone hnode⟩

end Job

end HandleScript
