import HandleScript.Proofs.Acts
import HandleScript.Proofs.RecursionLimit
import HandleScript.Proofs.Rendering
import Mathlib.Algebra.Order.BigOperators.Group.List
import Mathlib.Algebra.Order.Ring.Nat

/-!
# Code without loops ends

A call goes deeper into the code that is being run, or it enters a body. Going deeper ends
for want of code, and bodies can be entered only as often as the recursion limit lets
calls nest. So where no `while` occurs, in functions nor in function literals, a number of
steps can be told in advance that no run uses up: for each call that may still nest, as
many as the highest body has levels. Function literals run whenever they are called, so
that it is the state that has to be without loops, with all its closures. A run that ends
has a value or an error to show for it, or it has crashed; and it crashes exactly when it
comes to ask for too large an array.
-/

namespace HandleScript

/-! ## Code without loops -/

mutual

/-- No `while` occurs in the expression, nor in a function literal in it. -/
def Expr.loopFree : Expr → Bool
  | .call receiver _ args _ => receiver.loopFree && Expr.loopFreeAll args
  | .lambda ⟨_, _, body, _⟩ => Stmt.loopFreeAll body
  | .name _ _ => true
  | .literal _ _ => true

/-- No `while` occurs in the expressions. -/
def Expr.loopFreeAll : List Expr → Bool
  | [] => true
  | e :: es => e.loopFree && Expr.loopFreeAll es

/-- The statement is no `while`, and none occurs in it. -/
def Stmt.loopFree : Stmt → Bool
  | .branch arms _ => arms.loopFree
  | .loop _ _ _ => false
  | .declare _ init _ => init.loopFree
  | .assign _ value _ => value.loopFree
  | .giveBack none _ => true
  | .giveBack (some value) _ => value.loopFree
  | .leave _ => true
  | .skip _ => true
  | .block body _ => Stmt.loopFreeAll body
  | .expr value _ => value.loopFree

/-- No `while` occurs in the statements. -/
def Stmt.loopFreeAll : List Stmt → Bool
  | [] => true
  | stmt :: rest => stmt.loopFree && Stmt.loopFreeAll rest

/-- No `while` occurs in the conditions or in the bodies. -/
def Arms.loopFree : Arms → Bool
  | .done => true
  | .otherwise body => Stmt.loopFreeAll body
  | .test condition body rest =>
    condition.loopFree && Stmt.loopFreeAll body && rest.loopFree

end

/-- No `while` occurs in the function's body. -/
def Function.loopFree (f : Function) : Bool :=
  Stmt.loopFreeAll f.body

/-- No `while` occurs in the functions of the program. -/
def Program.loopFree (p : Program) : Bool :=
  p.functions.all Function.loopFree

/-- No `while` occurs in what the state can run: the loaded functions and the closures in
the store. -/
structure State.LoopFree (s : State) : Prop where
  functions : ∀ name f, s.functions.get? name = some f → f.loopFree = true
  closures : ∀ cell, (s.store.closures.get cell).function.loopFree = true

/-! ## The height of code -/

mutual

/-- How deeply the calls that evaluate the expression can nest, up to the next body that
is entered. -/
def Expr.height : Expr → Nat
  | .call receiver _ args _ => max receiver.height (Expr.heightAll args + 4) + 1
  | .lambda ⟨_, _, body, _⟩ => Stmt.heightAll body + 1
  | .name _ _ => 1
  | .literal _ _ => 1

/-- How deeply the calls that evaluate the expressions, one after the other, can nest. -/
def Expr.heightAll : List Expr → Nat
  | [] => 1
  | e :: es => max e.height (Expr.heightAll es) + 1

/-- How deeply the calls that run the statement can nest, up to the next body that is
entered. -/
def Stmt.height : Stmt → Nat
  | .branch arms _ => arms.height + 1
  | .loop condition body _ => max condition.height (Stmt.heightAll body) + 2
  | .declare _ init _ => init.height + 1
  | .assign _ value _ => value.height + 1
  | .giveBack none _ => 1
  | .giveBack (some value) _ => value.height + 1
  | .leave _ => 1
  | .skip _ => 1
  | .block body _ => Stmt.heightAll body + 2
  | .expr value _ => value.height + 1

/-- How deeply the calls that run the statements, one after the other, can nest. -/
def Stmt.heightAll : List Stmt → Nat
  | [] => 1
  | stmt :: rest => max stmt.height (Stmt.heightAll rest) + 1

/-- How deeply the calls that choose and run a branch can nest. -/
def Arms.height : Arms → Nat
  | .done => 1
  | .otherwise body => Stmt.heightAll body + 2
  | .test condition body rest =>
    max (condition.height + 1) (max (Stmt.heightAll body + 1) rest.height) + 1

end

/-- How deeply the calls that run the function's body can nest. -/
def Function.height (f : Function) : Nat :=
  Stmt.heightAll f.body

theorem Expr.loopFree_lambda (f : Function) : (Expr.lambda f).loopFree = f.loopFree := by
  obtain ⟨name, params, body, span⟩ := f
  simp only [loopFree, Function.loopFree]

theorem Expr.height_lambda (f : Function) : (Expr.lambda f).height = f.height + 1 := by
  obtain ⟨name, params, body, span⟩ := f
  simp only [height, Function.height]

/-- No `while` occurs in the arguments that are still to be evaluated. -/
def Arguments.loopFree : Arguments → Bool
  | deferred _ exprs => Expr.loopFreeAll exprs
  | ready _ => true

/-- How deeply the calls that evaluate the arguments can nest. -/
def Arguments.height : Arguments → Nat
  | deferred _ exprs => Expr.heightAll exprs
  | ready _ => 0

namespace Job

/-- No `while` occurs in the code that the job has in hand. -/
def loopFree : Job → Bool
  | eval _ e => e.loopFree
  | evalAll _ es => Expr.loopFreeAll es
  | force args => args.loopFree
  | dispatch _ _ _ args => args.loopFree
  | operate _ _ _ args => args.loopFree
  | callNamed _ _ args => args.loopFree
  | invoke _ _ => true
  | callFunction f _ _ => f.loopFree
  | execAll _ stmts => Stmt.loopFreeAll stmts
  | execBody _ body => Stmt.loopFreeAll body
  | exec _ stmt => stmt.loopFree
  | execArms _ arms => arms.loopFree
  | execLoop _ _ _ => false
  | condition _ test => test.loopFree
  | input _ stmts => Stmt.loopFreeAll stmts

/-- The height of the code that the job has in hand. -/
def codeHeight : Job → Nat
  | eval _ e => e.height
  | evalAll _ es => Expr.heightAll es
  | force args => args.height
  | dispatch _ _ _ args => args.height
  | operate _ _ _ args => args.height
  | callNamed _ _ args => args.height
  | invoke _ _ => 0
  | callFunction f _ _ => f.height
  | execAll _ stmts => Stmt.heightAll stmts
  | execBody _ body => Stmt.heightAll body
  | exec _ stmt => stmt.height
  | execArms _ arms => arms.height
  | execLoop _ test body => max test.height (Stmt.heightAll body)
  | condition _ test => test.height
  | input _ stmts => Stmt.heightAll stmts

/-- How deeply the calls of the job can nest, up to the next body that is entered. -/
def height : Job → Nat
  | force args => args.height + 1
  | dispatch _ _ _ args => args.height + 4
  | operate _ _ _ args => args.height + 3
  | callNamed _ _ args => args.height + 3
  | invoke _ _ => 2
  | callFunction _ _ _ => 1
  | execBody _ body => Stmt.heightAll body + 1
  | condition _ test => test.height + 1
  | job => job.codeHeight

/-- The code that the job has in hand is without loops, and no higher than so much. -/
structure Within (bound : Nat) (job : Job) : Prop where
  loopFree : job.loopFree = true
  codeHeight_le : job.codeHeight ≤ bound

end Job

/-- The function is without loops, and no higher than so much. -/
structure Function.Within (bound : Nat) (f : Function) : Prop where
  loopFree : f.loopFree = true
  height_le : f.height ≤ bound

/-- What the state can run is without loops, and no higher than so much. -/
structure State.Within (bound : Nat) (s : State) : Prop where
  functions : ∀ name f, s.functions.get? name = some f → f.Within bound
  closures : ∀ cell, (s.store.closures.get cell).function.Within bound

theorem State.Within.of_change
    {bound : Nat} {job : Job} {s t t' : State} (h : t.Within bound)
    (hchange : job.Change s t t') (hjob : job.Within bound) : t'.Within bound := by
  constructor
  · rw [hchange.functions_eq]
    exact h.functions
  · intro cell
    rcases hchange.closures with hsame | ⟨scope, f, rfl, -, hpushed⟩
    · rw [hsame]
      exact h.closures cell
    · rw [hpushed, Pool.get_push]
      split
      · have hfree : (Expr.lambda f).loopFree = true := hjob.loopFree
        have hle : (Expr.lambda f).height ≤ bound := hjob.codeHeight_le
        rw [Expr.loopFree_lambda] at hfree
        rw [Expr.height_lambda] at hle
        exact ⟨hfree, Nat.le_of_succ_le hle⟩
      · exact h.closures cell

/-! ## What jobs call for -/

namespace Job

variable {host : Host} {fuel bound : Nat} {job job' : Job} {s s' : State}

/-- The statements of an input have less in hand than all of it. -/
theorem Starts.within
    {scope : Nat} {stmts : List Stmt} (h : Starts host fuel scope stmts s job s')
    (hfree : Stmt.loopFreeAll stmts = true) :
    job.loopFree = true ∧ job.codeHeight < Stmt.heightAll stmts ∧
      job.height = job.codeHeight := by
  induction h with
  | expr =>
      simp only [Stmt.loopFreeAll, Stmt.loopFree, Bool.and_eq_true] at hfree
      refine ⟨hfree.1, ?_, rfl⟩
      simp only [codeHeight, Stmt.heightAll, Stmt.height]
      omega
  | stmt plain =>
      simp only [Stmt.loopFreeAll, Bool.and_eq_true] at hfree
      refine ⟨hfree.1, ?_, rfl⟩
      simp only [codeHeight, Stmt.heightAll]
      omega
  | afterExpr _ _ ih | afterStmt _ _ _ ih =>
      simp only [Stmt.loopFreeAll, Bool.and_eq_true] at hfree
      obtain ⟨hjob, hlt, hheight⟩ := ih hfree.2
      refine ⟨hjob, ?_, hheight⟩
      simp only [Stmt.heightAll]
      omega

/-- Code without loops calls for code without loops, which is part of it or in the
state. -/
theorem Calls.within (h : Calls host fuel job s job' s') (hjob : job.Within bound)
    (hs : s.Within bound) : job'.Within bound := by
  obtain ⟨hfree, hle⟩ := hjob
  cases h with
  | function _ found _ =>
      have hf := hs.functions _ _ found
      exact ⟨hf.loopFree, hf.height_le⟩
  | @lambda cell _ _ =>
      have hf := hs.closures cell
      exact ⟨hf.loopFree, hf.height_le⟩
  | invoke => exact ⟨rfl, Nat.zero_le bound⟩
  | body => exact ⟨hfree, hle⟩
  | started hstarts =>
      have hwithin := hstarts.within hfree
      exact ⟨hwithin.1, Nat.le_trans hwithin.2.1.le hle⟩
  | loop | loopTest | loopBody | again =>
      simp only [Job.loopFree, Stmt.loopFree] at hfree
      cases hfree
  | _ =>
      simp only [Job.loopFree, Arguments.loopFree, Expr.loopFree, Expr.loopFreeAll,
        Stmt.loopFree, Stmt.loopFreeAll, Arms.loopFree, Bool.and_eq_true] at hfree
      simp only [codeHeight, Arguments.height, Expr.height, Expr.heightAll, Stmt.height,
        Stmt.heightAll, Arms.height] at hle
      constructor
      · simp only [Job.loopFree, Arguments.loopFree, hfree]
      · simp only [codeHeight, Arguments.height]
        omega

/-- A job that is called for has less height left, unless it runs a body that has just
been entered. -/
theorem Calls.height_lt
    (h : Calls host fuel job s job' s') (hjob : job.loopFree = true)
    (houtside : job.bodies = 0) : job'.height < job.height := by
  cases h with
  | body => cases houtside
  | started hstarts =>
      have hwithin := hstarts.within hjob
      rw [hwithin.2.2]
      exact hwithin.2.1
  | loop | loopTest | loopBody | again =>
      simp only [Job.loopFree, Stmt.loopFree] at hjob
      cases hjob
  | _ =>
      simp only [height, codeHeight, Arguments.height, Expr.height, Expr.heightAll,
        Stmt.height, Stmt.heightAll, Arms.height]
      omega

/-- Running code makes closures of function literals in code without loops only, which are
no higher than that code. -/
theorem within_invariant (host : Host) (bound : Nat) :
    Invariant host (State.Within bound) fun job _ => job.Within bound := by
  constructor
  · intro fuel job s t t' hacts hjob ht
    exact ht.of_change hacts.change hjob
  · intro fuel job s job' s' hcalls hjob hs _
    exact hcalls.within hjob hs

/-! ## Enough steps -/

/-- For each call that may still nest, as many steps as a body of the given height can
take, and those of the job. -/
def enough (host : Host) (bound : Nat) (job : Job) (s : State) : Nat :=
  (host.maxDepth - s.depth) * (bound + 1) + job.height

theorem Calls.enough_lt
    (h : Calls host fuel job s job' s') (hjob : job.Within bound) :
    job'.enough host bound s' < job.enough host bound s := by
  have hdepth := h.depth_eq
  by_cases houtside : job.bodies = 0
  · have hlt := h.height_lt hjob.loopFree houtside
    rw [houtside, Nat.add_zero] at hdepth
    simp only [enough, hdepth]
    omega
  · cases h with
    | @body f _ _ _ _ admitted =>
        have hle : f.height ≤ bound := hjob.codeHeight_le
        have hcalls : host.maxDepth - s.depth = host.maxDepth - (s.depth + 1) + 1 := by
          omega
        simp only [enough, hdepth, bodies, hcalls, Nat.add_mul, height, codeHeight]
        exact Nat.lt_of_le_of_lt (Nat.add_le_add_left hle _) (by omega)
    | _ => exact absurd rfl houtside

/-- A chain of jobs that have not ended has used no more than enough steps. -/
theorem Active.fuel_le
    {entered left : Nat} {last : Job} {t : State}
    (h : Active host fuel job s entered left last t) (hjob : job.Within bound)
    (hs : s.Within bound) : fuel ≤ left + job.enough host bound s := by
  induction h with
  | here => exact Nat.le_add_right _ _
  | inside calls _ ih =>
      have hs' := (within_invariant host bound).holds_of_comesTo hjob hs calls.comesTo
      have hle := ih (calls.within hjob hs) hs'
      have hlt := calls.enough_lt hjob
      omega

theorem run_ne_exhausted
    (hjob : job.Within bound) (hs : s.Within bound)
    (hfuel : job.enough host bound s < fuel) : job.run host fuel s ≠ .exhausted := by
  intro hout
  obtain ⟨entered, last, t, hactive⟩ := exhausted_iff.mp hout
  have hle := hactive.fuel_le hjob hs
  omega

end Job

/-! ## Runs of programs -/

/-- There are only so many loaded functions and closures, so they have a common height. -/
theorem State.LoopFree.exists_within {s : State} (h : s.LoopFree) :
    ∃ bound, s.Within bound := by
  let loaded := (s.functions.entries.map fun entry => entry.2.height).sum
  let made := (s.store.closures.cells.toList.map fun c => c.function.height).sum
  have hloaded : ∀ name f, s.functions.get? name = some f → f.height ≤ loaded := by
    intro name f hf
    obtain ⟨before, after, hentries, -⟩ := List.lookup_eq_some_iff.mp hf
    apply List.le_sum_of_mem
    rw [hentries]
    simp
  have hmade : ∀ cell, (s.store.closures.get cell).function.height ≤ made + 1 := by
    intro cell
    by_cases hcell : cell < s.store.closures.cells.size
    · have hmem : (s.store.closures.get cell).function.height ≤ made := by
        apply List.le_sum_of_mem
        simp only [Pool.get, Array.getD, hcell, dif_pos]
        exact List.mem_map_of_mem (Array.getElem_mem_toList hcell)
      omega
    · simp only [Pool.get, Array.getD, hcell, dif_neg, not_false_eq_true]
      exact Nat.le_add_left 1 made
  refine ⟨loaded + (made + 1), ?_, ?_⟩
  · intro name f hf
    exact ⟨h.functions name f hf, Nat.le_add_right_of_le (hloaded name f hf)⟩
  · intro cell
    exact ⟨h.closures cell, Nat.le_add_left_of_le (hmade cell)⟩

namespace Job

/-- The job comes to ask for an array with more slots than a block of memory holds. -/
def Oversteps (host : Host) (job : Job) (s : State) : Prop :=
  ∃ fuel entered left last t t', Active host fuel job s entered (left + 1) last t ∧
    Overflows host left last t t'

theorem oversteps_iff
    {host : Host} {job : Job} {s : State}
    (hsettles : ∀ fuel, (job.run host fuel s).Settles (job.run host (fuel + 1) s)) :
    job.Oversteps host s ↔ ∃ t, EndsWith (fun fuel => job.run host fuel s)
      (.crashed t) := by
  constructor
  · rintro ⟨fuel, entered, left, last, u, t, hactive, hoverflows⟩
    exact ⟨t, endsWith_of_eq hsettles
      (crashed_iff.mpr ⟨entered, left, last, u, hactive, hoverflows⟩) nofun⟩
  · rintro ⟨t, -, steps, hsteps⟩
    obtain ⟨entered, left, last, u, hactive, hoverflows⟩ :=
      crashed_iff.mp (hsteps steps (Nat.le_refl steps))
    exact ⟨steps, entered, left, last, u, t, hactive, hoverflows⟩

end Job

namespace Interpreter

variable {i : Interpreter}

/-- With steps enough, a use ends. -/
def Terminates {α : Type} (ask : Nat → Reply α) : Prop :=
  ∃ reply, EndsWith ask reply

/-- With steps enough, a use ends with a value or with an error, and the interpreter can
be used on. -/
def Answers {α : Type} (ask : Nat → Reply α) : Prop :=
  ∃ reply i, EndsWith ask reply ∧ reply.state? = some i

section Call

variable {name : String} {values : List Value}

theorem callJob_settles (i : Interpreter) (name : String) (values : List Value)
    (fuel : Nat) :
    ((Job.callNamed globalScope name (.ready values)).run i.host fuel i.state).Settles
      ((Job.callNamed globalScope name (.ready values)).run i.host (fuel + 1) i.state) :=
  callNamed_settles i.host fuel globalScope name (.ready values) i.state

/-- A call ends as its job does. -/
theorem call_endsWith {o : Outcome State Failure Value}
    (h : EndsWith (fun fuel => (Job.callNamed globalScope name (.ready values)).run
      i.host fuel i.state) o) :
    EndsWith (fun fuel => i.call fuel name values)
      (o.lift (fun s => { i with state := s }) .runtime) :=
  h.lift _ _

theorem callJob_endsWith (hi : i.state.LoopFree) (name : String) (values : List Value) :
    ∃ o, EndsWith (fun fuel => (Job.callNamed globalScope name (.ready values)).run
      i.host fuel i.state) o := by
  obtain ⟨bound, hs⟩ := hi.exists_within
  let job := Job.callNamed globalScope name (.ready values)
  have hjob : job.Within bound := ⟨rfl, Nat.zero_le bound⟩
  have hends := Job.run_ne_exhausted hjob hs
    (Nat.lt_succ_self (job.enough i.host bound i.state))
  exact ⟨_, endsWith_of_eq (i.callJob_settles name values) rfl hends⟩

/-- A call ends, and gives an answer unless it comes to ask for too large an array. -/
theorem call_ends (hi : i.state.LoopFree) (name : String) (values : List Value) :
    (Terminates fun fuel => i.call fuel name values) ∧
      ((Answers fun fuel => i.call fuel name values) ↔
        ¬(Job.callNamed globalScope name (.ready values)).Oversteps i.host i.state) := by
  obtain ⟨o, ho⟩ := callJob_endsWith hi name values
  have hcall := call_endsWith ho
  refine ⟨⟨_, hcall⟩, ?_, ?_⟩
  · rintro ⟨reply, i', hreply, hstate⟩ hoversteps
    obtain ⟨t, ht⟩ := (Job.oversteps_iff (i.callJob_settles name values)).mp hoversteps
    cases ho.unique ht
    cases hreply.unique hcall
    cases hstate
  · intro hfits
    cases o with
    | done v s => exact ⟨_, _, hcall, rfl⟩
    | failed failure s => exact ⟨_, _, hcall, rfl⟩
    | crashed t =>
        exact absurd ((Job.oversteps_iff (i.callJob_settles name values)).mpr ⟨t, ho⟩)
          hfits
    | exhausted => exact absurd rfl ho.1

end Call

theorem declared_loopFree {p : Program} (hi : i.state.LoopFree) (hp : p.loopFree = true) :
    (i.declared p).state.LoopFree := by
  constructor
  · exact Function.forall_declareAll hi.functions (List.all_eq_true.mp hp)
  · exact hi.closures

/-- The run of a program comes to ask for an array with more slots than a block of memory
holds. -/
def RunOversteps (i : Interpreter) (p : Program) : Prop :=
  p.check = .ok () ∧ (Job.callNamed globalScope i.settings.entry (.ready [])).Oversteps
    i.host (i.declared p).state

theorem run_ends (hi : i.state.LoopFree) {p : Program} (hp : p.loopFree = true) :
    (Terminates fun fuel => i.run fuel p) ∧
      ((Answers fun fuel => i.run fuel p) ↔ ¬i.RunOversteps p) := by
  cases hcheck : p.check with
  | error e =>
      have hends : EndsWith (fun fuel => i.run fuel p) (.failed (.compile e) i) :=
        ⟨nofun, 0, fun fuel _ => run_of_error hcheck fuel⟩
      refine ⟨⟨_, hends⟩, ⟨?_, ?_⟩⟩
      · rintro - ⟨hok, -⟩
        cases hcheck.symm.trans hok
      · intro _
        exact ⟨_, i, hends, rfl⟩
  | ok _ =>
      simp only [run_of_ok hcheck, RunOversteps, hcheck, true_and]
      exact call_ends (declared_loopFree hi hp) i.settings.entry []

end Interpreter

theorem State.initial_loopFree (console : Console) :
    (State.initial console).LoopFree := by
  constructor
  · intro name f hf
    cases hf
  · intro cell
    rfl

/-- Where no `while` occurs, neither in what is loaded nor in what the state can run,
every run of a program and every call of a function ends, under every recursion limit. It
ends with a value or with an error, unless it comes to ask for an array with more slots
than a block of memory holds, and so crashes. Nor does it take a bound to print or to
compare containers that contain themselves: the rules for both, which know none, come to
an end. -/
theorem loop_free_code_ends {i : Interpreter} (hi : i.state.LoopFree) :
    (∀ p : Program, p.loopFree = true →
      (Interpreter.Terminates fun fuel => i.run fuel p) ∧
      ((Interpreter.Answers fun fuel => i.run fuel p) ↔ ¬i.RunOversteps p)) ∧
    (∀ (name : String) (values : List Value),
      (Interpreter.Terminates fun fuel => i.call fuel name values) ∧
      ((Interpreter.Answers fun fuel => i.call fuel name values) ↔
        ¬(Job.callNamed globalScope name (.ready values)).Oversteps i.host i.state)) ∧
    (∀ (store : Store) (v : Value), store.Renders [] v (store.render v)) ∧
    (∀ (store : Store) (v w : Value), store.Compares [] [(v, w)]
      (store.structuralEq v w)) := by
  refine ⟨?_, ?_, ?_, ?_⟩
  · intro p hp
    exact Interpreter.run_ends hi hp
  · intro name values
    exact Interpreter.call_ends hi name values
  · intro store v
    exact store.renders_render v
  · intro store v w
    exact Store.compares_structuralEq store v w

/-- A list that contains itself is printed, and a function literal is called on itself,
without end but for the limit. -/
theorem loop_free_code_ends_self_application :
    ∃ p, Program.ofSource
        ("fun main() \x7b var x = new.list() x.add(x) print(x) var f = fun (g) \x7b " ++
          "g.invoke(g) \x7d f.invoke(f) \x7d") =
          .ok p ∧
      p.loopFree = true ∧
      let i := Interpreter.fresh ⟨"main", 3⟩ .empty .asBound (.ofLines [] none)
      (i.run 60 p).runtimeCause? = some (.stackOverflow 3) ∧
      (Interpreter.Terminates fun fuel => i.run fuel p) ∧ ¬i.RunOversteps p := by
  let i := Interpreter.fresh ⟨"main", 3⟩ .empty .asBound (.ofLines [] none)
  have hparses : ((Program.ofSource
      ("fun main() \x7b var x = new.list() x.add(x) print(x) var f = fun (g) \x7b " ++
        "g.invoke(g) \x7d f.invoke(f) \x7d")).toOption.map
      fun p => (p.loopFree, (i.run 60 p).runtimeCause?)) =
        some (true, some (.stackOverflow 3)) := by
    decide +kernel
  obtain ⟨p, hp, hrun⟩ := Option.map_eq_some_iff.mp hparses
  obtain ⟨hfree, hcause⟩ := Prod.mk.inj hrun
  have hi : i.state.LoopFree := State.initial_loopFree _
  obtain ⟨hends, hanswers⟩ := (loop_free_code_ends hi).1 p hfree
  obtain ⟨f, i', hfailed, -⟩ := Outcome.eq_failed_of_runtimeCause? hcause
  have hanswer : Interpreter.Answers fun fuel => i.run fuel p :=
    ⟨_, i', endsWith_of_eq (i.run_settles p) hfailed nofun, rfl⟩
  exact ⟨p, except_eq_ok_of_toOption hp, hfree, hcause, hends, hanswers.mp hanswer⟩

/-- Whether a computation has crashed. -/
def Outcome.isCrash {σ ε α : Type} : Outcome σ ε α → Bool
  | crashed _ => true
  | _ => false

theorem Outcome.exists_eq_crashed {σ ε α : Type} {o : Outcome σ ε α}
    (h : o.isCrash = true) : ∃ s, o = .crashed s := by
  cases o with
  | crashed s => exact ⟨s, rfl⟩
  | done | failed | exhausted => cases h

/-- A function without loops that asks for as many slots as there are positive ints gives
no answer. -/
theorem loop_free_code_crashes_on_large_array :
    ∃ p, Program.ofSource "fun main() \x7b return new.array(9223372036854775807) \x7d" =
        .ok p ∧
      p.loopFree = true ∧
      ∃ i, (Interpreter.fresh {} .empty .asBound (.ofLines [] none)).run 60 p =
        .crashed i := by
  let i := Interpreter.fresh {} .empty .asBound (.ofLines [] none)
  have hparses :
      ((Program.ofSource
      "fun main() \x7b return new.array(9223372036854775807) \x7d").toOption.map
      fun p => (p.loopFree, (i.run 60 p).isCrash)) = some (true, true) := by
    decide +kernel
  obtain ⟨p, hp, hrun⟩ := Option.map_eq_some_iff.mp hparses
  obtain ⟨hfree, hcrash⟩ := Prod.mk.inj hrun
  exact ⟨p, except_eq_ok_of_toOption hp, hfree, Outcome.exists_eq_crashed hcrash⟩

end HandleScript
