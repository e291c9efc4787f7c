import HandleScript.Proofs.ControlFlow
import HandleScript.Proofs.Parser.Spans
import HandleScript.Proofs.Requests

/-!
# Where runs of a source fail

A run of a source loads its program and calls the entry function. When that fails at run
time, either the call of the entry function failed before any code ran, and the failure
has no place; or the failure is placed at a method, a variable or a condition of the
program, the one that belongs to the innermost call that failed, and so in the source.
Statements that a session runs are called by nothing, so all their failures have places.
-/

namespace HandleScript

/-- The failure with which a use ends at run time. -/
def Outcome.runtimeFailure? {σ α : Type} : Outcome σ Error α → Option Failure
  | .failed (.runtime f) _ => some f
  | _ => none

theorem Outcome.eq_failed_of_runtimeFailure?
    {σ α : Type} {o : Outcome σ Error α} {f : Failure} (h : o.runtimeFailure? = some f) :
    ∃ s, o = .failed (.runtime f) s := by
  cases o with
  | done | crashed | exhausted => cases h
  | failed e s =>
      cases e with
      | compile e => cases h
      | runtime f' =>
          cases h
          exact ⟨s, rfl⟩

theorem Outcome.eq_failed_of_lift
    {σ τ ε δ α : Type} {o : Outcome σ ε α} {state : σ → τ} {wrap : ε → δ} {e : δ} {t : τ}
    (h : o.lift state wrap = .failed e t) : ∃ f s, o = .failed f s ∧ e = wrap f := by
  cases o with
  | done | crashed | exhausted => cases h
  | failed f s =>
      cases h
      exact ⟨f, s, rfl, rfl⟩

/-! ## The entry call -/

namespace Program

/-- The state in which a program has been loaded and nothing has run. -/
def loaded (p : Program) (console : Console) : State :=
  { State.initial console with functions := p.functionMap }

/-- The call of the entry function fails by itself for this cause. -/
inductive EntryFails (p : Program) (settings : Settings) (listing : Listing)
    (console : Console) : Cause → Prop
  | undefined (unknown : Builtin.ofName? settings.entry = none)
      (undeclared : p.functionMap.get? settings.entry = none) :
      EntryFails p settings listing console
        (undefinedFunction listing p.functionMap settings.entry)
  | builtin {builtin : Builtin} {f : Failure} {s : State}
      (found : Builtin.ofName? settings.entry = some builtin)
      (failed : builtin.call [] (p.loaded console) = .failed f s) :
        EntryFails p settings listing console f.cause
  | arity {f : Function} (unknown : Builtin.ofName? settings.entry = none)
      (declared : p.functionMap.get? settings.entry = some f) (params : f.params ≠ []) :
      EntryFails p settings listing console (.arityMismatch f.name.node f.params.length 0)
  | depth {f : Function} (unknown : Builtin.ofName? settings.entry = none)
      (declared : p.functionMap.get? settings.entry = some f) (params : f.params = [])
      (limit : settings.maxDepth = 0) :
        EntryFails p settings listing console (.stackOverflow 0)

theorem loaded_madeOf (p : Program) (console : Console) :
    (p.loaded console).MadeOf (· ∈ p.nodes) := by
  intro f hf
  cases hf with
  | closure cell => exact fun n hn => nomatch hn
  | @loaded name _ hloaded =>
      have hall : ∀ name g, p.functionMap.get? name = some g →
          ∀ n ∈ g.nodes, n ∈ p.nodes := by
        refine Function.forall_declareAll (fun name g hg => nomatch hg) fun g hg n hn =>
          ?_
        exact List.mem_flatMap.mpr ⟨g, hg, hn⟩
      exact hall name f hloaded

theorem loaded_checked {p : Program} (h : p.check = .ok ()) (console : Console) :
    (p.loaded console).Checked := by
  refine ⟨?_, (State.initial_checked console).closures⟩
  exact Function.forall_declareAll (State.initial_checked console).functions fun f hf =>
    checked_of_mem (except_mapError_eq_ok h) hf

end Program

namespace Job

variable {host : Host} {fuel scope : Nat} {name : String} {values : List Value}
  {s : State} {stack : List Job}
  {raised : Failure}

/-- Values that are there need no evaluation. -/
theorem not_fails_force_ready :
    ¬ Fails host fuel (.force (.ready values)) s stack raised := by
  intro h
  cases h with
  | raised raises => cases raises
  | within calls _ => cases calls

theorem force_ready {values' : List Value} {t : State}
    (h : HandleScript.force host fuel (.ready values) s = .done values' t) :
    values' = values ∧ t = s := by
  cases fuel with
  | zero => cases h
  | succ fuel =>
      cases h
      exact ⟨rfl, rfl⟩

/-- A call on values that fails without a place raises the failure itself, or the function
does before its body runs. -/
theorem Fails.of_no_place
    (h : Fails host fuel (.callNamed scope name (.ready values)) s stack raised)
    (hplace : raised.span.or (innermostCall stack) = none) :
    ∃ fuel', Raises host fuel' (.callNamed scope name (.ready values)) s raised ∨
      ∃ f parent, Builtin.ofName? name = none ∧ s.functions.get? name = some f ∧
        Raises host fuel' (.callFunction f values parent) s raised := by
  cases h with
  | raised raises => exact ⟨_, .inl raises⟩
  | within calls rest =>
      cases calls with
      | builtinArgs => exact absurd rest not_fails_force_ready
      | functionArgs => exact absurd rest not_fails_force_ready
      | function unknown found before =>
          obtain ⟨rfl, rfl⟩ := force_ready before
          cases rest with
          | raised raises => exact ⟨_, .inr ⟨_, _, unknown, found, raises⟩⟩
          | within calls rest =>
              -- Inside the body, every failure has a place.
              cases calls with
              | body =>
                  refine absurd ?_ (rest.place_ne_none id)
                  simp only [innermostCall, calling, Option.or_none] at hplace
                  exact hplace

end Job

/-- The entry call that fails without a place is refused, for one of four reasons. -/
theorem Program.entryFails_of_no_place
    {p : Program} {settings : Settings} {files : Files} {listing : Listing}
    {console : Console} {fuel : Nat} {stack : List Job} {raised : Failure}
    (h : Job.Fails ⟨settings.maxDepth, files, listing⟩ fuel
      (.callNamed globalScope settings.entry (.ready [])) (p.loaded console) stack raised)
    (hplace : raised.span.or (Job.innermostCall stack) = none)
    (hplain : raised.cause.Plain) :
    p.EntryFails settings listing console raised.cause := by
  obtain ⟨fuel', hraises | ⟨f, parent, hunknown, hdeclared, hraises⟩⟩ :=
    h.of_no_place hplace
  · cases hraises with
    | builtin found before failed =>
        obtain ⟨rfl, rfl⟩ := Job.force_ready before
        exact .builtin found failed
    | undefined unknown unfound => exact .undefined unknown unfound
  · cases hraises with
    | arity arity =>
        exact .arity hunknown hdeclared fun hnil => arity (congrArg List.length hnil)
    | overflow arity refused =>
        have hlimit : settings.maxDepth = 0 := by
          have hzero : (p.loaded console).depth = 0 := rfl
          simp only [hzero] at refused
          omega
        simp only [hlimit]
        exact .depth hunknown hdeclared (List.length_eq_zero_iff.mp arity) hlimit
    | escaped => exact absurd rfl hplain

/-! ## Runs of a source -/

/-- A run of a source that fails at run time is a call of the entry function that
fails. -/
theorem Interpreter.runSource_eq_runtime
    {settings : Settings} {files : Files} {listing : Listing} {console : Console}
    {fuel : Nat} {source : String} {f : Failure} {i : Interpreter}
    (h : (fresh settings files listing console).runSource fuel source =
      .failed (.runtime f) i) :
    ∃ p s, Program.ofSource source = .ok p ∧ p.check = .ok () ∧
      callNamed ⟨settings.maxDepth, files, listing⟩ fuel globalScope settings.entry
          (.ready []) (p.loaded console) =
        .failed f s := by
  unfold runSource at h
  cases hsource : Program.ofSource source with
  | error e =>
      rw [hsource] at h
      cases h
  | ok p =>
      rw [hsource] at h
      cases hcheck : p.check with
      | error e =>
          have hrun := h.symm.trans (run_of_error hcheck fuel)
          cases hrun
      | ok _ =>
          have hrun := (run_of_ok hcheck fuel).symm.trans h
          obtain ⟨f', s, hcall, hf⟩ := Outcome.eq_failed_of_lift hrun
          cases hf
          exact ⟨p, s, rfl, hcheck, hcall⟩

/-- A run of a source on a fresh interpreter that fails at run time either fails in the
call of the entry function, and has no place; or its place is that of a method, a variable
or a condition of the program, it lies in the source, and it is the place that the failure
was raised with or else that of the innermost call on the stack. Statements that fail do
so with a place. -/
theorem failures_of_runs_are_located :
    (∀ settings files listing console fuel source f i,
      (Interpreter.fresh settings files listing console).runSource fuel source =
        .failed (.runtime f) i →
      ∃ p, Program.ofSource source = .ok p ∧
        (f.span = none ∧ p.EntryFails settings listing console f.cause ∨
          ∃ span sort, f.span = some span ∧ NodeSort.IsSite sort ∧
              ⟨sort, span⟩ ∈ p.nodes ∧ span.LiesIn source ∧
            ∃ stack raised, Job.Fails ⟨settings.maxDepth, files, listing⟩ fuel
                (.callNamed globalScope settings.entry (.ready []))
                  (p.loaded console) stack raised ∧
              f = ⟨raised.cause, raised.span.or (Job.innermostCall stack)⟩)) ∧
    (∀ host fuel scope last stmts s f s',
      evalStatements host fuel scope last stmts s = .failed f s' →
        ∃ span, f.span = some span) := by
  refine ⟨?_, fun _ _ _ _ _ _ _ _ hfailed => Job.evalStatements_failed_place hfailed⟩
  intro settings files listing console fuel source f i hfailed
  obtain ⟨p, s, hsource, hcheck, hcall⟩ := Interpreter.runSource_eq_runtime hfailed
  have hfailed' : (Job.callNamed globalScope settings.entry (.ready [])).run
      ⟨settings.maxDepth, files, listing⟩ fuel
      (p.loaded console) = .failed f s := hcall
  obtain ⟨stack, raised, hfails, hf⟩ := Job.failed_iff.mp ⟨s, hfailed'⟩
  have hplain : raised.cause.Plain := by
    have hsound := (RunsSoundly.always ⟨settings.maxDepth, files, listing⟩ fuel).callNamed
        globalScope settings.entry
      (.ready []) trivial _ (Program.loaded_checked hcheck console)
    rw [hcall, hf] at hsound
    exact hsound.2
  refine ⟨p, hsource, ?_⟩
  cases hplace : raised.span.or (Job.innermostCall stack) with
  | none =>
      have hentry := Program.entryFails_of_no_place hfails hplace hplain
      exact .inl ⟨hf ▸ hplace, hf ▸ hentry⟩
  | some span =>
      obtain ⟨sort, hsite, hnode⟩ := hfails.site (fun n hn => nomatch hn)
        (p.loaded_madeOf console) hplain hplace
      have hstands := Program.ofSource_liesIn source
      rw [hsource] at hstands
      exact .inr ⟨span, sort, hf ▸ hplace, hsite, hnode, hstands _ hnode,
        stack, raised, hfails, hf⟩

/-- A function literal that another function calls in a loop divides by zero: the failure
is placed at the division, in the third line. A program without an entry function fails
without a place, and a statement fails with one. -/
theorem failures_of_runs_are_located_division :
    let source := "fun apply(g) \x7b return g.invoke(0) \x7d\nfun main() \x7b\n" ++
      "  for (x in new.list(1, 2)) \x7b apply(fun (n) \x7b return x.divide(n) \x7d) " ++
      "\x7d\n\x7d"
    let start := Interpreter.fresh {} .empty .asBound (.ofLines [] none)
    (∃ i p sort, start.runSource 60 source =
        .failed (.runtime ⟨.divisionByZero, some ⟨104, 110, 3, 56⟩⟩) i ∧
      Program.ofSource source = .ok p ∧ NodeSort.IsSite sort ∧
        ⟨sort, ⟨104, 110, 3, 56⟩⟩ ∈ p.nodes ∧
      Span.LiesIn source ⟨104, 110, 3, 56⟩) ∧
    (∃ i p, start.runSource 60 "fun f() \x7b \x7d" =
        .failed (.runtime ⟨.undefinedFunction "main" none, none⟩) i ∧
      Program.ofSource "fun f() \x7b \x7d" = .ok p ∧
        p.EntryFails {} .asBound (.ofLines [] none) (.undefinedFunction "main" none)) ∧
    ∃ f s, evalStatements start.host 9 globalScope none
      [.expr (.call (.literal .void default) default [] default) default]
          start.state = .failed f s ∧
        ∃ span, f.span = some span := by
  intro source start
  have hdivision : (start.runSource 60 source).runtimeFailure? =
      some ⟨.divisionByZero, some ⟨104, 110, 3, 56⟩⟩ := by decide +kernel
  have hentry : (start.runSource 60 "fun f() \x7b \x7d").runtimeFailure? =
      some ⟨.undefinedFunction "main" none, none⟩ := by decide +kernel
  obtain ⟨i, hfailed⟩ := Outcome.eq_failed_of_runtimeFailure? hdivision
  obtain ⟨i', hfailed'⟩ := Outcome.eq_failed_of_runtimeFailure? hentry
  obtain ⟨f, s, hstatement⟩ : ∃ f s, evalStatements start.host 9 globalScope none
      [.expr (.call (.literal .void default) default [] default) default] start.state =
        .failed f s := ⟨_, _, rfl⟩
  refine ⟨?_, ?_, f, s, hstatement,
    failures_of_runs_are_located.2 _ _ _ _ _ _ _ _ hstatement⟩
  · obtain ⟨p, hp, ⟨hnone, -⟩ | ⟨span, sort, hspan, hsite, hnode, hlies, -⟩⟩ :=
      failures_of_runs_are_located.1 _ _ _ _ _ _ _ _ hfailed
    · cases hnone
    · cases hspan
      exact ⟨i, p, sort, hfailed, hp, hsite, hnode, hlies⟩
  · obtain ⟨p, hp, ⟨-, hfails⟩ | ⟨span, sort, hspan, -⟩⟩ :=
      failures_of_runs_are_located.1 _ _ _ _ _ _ _ _ hfailed'
    · exact ⟨i', p, hfailed', hp, hfails⟩
    · cases hspan

end HandleScript
