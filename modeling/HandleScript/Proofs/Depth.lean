import HandleScript.Proofs.Evolution
import HandleScript.Proofs.History

/-!
# Nested calls

A state counts the calls that have entered a body and have not left it. However an
evaluation ends, it leaves the counter where it found it; and while it goes on, the
counter has grown by the number of bodies along the chain of jobs that have not ended, and
stays within the host's limit. So whatever has failed in an interpreter or a session, the
next use of it may nest as many calls as the first one.
-/

namespace HandleScript

/-! ## Evaluations that have ended -/

namespace Outcome

variable {σ τ ε δ α β : Type}

theorem state?_map (f : α → β) (o : Outcome σ ε α) : (o.map f).state? = o.state? := by
  cases o <;> rfl

theorem state?_lift (f : σ → τ) (wrap : ε → δ) (o : Outcome σ ε α) :
    (o.lift f wrap).state? = o.state?.map f := by
  cases o <;> rfl

end Outcome

namespace Job

variable {host : Host} {fuel : Nat} {s s' : State}

theorem depth_eq_of_state? (job : Job) (h : (job.run host fuel s).state? = some s') :
    s'.depth = s.depth := by
  have hkept := (job.forward host fuel s).mono (fun _ _ hd => hd.depth) fun _ _ hf =>
    hf.depth
  exact hkept.of_state? h

theorem depth_eq_of_done (job : Job) {v : job.Result}
    (h : job.run host fuel s = .done v s') : s'.depth = s.depth :=
  job.depth_eq_of_state? (by rw [h]; rfl)

/-! ## Evaluations that go on -/

theorem Starts.depth_eq
    {scope : Nat} {stmts : List Stmt} {job : Job}
    (h : Starts host fuel scope stmts s job s') : s'.depth = s.depth := by
  induction h with
  | expr => rfl
  | stmt plain => rfl
  | afterExpr before _ ih => exact ih.trans (depth_eq_of_done (.eval _ _) before)
  | afterStmt plain before _ ih => exact ih.trans (depth_eq_of_done (.exec _ _) before)

/-- The job that is called for finds one call more if a body is entered on the way, and as
many as before if not. -/
theorem Calls.depth_eq {job job' : Job} (h : Calls host fuel job s job' s') :
    s'.depth = s.depth + job.bodies := by
  cases h with
  | receiver | first | deferred | named | operation | invokeArgs | operand | operands
  | builtinArgs | functionArgs | lambda | statement | opened | arms | loop | init | value
  | result | block | expr | otherwise | armTest | loopTest | tested | body => rfl
  | method before | others before => exact depth_eq_of_done (.eval _ _) before
  | invoke before | function _ _ before => exact depth_eq_of_done (.force _) before
  | statements before => exact depth_eq_of_done (.exec _ _) before
  | armBody before | armRest before | loopBody before =>
      exact depth_eq_of_done (.condition _ _) before
  | again holds before _ =>
      have hbody := depth_eq_of_done (.execBody _ _) before
      exact hbody.trans (depth_eq_of_done (.condition _ _) holds)
  | started hstarts => exact hstarts.depth_eq

/-- A body is entered within the limit only. -/
theorem Calls.bodies_eq_zero_or_admitted {job job' : Job}
    (h : Calls host fuel job s job' s') :
    job.bodies = 0 ∨ s.depth + job.bodies ≤ host.maxDepth := by
  cases h with
  | body _ admitted => exact .inr admitted
  | _ => exact .inl rfl

theorem Calls.depth_le
    {job job' : Job} (h : Calls host fuel job s job' s') (hs : s.depth ≤ host.maxDepth) :
    s'.depth ≤ host.maxDepth := by
  rw [h.depth_eq]
  rcases h.bodies_eq_zero_or_admitted with hzero | hadmitted
  · rwa [hzero]
  · exact hadmitted

/-- Along a chain of jobs that have not ended, the counter grows by the bodies that have
been entered. -/
theorem Active.depth_eq
    {job last : Job} {entered left : Nat}
    (h : Active host fuel job s entered left last s') : s'.depth = s.depth + entered := by
  induction h with
  | here => rfl
  | @inside _ entered _ _ _ _ _ _ _ calls _ ih => rw [ih, calls.depth_eq, Nat.add_assoc]

theorem Active.depth_le
    {job last : Job} {entered left : Nat}
    (h : Active host fuel job s entered left last s') (hs : s.depth ≤ host.maxDepth) :
    s'.depth ≤ host.maxDepth := by
  induction h with
  | here => exact hs
  | inside calls _ ih => exact ih (calls.depth_le hs)

end Job

/-! ## Interpreters and sessions -/

/-- As many calls are open as before, of as many that may be. -/
def Interpreter.SameDepth (i i' : Interpreter) : Prop :=
  i'.settings = i.settings ∧ i'.state.depth = i.state.depth

namespace Interpreter

variable {i i' : Interpreter}

theorem load_sameDepth {p : Program} (h : (i.load p).state? = some i') :
    i.SameDepth i' := by
  obtain ⟨e, -, hload⟩ | ⟨-, hload⟩ := i.load_cases p
  · rw [hload] at h
    cases h
    exact ⟨rfl, rfl⟩
  · rw [hload] at h
    cases h
    exact ⟨rfl, rfl⟩

theorem execute_sameDepth
    {fuel : Nat} (job : Job)
    (h : (i.execute fun host => job.run host fuel).state? = some i') :
    i.SameDepth i' := by
  obtain ⟨settings, files, listing, s⟩ := i
  rw [execute, Outcome.state?_lift] at h
  obtain ⟨s', hs', rfl⟩ := Option.map_eq_some_iff.mp h
  exact ⟨rfl, job.depth_eq_of_state? hs'⟩

theorem call_sameDepth
    {fuel : Nat} {name : String} {values : List Value}
    (h : (i.call fuel name values).state? = some i') : i.SameDepth i' :=
  execute_sameDepth (.callNamed globalScope name (.ready values)) h

theorem evalIn_sameDepth
    {fuel scope : Nat} {stmts : List Stmt}
    (h : (i.evalIn fuel scope stmts).state? = some i') : i.SameDepth i' := by
  have hinput : (i.execute fun host => (Job.input scope stmts).run host
    (fuel + 1)).state? = some i' := h
  exact execute_sameDepth _ hinput

theorem run_sameDepth {fuel : Nat} {p : Program} (h : (i.run fuel p).state? = some i') :
    i.SameDepth i' := by
  cases hcheck : p.check with
  | error e =>
      rw [run_of_error hcheck] at h
      cases h
      exact ⟨rfl, rfl⟩
  | ok _ =>
      rw [run_of_ok hcheck] at h
      have hcalled := call_sameDepth h
      exact ⟨hcalled.1, hcalled.2⟩

theorem use_sameDepth {u : Use} (h : (i.use u).state? = some i') : i.SameDepth i' := by
  cases u with
  | load p =>
      rw [use, Outcome.state?_map] at h
      exact load_sameDepth h
  | run fuel p =>
      rw [use, Outcome.state?_map] at h
      exact run_sameDepth h
  | call fuel name values =>
      rw [use, Outcome.state?_map] at h
      exact call_sameDepth h
  | make content data =>
      cases h
      exact ⟨rfl, rfl⟩
  | define name v =>
      cases h
      exact ⟨rfl, rfl⟩

theorem Reached.depth_eq_zero
    {allowed : Interpreter → Use → Prop} (h : Reached allowed i) : i.state.depth = 0 := by
  induction h with
  | fresh => rfl
  | next before permitted hnext ih => exact (use_sameDepth hnext).2.trans ih

end Interpreter

namespace Session

variable {session session' : Session}

theorem use_sameDepth {u : Use} (h : (session.use u).state? = some session') :
    session.interpreter.SameDepth session'.interpreter := by
  cases u with
  | reset =>
      cases h
      exact ⟨rfl, rfl⟩
  | eval fuel input =>
      rw [use] at h
      cases hread : Session.read input with
      | error e =>
          rw [eval_of_error hread] at h
          cases h
          exact ⟨rfl, rfl⟩
      | ok asked =>
          rw [eval_of_read hread] at h
          cases asked with
          | declarations p =>
              rw [perform, Outcome.state?_map, Outcome.state?_lift] at h
              obtain ⟨i', hi', rfl⟩ := Option.map_eq_some_iff.mp h
              exact Interpreter.load_sameDepth hi'
          | statements stmts =>
              rw [perform, Outcome.state?_lift] at h
              obtain ⟨i', hi', rfl⟩ := Option.map_eq_some_iff.mp h
              exact Interpreter.evalIn_sameDepth hi'

theorem Reached.depth_eq_zero
    {allowed : Interpreter → Interpreter.Use → Prop} (h : Reached allowed session) :
    session.interpreter.state.depth = 0 := by
  induction h with
  | new before => exact before.depth_eq_zero
  | next before hnext ih => exact (use_sameDepth hnext).2.trans ih

end Session

/-- However a job of the evaluator, a use of an interpreter or an input of a session ends,
it leaves the counter of open calls and its limit as they were. While a job goes on, the
counter is what it started from and the bodies entered since and not left, and never
passes the limit; that chains of jobs miss nothing of a run is what a run out of steps
shows. So between two inputs of a session no call is open, whatever has failed before. -/
theorem depth_counts_open_bodies :
    (∀ host fuel (job : Job) s s', (job.run host fuel s).state? = some s' →
      s'.depth = s.depth) ∧
    (∀ host fuel (job : Job) s, s.depth ≤ host.maxDepth →
      ∀ entered left last s', Job.Active host fuel job s entered left last s' →
        s'.depth = s.depth + entered ∧ s'.depth ≤ host.maxDepth) ∧
    (∀ host fuel (job : Job) s,
      job.run host fuel s = .exhausted ↔ ∃ entered last s',
        Job.Active host fuel job s entered 0 last s') ∧
    (∀ (i : Interpreter) u i', (i.use u).state? = some i' → i.SameDepth i') ∧
    (∀ (i : Interpreter) fuel scope stmts i', (i.evalIn fuel scope stmts).state? =
      some i' → i.SameDepth i') ∧
    (∀ (session : Session) u session', (session.use u).state? = some session' →
      session.interpreter.SameDepth session'.interpreter) ∧
    (∀ session, Session.Reached (fun _ _ => True) session →
      session.interpreter.state.depth = 0) := by
  refine ⟨?_, ?_, ?_, ?_, ?_, ?_, ?_⟩
  · intro host fuel job s s' hends
    exact job.depth_eq_of_state? hends
  · intro host fuel job s hs entered left last s' hactive
    exact ⟨hactive.depth_eq, hactive.depth_le hs⟩
  · intro host fuel job s
    exact Job.exhausted_iff
  · intro i u i' hends
    exact Interpreter.use_sameDepth hends
  · intro i fuel scope stmts i' hends
    exact Interpreter.evalIn_sameDepth hends
  · intro session u session' hends
    exact Session.use_sameDepth hends
  · intro session hreached
    exact hreached.depth_eq_zero

/-- A call of an empty function counts one body while the body runs. A function that calls
itself without end, in a session that lets three calls nest, fails in the fourth call, and
the session it leaves has no call open. -/
theorem depth_counts_open_bodies_overflow :
    (∃ s', Job.Active ⟨1, .empty, .asBound⟩ 1 (.callFunction default [] globalScope)
        (.initial (.ofLines [] none)) 1 0
        (.execAll 1 []) s' ∧ s'.depth = 0 + 1 ∧ s'.depth ≤ 1) ∧
    ∃ session, Session.Reached (fun _ _ => True) session ∧
      ∃ f session',
        session.use (.eval 60 "f(1)") = .failed (.runtime f) session' ∧
          f.cause = .stackOverflow 3 ∧
        session.interpreter.SameDepth session'.interpreter ∧
          session'.interpreter.state.depth = 0 := by
  obtain ⟨-, hactive, -, -, -, huse, hzero⟩ := depth_counts_open_bodies
  have hbody : Job.Active ⟨1, .empty, .asBound⟩ 1 (.callFunction default [] globalScope)
      (.initial (.ofLines [] none)) 1 0
      (.execAll 1 [])
        ((State.initial (.ofLines [] none)).enter globalScope default []).2 :=
    .inside (.body rfl (Nat.le_refl 1)) .here
  refine ⟨⟨_, hbody, hactive _ _ _ _ (Nat.zero_le 1) _ _ _ _ hbody⟩, ?_⟩
  let start := Session.new (.fresh ⟨"main", 3⟩ .empty .asBound (.ofLines [] none))
  let first := start.use (.eval 60 "fun f(n) \x7b f(n.plus(1)) \x7d")
  have hends : first.state?.isSome := by decide +kernel
  have hcause : ((first.state?.getD default).use (.eval 60 "f(1)")).runtimeCause? =
      some (.stackOverflow 3) := by
    decide +kernel
  obtain ⟨session, hsession⟩ := Option.isSome_iff_exists.mp hends
  have hreached : Session.Reached (fun _ _ => True) session :=
    .next (.new (.fresh _ _ _ _)) hsession
  rw [hsession, Option.getD_some] at hcause
  obtain ⟨f, session', hfailed, hf⟩ := Outcome.eq_failed_of_runtimeCause? hcause
  have hstate : (session.use (.eval 60 "f(1)")).state? = some session' := by
    rw [hfailed]
    rfl
  exact ⟨session, hreached, f, session', hfailed, hf, huse session _ session' hstate,
    hzero session' (.next hreached hstate)⟩

end HandleScript
