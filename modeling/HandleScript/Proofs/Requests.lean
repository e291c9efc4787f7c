import HandleScript.Proofs.Acts

/-!
# Requests

All that can be asked of one interpreter, in any order: its host loads, runs and calls
functions, makes values and binds names, and sessions on it are opened, given inputs and
reset. A request either sets off a job of the evaluator, from a state that has at most new
functions, or it runs no code and does one small thing. This module says once which
request does which, so that what holds of every state between requests is shown for jobs
and for those few things.
-/

namespace HandleScript

/-- The value that a computation gives, if it gives one. -/
def Outcome.value? {σ ε α : Type} : Outcome σ ε α → Option α
  | done a _ => some a
  | _ => none

/-- What can be asked of an interpreter. -/
inductive Request where
  | host (u : Interpreter.Use)
  /-- Opens a session. -/
  | session
  /-- Uses the session with this scope. -/
  | input (scope : Nat) (u : Session.Use)
  /-- Runs statements in a scope, without the control-flow check. -/
  | statements (fuel scope : Nat) (stmts : List Stmt)

namespace Interpreter

/-- The outcome of a request. -/
def answer (i : Interpreter) : Request → Reply (Option Value)
  | .host u => i.use u
  | .session => .done none (Session.new i).interpreter
  | .input scope u => (Session.use ⟨i, scope⟩ u).lift Session.interpreter id
  | .statements fuel scope stmts => i.evalIn fuel scope stmts

/-- The request hands this value to the host. -/
def HandsOut (i : Interpreter) (request : Request) (v : Value) : Prop :=
  (i.answer request).value? = some (some v)

/-- The requests that have been made, the latest one first, each with the interpreter that
it was made to. -/
abbrev Past := List (Interpreter × Request)

/-- The interpreters that allowed requests lead to, one after the other, from one on which
nothing has run. -/
inductive Served (allowed : Past → Interpreter → Request → Prop) :
    Past → Interpreter → Prop
  | fresh (settings : Settings) (files : Files) (listing : Listing) (console : Console) :
      Served allowed [] (.fresh settings files listing console)
  | next {past : Past} {i i' : Interpreter} {request : Request}
      (before : Served allowed past i)
      (permitted : allowed past i request) (h : (i.answer request).state? = some i') :
      Served allowed ((i, request) :: past) i'

/-- The scope that the request names exists. -/
def HasScope (i : Interpreter) : Request → Prop
  | .host _ => True
  | .session => True
  | .input scope _ => scope < i.state.scopes.size
  | .statements _ scope _ => scope < i.state.scopes.size

/-- The request sets off this job, with so many steps and from this state. -/
inductive SetsOff (i : Interpreter) : Request → (fuel : Nat) → Job → State → Prop
  | run {fuel : Nat} {p : Program} (h : p.check = .ok ()) :
      SetsOff i (.host (.run fuel p)) fuel
        (.callNamed globalScope i.settings.entry (.ready [])) (i.declared p).state
  | call {fuel : Nat} {name : String} {values : List Value} :
      SetsOff i (.host (.call fuel name values)) fuel
        (.callNamed globalScope name (.ready values)) i.state
  | input {fuel scope : Nat} {text : String} {stmts : List Stmt}
      (h : Session.read text = .ok (.statements stmts)) :
      SetsOff i (.input scope (.eval fuel text)) (fuel + 1) (.input scope stmts) i.state
  | statements {fuel scope : Nat} {stmts : List Stmt} :
      SetsOff i (.statements fuel scope stmts) (fuel + 1) (.input scope stmts) i.state

/-- The request runs no code. It hands out this value, if any, and leaves this state. -/
inductive Settles (i : Interpreter) : Request → Option Value → State → Prop
  | refused {request : Request} : Settles i request none i.state
  | loaded {request : Request} (functions : Bindings Function) :
      Settles i request none { i.state with functions := functions }
  | made {content : Content} {data : content.IsData} :
      Settles i (.host (.make content data)) (some (i.state.store.alloc content).1)
        { i.state with store := (i.state.store.alloc content).2 }
  | defined {name : String} {v : Value} :
      Settles i (.host (.define name v)) none
        { i.state with scopes := i.state.scopes.define globalScope name v }
  | opened {request : Request} :
      Settles i request none
        { i.state with scopes := (i.state.scopes.child globalScope).2 }

variable {i i' : Interpreter} {request : Request}

theorem execute_eq {α : Type} (run : Host → Run α) :
    i.execute run = (run i.host i.state).lift (fun s => { i with state := s }) .runtime :=
      rfl

/-- A job is set off in the interpreter's own state, but for functions that have been
loaded. -/
theorem SetsOff.same {fuel : Nat} {job : Job} {s : State}
    (h : i.SetsOff request fuel job s) :
    s.store = i.state.store ∧ s.scopes = i.state.scopes := by
  cases h <;> exact ⟨rfl, rfl⟩

/-- A request that sets off a call has its outcome. -/
theorem SetsOff.answer_call
    {fuel scope : Nat} {name : String} {args : Arguments} {s : State}
    (h : i.SetsOff request fuel (.callNamed scope name args) s) :
    i.answer request =
      ((callNamed i.host fuel scope name args s).lift (fun s' => { i with state := s' })
        .runtime).map some := by
  cases h with
  | run hcheck =>
      rw [answer, use, run_of_ok hcheck]
      rfl
  | call => rfl

/-- A request that sets off statements has their outcome. -/
theorem SetsOff.answer_input
    {fuel scope : Nat} {stmts : List Stmt} {s : State}
    (h : i.SetsOff request fuel (.input scope stmts) s) :
    i.answer request =
      ((Job.input scope stmts).run i.host fuel s).lift
        (fun s' => { i with state := s' }) .runtime := by
  cases h with
  | @input fuel _ text _ hread =>
      have hanswer : i.answer (.input scope (.eval fuel text)) =
          ((i.evalIn fuel scope stmts).lift (fun i => ⟨i, scope⟩) id).lift
            Session.interpreter id := by
        rw [answer, Session.use, Session.eval_of_read hread, Session.perform]
      rw [hanswer, evalIn, execute_eq]
      change _ = (evalStatements i.host fuel scope none stmts i.state).lift _ _
      cases evalStatements i.host fuel scope none stmts i.state <;> rfl
  | statements => rfl

/-- A request that sets off a job ends where the job ends. -/
theorem SetsOff.ended
    {fuel : Nat} {job : Job} {s : State} (h : i.SetsOff request fuel job s)
    (hends : (i.answer request).state? = some i') :
    ∃ s', (job.run i.host fuel s).state? = some s' ∧ i' = { i with state := s' } := by
  have hstate : (i.answer request).state? = (job.run i.host fuel s).state?.map fun s' =>
      { i with state := s' } := by
    cases h with
    | run hcheck =>
        rw [(SetsOff.run hcheck).answer_call, Outcome.state?_map, Outcome.state?_lift]
        rfl
    | call =>
        rw [SetsOff.call.answer_call, Outcome.state?_map, Outcome.state?_lift]
        rfl
    | input hread => rw [(SetsOff.input hread).answer_input, Outcome.state?_lift]
    | statements => rw [SetsOff.statements.answer_input, Outcome.state?_lift]
  rw [hstate] at hends
  obtain ⟨s', hs', rfl⟩ := Option.map_eq_some_iff.mp hends
  exact ⟨s', hs', rfl⟩

/-- The request settles without running code, and its outcome shows it. -/
def Settled (i : Interpreter) (request : Request) : Prop :=
  ∃ given s', i.Settles request given s' ∧
      (i.answer request).state? = some { i with state := s' } ∧
    ∀ v, i.HandsOut request v → given = some v

theorem Settled.of_done
    {given : Option Value} {s' : State} (hsettles : i.Settles request given s')
    (h : i.answer request = .done given { i with state := s' }) : i.Settled request := by
  refine ⟨given, s', hsettles, Outcome.state?_of_done h, ?_⟩
  intro v hv
  rw [HandsOut, h] at hv
  exact Option.some.inj hv

/-- A request that is refused leaves all as it was. -/
theorem Settled.of_failed {e : Error} (h : i.answer request = .failed e i) :
    i.Settled request := by
  refine ⟨none, i.state, .refused, ?_, ?_⟩
  · rw [h]
    rfl
  · intro v hv
    rw [HandsOut, h] at hv
    cases hv

/-- A load is refused, or declares functions. -/
theorem Settled.of_load {p : Program}
    (h : i.answer request = (i.load p).map fun _ => none) : i.Settled request := by
  obtain ⟨e, -, hload⟩ | ⟨-, hload⟩ := i.load_cases p
  · rw [hload] at h
    exact .of_failed h
  · rw [hload] at h
    exact .of_done (.loaded _) h

/-- A request either sets off a job or settles without one. -/
theorem setsOff_or_settled (i : Interpreter) (request : Request) :
    (∃ fuel job s, i.SetsOff request fuel job s) ∨ i.Settled request := by
  cases request with
  | session => exact .inr (.of_done .opened rfl)
  | statements fuel scope stmts => exact .inl ⟨_, _, _, .statements⟩
  | host u =>
      cases u with
      | load p => exact .inr (.of_load (p := p) rfl)
      | run fuel p =>
          cases hcheck : p.check with
          | error e =>
              refine .inr (.of_failed (e := .compile e) ?_)
              rw [answer, use, run_of_error hcheck]
              rfl
          | ok _ => exact .inl ⟨_, _, _, .run hcheck⟩
      | call fuel name values => exact .inl ⟨_, _, _, .call⟩
      | make content data => exact .inr (.of_done .made rfl)
      | define name v => exact .inr (.of_done .defined rfl)
  | input scope u =>
      cases u with
      | reset => exact .inr (.of_done .opened rfl)
      | eval fuel text =>
          cases hread : Session.read text with
          | error e =>
              refine .inr (.of_failed (e := .compile e) ?_)
              rw [answer, Session.use, Session.eval_of_error hread]
              rfl
          | ok asked =>
              cases asked with
              | statements stmts => exact .inl ⟨_, _, _, .input hread⟩
              | declarations p =>
                  refine .inr (.of_load (p := p) ?_)
                  rw [answer, Session.use, Session.eval_of_read hread, Session.perform]
                  cases i.load p <;> rfl

end Interpreter

end HandleScript
