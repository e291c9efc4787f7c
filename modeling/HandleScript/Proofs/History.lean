import HandleScript.Proofs.Ensures
import HandleScript.Proofs.Fuel
import HandleScript.Session

/-!
# Histories

What can be done with an interpreter or a session, one use after the other. A use that
fails leaves a state from which the next one starts, just as one that succeeds; a use that
crashes or runs out of the steps granted to it leads nowhere. Loading and evaluating are
taken apart here: what does not compile changes nothing, and the functions of a program
are declared together, or not at all.
-/

namespace HandleScript

namespace Outcome

variable {σ ε α β : Type}

/-- The state in which a computation ends, if it ends with an answer. -/
def state? : Outcome σ ε α → Option σ
  | done _ s => some s
  | failed _ s => some s
  | crashed _ => none
  | exhausted => none

/-- The outcome with another value. -/
def map (f : α → β) : Outcome σ ε α → Outcome σ ε β
  | done a s => .done (f a) s
  | failed e s => .failed e s
  | crashed s => .crashed s
  | exhausted => .exhausted

theorem Meets.map
    {value : β → σ → Prop} {failure : ε → σ → Prop} {f : α → β} {o : Outcome σ ε α}
    (h : o.Meets (fun a => value (f a)) failure) : (o.map f).Meets value failure := by
  cases o with
  | done a s => exact h
  | failed e s => exact h
  | crashed | exhausted => trivial

/-- A property that every outcome leaves holds of the state in which the computation
ends. -/
theorem Meets.of_state?
    {holds : σ → Prop} {o : Outcome σ ε α} {s : σ}
    (h : o.Meets (fun _ => holds) (fun _ => holds)) (hs : o.state? = some s) :
    holds s := by
  cases o with
  | done a s' =>
      cases hs
      exact h
  | failed e s' =>
      cases hs
      exact h
  | crashed | exhausted => cases hs

end Outcome

/-- The cause for which a use fails at run time. -/
def Outcome.runtimeCause? {σ α : Type} : Outcome σ Error α → Option Cause
  | .failed (.runtime f) _ => some f.cause
  | _ => none

theorem Outcome.eq_failed_of_runtimeCause?
    {σ α : Type} {o : Outcome σ Error α} {cause : Cause}
    (h : o.runtimeCause? = some cause) :
    ∃ f s, o = .failed (.runtime f) s ∧ f.cause = cause := by
  cases o with
  | done | crashed | exhausted => cases h
  | failed e s =>
      cases e with
      | compile e => cases h
      | runtime f => exact ⟨f, s, rfl, Option.some.inj h⟩

/-! ## Loading programs -/

namespace Interpreter

/-- The interpreter in which the functions of a program have been declared. -/
def declared (i : Interpreter) (p : Program) : Interpreter :=
  i.modifyState fun s =>
    { s with functions := Function.declareAll s.functions p.functions }

theorem declareAll_eq (i : Interpreter) (functions : List Function) :
    declareAll functions i = .done () (i.declared ⟨functions⟩) := by
  induction functions generalizing i with
  | nil => rfl
  | cons f fs ih => exact ih _

theorem load_of_ok {i : Interpreter} {p : Program} (h : p.check = .ok ()) :
    i.load p = .done () (i.declared p) := by
  simp only [load, h]
  exact i.declareAll_eq p.functions

theorem load_of_error {i : Interpreter} {p : Program} {e : CompileError}
    (h : p.check = .error e) : i.load p = .failed (.compile e) i := by
  simp only [load, h]
  rfl

/-- A program that fails the check changes nothing. -/
theorem load_cases (i : Interpreter) (p : Program) :
    (∃ e, p.check = .error e ∧ i.load p = .failed (.compile e) i) ∨
      p.check = .ok () ∧ i.load p = .done () (i.declared p) := by
  cases h : p.check with
  | error e => exact .inl ⟨e, rfl, load_of_error h⟩
  | ok _ => exact .inr ⟨rfl, load_of_ok h⟩

theorem run_of_error {i : Interpreter} {p : Program} {e : CompileError}
    (h : p.check = .error e) (fuel : Nat) : i.run fuel p = .failed (.compile e) i := by
  simp only [run]
  exact Computation.bind_of_failed (load_of_error h) _

theorem run_of_ok {i : Interpreter} {p : Program} (h : p.check = .ok ()) (fuel : Nat) :
    i.run fuel p = (i.declared p).call fuel i.settings.entry [] := by
  simp only [run]
  exact Computation.bind_of_done (load_of_ok h) _

end Interpreter

/-! ## Evaluating inputs -/

namespace Session

/-- What an input asks for. -/
inductive Input where
  | declarations (p : Program)
  | statements (stmts : List Stmt)

/-- Reads an input. Statements are checked here, and declarations when they are loaded. -/
def read (input : String) : Except CompileError Input := do
  let tokens ← liftError .lexical (tokenize input)
  if startsDeclaration tokens then
    return .declarations (← liftError .grammatical (parseProgram input tokens))
  else
    let stmts ← liftError .grammatical (parseStatements input tokens)
    Stmt.checkAll stmts
    return .statements stmts

/-- Does what an input asks for. -/
def perform (fuel : Nat) (session : Session) : Input → Reply (Option Value)
  | .declarations p =>
    ((session.interpreter.load p).lift (fun i => ⟨i, session.scope⟩) id).map fun _ => none
  | .statements stmts =>
    (session.interpreter.evalIn fuel session.scope stmts).lift
      (fun i => ⟨i, session.scope⟩) id

/-- An input is read first, and then what it asks for is done; one that cannot be read
changes nothing. -/
theorem eval_eq (fuel : Nat) (session : Session) (input : String) :
    session.eval fuel input =
      (Computation.ofExcept .compile (read input) >>= fun asked session =>
        session.perform fuel asked) session := by
  rw [eval, read, liftError]
  cases tokenize input with
  | error e => rfl
  | ok tokens =>
      change (if startsDeclaration tokens then _ else _ : Task (Option Value)) session =
        (Computation.ofExcept .compile (if startsDeclaration tokens then _ else _) >>=
          _ : Task (Option Value)) session
      by_cases hstarts : startsDeclaration tokens = true
      · rw [if_pos hstarts, if_pos hstarts, liftError]
        cases parseProgram input tokens with
        | error e => rfl
        | ok p =>
            change Computation.bind (within fun i _ => i.load p)
              (fun _ => pure none) session = _
            unfold Computation.bind within
            change _ = session.perform fuel (.declarations p)
            unfold perform
            cases session.interpreter.load p <;> rfl
      · rw [if_neg hstarts, if_neg hstarts, liftError]
        cases parseStatements input tokens with
        | error e => rfl
        | ok stmts =>
            change (Computation.ofExcept .compile (Stmt.checkAll stmts) >>= fun _ =>
              within fun i scope => i.evalIn fuel scope stmts :
                  Task (Option Value)) session =
                (Computation.ofExcept .compile (Stmt.checkAll stmts >>= fun _ =>
                    .ok (Input.statements stmts)) >>= _ :
                  Task (Option Value)) session
            cases Stmt.checkAll stmts <;> rfl

theorem eval_of_error {input : String} {e : CompileError} (h : read input = .error e)
    (fuel : Nat) (session : Session) :
    session.eval fuel input = .failed (.compile e) session := by
  rw [eval_eq, h]
  rfl

theorem eval_of_read {input : String} {asked : Input} (h : read input = .ok asked)
    (fuel : Nat) (session : Session) :
    session.eval fuel input = session.perform fuel asked := by
  rw [eval_eq, h]
  rfl

end Session

/-! ## Uses -/

/-- What a new handle names is data: anything but a function literal. -/
def Content.IsData : Content → Prop
  | lambda _ => False
  | _ => True

namespace Interpreter

/-- A use of an interpreter by its host. -/
inductive Use where
  | load (p : Program)
  | run (fuel : Nat) (p : Program)
  | call (fuel : Nat) (name : String) (values : List Value)
  /-- Makes a value, to call a function with. -/
  | make (content : Content) (data : content.IsData)
  /-- Binds a name in the outermost scope. -/
  | define (name : String) (v : Value)

/-- The outcome of a use. -/
def use (i : Interpreter) : Use → Reply (Option Value)
  | .load p => (i.load p).map fun _ => none
  | .run fuel p => (i.run fuel p).map some
  | .call fuel name values => (i.call fuel name values).map some
  | .make content _ => .done (some (i.make content).1) (i.make content).2
  | .define name v => .done none (i.defineGlobal name v)

/-- The interpreters that allowed uses lead to, one after the other, from one on which
nothing has run. -/
inductive Reached (allowed : Interpreter → Use → Prop) : Interpreter → Prop
  | fresh (settings : Settings) (files : Files) (listing : Listing) (console : Console) :
      Reached allowed (.fresh settings files listing console)
  | next {i i' : Interpreter} {u : Use} (before : Reached allowed i)
      (permitted : allowed i u)
      (h : (i.use u).state? = some i') : Reached allowed i'

end Interpreter

namespace Session

/-- A use of a session. -/
inductive Use where
  | eval (fuel : Nat) (input : String)
  | reset

/-- The outcome of a use. -/
def use (session : Session) : Use → Reply (Option Value)
  | .eval fuel input => session.eval fuel input
  | .reset => .done none session.reset

/-- The sessions that any uses lead to, one after the other, from a new session on an
interpreter that has a history of its own. -/
inductive Reached (allowed : Interpreter → Interpreter.Use → Prop) : Session → Prop
  | new {i : Interpreter} (before : Interpreter.Reached allowed i) :
      Reached allowed (.new i)
  | next {session session' : Session} {u : Use} (before : Reached allowed session)
      (h : (session.use u).state? = some session') : Reached allowed session'

end Session

end HandleScript
