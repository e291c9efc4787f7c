import HandleScript.Proofs.RecursionLimit
import HandleScript.Proofs.Requests

/-!
# One input after the other

What a session does with an input is one of four things: it refuses the input and stays as
it is, it declares the functions of a program, it runs statements in its scope, or it
opens a new scope. This module says so once, and follows a session through any number of
uses.
-/

namespace HandleScript

/-- The error of an input that does not compile. -/
def Outcome.compileError? {σ α : Type} : Outcome σ Error α → Option CompileError
  | .failed (.compile e) _ => some e
  | _ => none

theorem Outcome.eq_failed_of_compileError?
    {σ α : Type} {o : Outcome σ Error α} {e : CompileError}
    (h : o.compileError? = some e) : ∃ s, o = .failed (.compile e) s := by
  cases o with
  | done | crashed | exhausted => cases h
  | failed error s =>
      cases error with
      | runtime f => cases h
      | compile e =>
          cases h
          exact ⟨s, rfl⟩

namespace Session

variable {session session' : Session}

/-- The state of the session's interpreter. -/
abbrev state (session : Session) : State :=
  session.interpreter.state

/-- The session with another state. -/
def withState (session : Session) (s : State) : Session :=
  { session with interpreter := { session.interpreter with state := s } }

/-- An input is not read, or is a program that does not pass the check. -/
def Refuses (input : String) (e : CompileError) : Prop :=
  read input = .error e ∨ ∃ p, read input = .ok (.declarations p) ∧ p.check = .error e

/-- The outcome of a use, by what the session does. -/
inductive Does (session : Session) : Use → Reply (Option Value) → Prop
  | reset : Does session .reset (.done none session.reset)
  | refused {fuel : Nat} {input : String} {e : CompileError} (h : Refuses input e) :
      Does session (.eval fuel input) (.failed (.compile e) session)
  | loaded {fuel : Nat} {input : String} {p : Program}
      (h : read input = .ok (.declarations p))
      (checked : p.check = .ok ()) :
      Does session (.eval fuel input)
        (.done none (session.withState
          { session.state with
            functions := Function.declareAll session.state.functions p.functions }))
  | ran {fuel : Nat} {input : String} {stmts : List Stmt}
      (h : read input = .ok (.statements stmts)) :
      Does session (.eval fuel input)
        ((evalStatements session.interpreter.host fuel session.scope none
            stmts session.state).lift
          session.withState .runtime)

theorem Does.use_eq {u : Use} {reply : Reply (Option Value)} (h : session.Does u reply) :
    session.use u = reply := by
  cases h with
  | reset => rfl
  | refused hrefused =>
      rcases hrefused with hread | ⟨p, hread, hcheck⟩
      · exact eval_of_error hread _ session
      · rw [use, eval_of_read hread, perform, Interpreter.load_of_error hcheck]
        rfl
  | loaded hread hcheck =>
      rw [use, eval_of_read hread, perform, Interpreter.load_of_ok hcheck]
      rfl
  | ran hread =>
      rw [use, eval_of_read hread, perform, Interpreter.evalIn,
        Interpreter.execute_eq, Outcome.lift_lift]
      rfl

theorem use_does (session : Session) (u : Use) : session.Does u (session.use u) := by
  have hdoes : ∃ reply, session.Does u reply := by
    cases u with
    | reset => exact ⟨_, .reset⟩
    | eval fuel input =>
        rcases hread : read input with e | p | stmts
        · exact ⟨_, .refused (.inl hread)⟩
        · rcases hcheck : p.check with e | passed
          · exact ⟨_, .refused (.inr ⟨p, hread, hcheck⟩)⟩
          · exact ⟨_, .loaded hread hcheck⟩
        · exact ⟨_, .ran hread⟩
  obtain ⟨reply, h⟩ := hdoes
  rw [h.use_eq]
  exact h

/-- The session after some uses, one after the other, if all of them end. -/
def after (session : Session) : List Use → Option Session
  | [] => some session
  | u :: us => (session.use u).state?.bind fun next => next.after us

theorem after_cons_eq_some {u : Use} {us : List Use}
    (h : session.after (u :: us) = some session') :
    ∃ next, (session.use u).state? = some next ∧ next.after us = some session' :=
  Option.bind_eq_some_iff.mp h

/-- What every use keeps holds after any number of uses. -/
theorem holds_after
    {holds : Session → Prop}
    (hkept : ∀ session u session', holds session →
      (session.use u).state? = some session' →
      holds session') {us : List Use} (hstart : holds session)
        (h : session.after us = some session') :
    holds session' := by
  induction us generalizing session with
  | nil =>
      cases h
      exact hstart
  | cons u us ih =>
      obtain ⟨next, hnext, hrest⟩ := after_cons_eq_some h
      exact ih (hkept session u next hstart hnext) hrest

end Session

end HandleScript
