import HandleScript.Proofs.Frame
import HandleScript.Proofs.Inputs
import HandleScript.Proofs.Output

/-!
# Sessions that cannot be told apart

What a use of a session shows is the kind and the text of the value or else the error, and
what has been written meanwhile. Two sessions whose states are alike under a renaming of
handles and scopes, up to what has been written before, show the same, and are alike
again. So they show the same however often they are used. Each use may list the candidates
for hints in an order of its own; where the orders differ between two sessions, so may the
hints, and nothing else.
-/

namespace HandleScript

/-- What has been written since an earlier time. -/
def Console.since (before c : Console) : String :=
  String.ofList (c.output.toList.drop before.output.toList.length)

theorem Console.since_continuing (text : String) (before c : Console) :
    (before.continuing text).since (c.continuing text) = before.since c := by
  simp only [since, continuing, String.toList_append, List.length_append]
  rw [← List.drop_drop, List.drop_left]

namespace Session

/-- How a use of a session has ended. -/
inductive Ending where
  /-- With a value or with none; its kind and its text are shown. -/
  | value (shown : Option (Kind × String))
  | error (e : Error)
  | crash

/-- What a use of a session shows. -/
structure Answer where
  ending : Ending
  /-- What has been written. -/
  output : String

/-- What the reply to a use shows, unless the steps did not suffice. -/
def answer? (session : Session) : Reply (Option Value) → Option Answer
  | .done v next =>
    some ⟨.value (v.map fun v => (v.kind, next.state.store.render v)),
      session.state.console.since next.state.console⟩
  | .failed e next => some ⟨.error e, session.state.console.since next.state.console⟩
  | .crashed next => some ⟨.crash, session.state.console.since next.state.console⟩
  | .exhausted => none

/-- The session with its candidates listed in another way. -/
def relisted (session : Session) (listing : Listing) : Session :=
  { session with interpreter := session.interpreter.relisted listing }

/-- What uses of a session show, one after the other, each with the candidates listed in
its own way. A use that crashes or for which the steps do not suffice is the last one. -/
def transcript (session : Session) : List (Listing × Use) → List (Option Answer)
  | [] => []
  | (listing, u) :: us =>
    let here := session.relisted listing
    here.answer? (here.use u) :: ((here.use u).state?.map fun next =>
      next.transcript us).getD []

end Session

/-! ## States that are alike -/

theorem Related.declareAll {ρ : Renaming} {s t : State} (h : Related ρ s t)
    (functions : List Function) :
    Related ρ { s with functions := Function.declareAll s.functions functions }
      { t with functions := Function.declareAll t.functions functions } := by
  have hfunctions := congrArg (Function.declareAll · functions) h.functions
  exact ⟨h.leftUnique, h.rightUnique, h.item, h.plain, h.leftLinked, h.rightLinked,
    hfunctions, h.console, h.depth⟩

/-- Interpreters with the same settings and files, whose states are alike if the text is
written before everything that the second one writes. The outermost scopes correspond.
They may list candidates differently. -/
structure Interpreter.Matches (text : String) (ρ : Renaming) (i j : Interpreter) :
    Prop where
  settings : i.settings = j.settings
  files : i.files = j.files
  plain : ∀ name, ¬ρ.hidden name
  outermost : ρ.rel .scope globalScope globalScope
  related : Related ρ i.state (j.state.continuing text)

namespace Interpreter.Matches

variable {text : String} {ρ ρ' : Renaming} {i j : Interpreter}

theorem host_eq (h : i.Matches text ρ j) (hlisting : i.listing = j.listing) :
    i.host = j.host := by
  rw [Interpreter.host, Interpreter.host, h.settings, h.files, hlisting]

/-- Interpreters go on to match in states that are alike under a renaming that has
grown. -/
theorem later
    (h : i.Matches text ρ j) (hgrown : ρ.Within ρ') {s t : State}
    (hrelated : Related ρ' s (t.continuing text)) :
    { i with state := s }.Matches text ρ' { j with state := t } where
  settings := h.settings
  files := h.files
  plain name := by
    rw [hgrown.hidden]
    exact h.plain name
  outermost := hgrown.rel h.outermost
  related := hrelated

/-- Since states that match, the same has been written in states that are alike. -/
theorem since_eq (h : i.Matches text ρ j) {s t : State}
    (hrelated : Related ρ' s (t.continuing text)) :
    i.state.console.since s.console = j.state.console.since t.console := by
  rw [h.related.console, hrelated.console]
  exact Console.since_continuing text _ _

end Interpreter.Matches

namespace Session

variable {text : String} {ρ ρ' : Renaming} {a b : Session}

/-- Sessions that match under some renaming, in scopes that correspond. -/
def Alike (text : String) (a b : Session) : Prop :=
  ∃ ρ, a.interpreter.Matches text ρ b.interpreter ∧ ρ.rel .scope a.scope b.scope

theorem Alike.relisted (h : a.Alike text b) (listing : Listing) :
    (a.relisted listing).Alike text (b.relisted listing) := by
  obtain ⟨ρ, hmatches, hscope⟩ := h
  exact ⟨ρ, ⟨hmatches.settings, hmatches.files, hmatches.plain, hmatches.outermost,
    hmatches.related⟩, hscope⟩

/-- The state of an interpreter in which a new session starts. -/
def opened (s : State) : State :=
  { s with scopes := (s.scopes.child globalScope).2 }

/-- New sessions on interpreters that match are alike. -/
theorem alike_new {i j : Interpreter} (h : i.Matches text ρ j) :
    (Session.new i).Alike text (Session.new j) := by
  cases h.related.openScope h.outermost with
  | @done ρ' _ _ _ _ hgrown hrelated hinner =>
      have hopened : Related ρ' (opened i.state) ((opened j.state).continuing text) :=
        hrelated
      exact ⟨ρ', h.later hgrown.grows hopened, hinner.1⟩

/-! ## Uses -/

theorem shown_eq
    {s t : State} {v w : Option Value} (h : Related ρ s t)
    (hvw : Option.Rel ρ.OnValues v w) :
    v.map (fun v => (v.kind, s.store.render v)) = w.map fun w =>
      (w.kind, t.store.render w) := by
  cases hvw with
  | none => rw [Option.map_none, Option.map_none]
  | some hvw => rw [Option.map_some, Option.map_some, hvw.kind_eq, h.render_eq hvw]

/-- The replies show the same, and leave sessions that are alike. -/
structure Agree (text : String) (a b : Session) (reply reply' : Reply (Option Value)) :
    Prop where
  answer : a.answer? reply = b.answer? reply'
  next : Option.Rel (Alike text) reply.state? reply'.state?

/-- Statements that run in corresponding scopes show the same. -/
theorem agree_ran
    (h : a.interpreter.Matches text ρ b.interpreter)
    (hlisting : a.interpreter.listing = b.interpreter.listing)
    (hscope : ρ.rel .scope a.scope b.scope) (fuel : Nat) (stmts : List Stmt) :
    Agree text a b
      ((evalStatements a.interpreter.host fuel a.scope none stmts a.state).lift
        a.withState .runtime)
      ((evalStatements b.interpreter.host fuel b.scope none stmts b.state).lift
        b.withState .runtime) := by
  have hsees : ρ.Sees a.scope b.scope (Stmt.usedAll stmts) :=
    ⟨hscope, fun name _ => h.related.plain hscope name (h.plain name)⟩
  have hends := h.related.evalStatements b.interpreter.host fuel hsees .none
  have hunaware := Job.unaware text b.interpreter.host (fuel + 1)
    (.input b.scope stmts) b.state
  change evalStatements _ _ _ _ _ _ = (evalStatements _ _ _ _ _ _).lift _ _ at hunaware
  rw [hunaware] at hends
  rw [h.host_eq hlisting]
  generalize evalStatements b.interpreter.host fuel a.scope none stmts a.state =
    o at hends
  generalize evalStatements b.interpreter.host fuel b.scope none stmts b.state =
    o' at hends
  cases o' with
  | done w t =>
      cases hends with
      | @done ρ' s _ v _ hgrown hrelated hvw =>
          refine ⟨?_, .some ⟨ρ', h.later hgrown.grows hrelated, hgrown.grows.rel hscope⟩⟩
          simp only [answer?, Outcome.lift, withState]
          rw [shown_eq hrelated hvw, h.since_eq hrelated]
          rfl
  | failed e t =>
      cases hends with
      | @failed ρ' s _ _ hgrown hrelated =>
          refine ⟨?_, .some ⟨ρ', h.later hgrown.grows hrelated, hgrown.grows.rel hscope⟩⟩
          simp only [answer?, Outcome.lift, withState]
          rw [h.since_eq hrelated]
          rfl
  | crashed t =>
      cases hends with
      | crashed hgrown hrelated =>
          refine ⟨?_, .none⟩
          simp only [answer?, Outcome.lift, withState]
          rw [h.since_eq hrelated]
  | exhausted =>
      cases hends
      exact ⟨rfl, .none⟩

/-- Sessions that are alike and list candidates alike show the same when they are used,
and are alike again. -/
theorem Alike.use (h : a.Alike text b)
    (hlisting : a.interpreter.listing = b.interpreter.listing) (u : Use) :
    Agree text a b (a.use u) (b.use u) := by
  obtain ⟨ρ, hmatches, hscope⟩ := h
  have hsince : a.state.console.since a.state.console =
      b.state.console.since b.state.console :=
    hmatches.since_eq hmatches.related
  have hdoes := a.use_does u
  generalize a.use u = reply at hdoes
  cases hdoes with
  | reset =>
      rw [Does.use_eq .reset]
      refine ⟨?_, .some (alike_new hmatches)⟩
      exact congrArg (fun output => some (Answer.mk (.value none) output)) hsince
  | @refused fuel input e hrefused =>
      rw [Does.use_eq (.refused hrefused)]
      refine ⟨?_, .some ⟨ρ, hmatches, hscope⟩⟩
      exact congrArg (fun output => some (Answer.mk (.error (.compile e)) output)) hsince
  | @loaded fuel input p hread hchecked =>
      rw [Does.use_eq (.loaded hread hchecked)]
      have hrelated := hmatches.related.declareAll p.functions
      refine ⟨?_, .some ⟨ρ, hmatches.later (.refl ρ) hrelated, hscope⟩⟩
      exact congrArg (fun output => some (Answer.mk (.value none) output)) hsince
  | ran hread =>
      rw [Does.use_eq (.ran hread)]
      exact agree_ran hmatches hlisting hscope _ _

/-- Sessions that are alike show the same in any number of uses. -/
theorem Alike.transcript_eq (h : a.Alike text b) (us : List (Listing × Use)) :
    a.transcript us = b.transcript us := by
  induction us generalizing a b with
  | nil => rfl
  | cons step us ih =>
      obtain ⟨listing, u⟩ := step
      obtain ⟨hanswer, hnext⟩ := (h.relisted listing).use rfl u
      simp only [transcript, hanswer]
      generalize ((a.relisted listing).use u).state? = next,
        ((b.relisted listing).use u).state? = next' at hnext
      cases hnext with
      | none => rfl
      | some hnext => exact congrArg (_ :: ·) (ih hnext)

/-! ## Hints -/

/-- Answers that differ in nothing but the hint of an error. -/
inductive Answer.Rehinted : Answer → Answer → Prop
  | same (answer : Answer) : Rehinted answer answer
  | error {e e' : Error} (h : e.Rehinted e') (output : String) :
      Rehinted ⟨.error e, output⟩ ⟨.error e', output⟩

/-- The second reply is the first one, but for the hint of an error and for how the
session goes on to list candidates. -/
inductive Relists (listing : Listing) : Reply (Option Value) → Reply (Option Value) → Prop
  | done (v : Option Value) (next : Session) : Relists listing (.done v next)
      (.done v (next.relisted listing))
  | failed {e e' : Error} (h : e.Rehinted e') (next : Session) :
      Relists listing (.failed e next) (.failed e' (next.relisted listing))
  | crashed (next : Session) : Relists listing (.crashed next)
      (.crashed (next.relisted listing))
  | exhausted : Relists listing .exhausted .exhausted

section Relists

variable {session : Session} {listing : Listing} {reply reply' : Reply (Option Value)}

theorem Relists.state?_eq (h : Relists listing reply reply') :
    reply'.state? = reply.state?.map fun next => next.relisted listing := by
  cases h <;> rfl

theorem Relists.answer (h : Relists listing reply reply') (session : Session) :
    Option.Rel Answer.Rehinted (session.answer? reply)
      ((session.relisted listing).answer? reply') := by
  cases h with
  | done v next => exact .some (.same _)
  | failed h next => exact .some (.error h _)
  | crashed next => exact .some (.same _)
  | exhausted => exact .none

theorem relists_of_rehinted {o o' : Outcome State Failure (Option Value)}
    (h : o.Rehinted o') :
    Relists listing (o.lift session.withState .runtime)
      (o'.lift (session.relisted listing).withState .runtime) := by
  cases h with
  | failed h s => exact .failed (.runtime h) (session.withState s)
  | same =>
      cases o with
      | done v s => exact .done v (session.withState s)
      | failed f s => exact .failed (.same _) (session.withState s)
      | crashed s => exact .crashed (session.withState s)
      | exhausted => exact .exhausted

/-- How candidates are listed decides nothing but the hint of an error. -/
theorem use_relists (session : Session) (listing : Listing) (u : Use) :
    Relists listing (session.use u) ((session.relisted listing).use u) := by
  have hdoes := session.use_does u
  generalize session.use u = reply at hdoes
  cases hdoes with
  | reset => exact .done none session.reset
  | refused hrefused =>
      rw [Does.use_eq (.refused hrefused)]
      exact .failed (.same _) session
  | loaded hread hchecked =>
      rw [Does.use_eq (.loaded hread hchecked)]
      exact .done none _
  | @ran fuel _ stmts hread =>
      rw [Does.use_eq (.ran hread)]
      exact relists_of_rehinted
        (Job.rehinted session.interpreter.host listing (fuel + 1)
          (.input session.scope stmts) session.state)

/-- Every use lists candidates in its own way, so it makes no difference how they were
listed before. -/
theorem transcript_relisted (session : Session) (listing : Listing)
    (us : List (Listing × Use)) :
    (session.relisted listing).transcript us = session.transcript us := by
  cases us <;> rfl

/-- The same uses show the same but for hints, however candidates are listed. -/
theorem transcript_rehinted (session : Session) {us us' : List (Listing × Use)}
    (h : us.map Prod.snd = us'.map Prod.snd) :
    List.Forall₂ (Option.Rel Answer.Rehinted) (session.transcript us)
      (session.transcript us') := by
  induction us generalizing session us' with
  | nil =>
      rw [List.map_eq_nil_iff.mp h.symm]
      exact .nil
  | cons step us ih =>
      obtain ⟨⟨listing', u⟩, rest', rfl, rfl, hrest⟩ := List.map_eq_cons_iff.mp h.symm
      have hrelists := (session.relisted step.1).use_relists listing' step.2
      refine .cons (hrelists.answer _) ?_
      change List.Forall₂ _ _
        ((((session.relisted step.1).relisted listing').use step.2).state?.map _ |>.getD
        [])
      rw [hrelists.state?_eq]
      cases ((session.relisted step.1).use step.2).state? with
      | none => exact .nil
      | some next =>
          change List.Forall₂ _ (next.transcript us)
            ((next.relisted listing').transcript rest')
          rw [transcript_relisted]
          exact ih next hrest.symm

end Relists

end Session

end HandleScript
