import HandleScript.Proofs.Evolution
import HandleScript.Proofs.Hints
import HandleScript.Proofs.History

/-!
# The recursion limit

Two runs of the same code from the same state, on hosts that differ in the recursion limit
only, keep in step until a call that the lower limit refuses and the higher one admits.
That call fails, and nothing in a script catches a failure: so the run under the lower
limit ends there, and what it has written is the beginning of what the other one writes.
All other runs under the lower limit end just as they do under the higher one. Two runs
may also list the candidates for a hint differently; then the hint of a failure may be
another one of several that are equally near, and nothing else differs.
-/

namespace HandleScript

/-! ## Runs that are cut short -/

namespace Outcome

variable {α : Type}

/-- The run ends with a console that continues the given one. -/
def Continues (c : Console) (o : Outcome State Failure α) : Prop :=
  o.Meets (fun _ s => c.Continues s.console) (fun _ s => c.Continues s.console)

theorem Continues.mono {c c' : Console} {o : Outcome State Failure α}
    (hc : c.Continues c') (h : o.Continues c') : o.Continues c :=
  Meets.mono h (fun _ _ hd => hc.trans hd) fun _ _ hf => hc.trans hf

/-- The second outcome is the first one, or else the first run has met the recursion limit
and the second one goes on from there. -/
def CutShort (o o' : Outcome State Failure α) : Prop :=
  o' = o ∨ ∃ f s, o = .failed f s ∧ f.cause.sort = .stackOverflow ∧ o'.Continues s.console

theorem CutShort.refl (o : Outcome State Failure α) : o.CutShort o :=
  .inl rfl

/-- A body that is cut short cuts the call short. -/
theorem CutShort.return {o o' : Outcome State Failure Flow} (h : o.CutShort o') :
    (State.return o).CutShort (State.return o') := by
  rcases h with rfl | ⟨f, s, rfl, hf, hgoes⟩
  · exact .refl _
  · refine .inr ⟨f, s.leave, rfl, hf, ?_⟩
    cases o' with
    | done flow s' => cases flow <;> exact hgoes
    | failed f' s' => exact hgoes
    | crashed | exhausted => trivial

end Outcome

namespace Run

variable {α β : Type} {free : Nat → Prop} {run run' : Run α}

/-- From every state, the first run is the second one or is cut short, and the second one
only adds to the output. -/
structure CutShort (run run' : Run α) : Prop where
  outcome : ∀ s, (run s).CutShort (run' s)
  onward : ∀ s, (run' s).Continues s.console

theorem Forward.onward (h : run.Forward free) (s : State) : (run s).Continues s.console :=
  (h s).mono (fun _ _ hd => hd.output) fun _ _ hf => hf.output

theorem CutShort.bind
    {f f' : α → Run β} (h : run.CutShort run') (hf : ∀ a, (f a).CutShort (f' a)) :
    (run >>= f).CutShort (run' >>= f') := by
  have hgoes : ∀ {c : Console} {s : State}, (run' s).Continues c →
      ((run' >>= f') s).Continues c := by
    intro c s hc
    cases hrun : run' s with
    | done a s' =>
        rw [hrun] at hc
        rw [Computation.bind_of_done hrun]
        exact .mono hc ((hf a).onward s')
    | failed e s' =>
        rw [hrun] at hc
        rw [Computation.bind_of_failed hrun]
        exact hc
    | crashed =>
        rw [Computation.bind_of_crashed hrun]
        trivial
    | exhausted =>
        rw [Computation.bind_of_exhausted hrun]
        trivial
  refine ⟨fun s => ?_, fun s => hgoes (h.onward s)⟩
  rcases h.outcome s with heq | ⟨e, s', hfailed, he, hcont⟩
  · cases hrun : run s with
    | done a s' =>
        rw [Computation.bind_of_done hrun, Computation.bind_of_done (heq.trans hrun)]
        exact (hf a).outcome s'
    | failed e s' =>
        rw [Computation.bind_of_failed hrun, Computation.bind_of_failed (heq.trans hrun)]
        exact .refl _
    | crashed s' =>
        rw [Computation.bind_of_crashed hrun,
          Computation.bind_of_crashed (heq.trans hrun)]
        exact .refl _
    | exhausted =>
        rw [Computation.bind_of_exhausted hrun,
          Computation.bind_of_exhausted (heq.trans hrun)]
        exact .refl _
  · rw [Computation.bind_of_failed hfailed]
    exact .inr ⟨e, s', rfl, he, hgoes hcont⟩

theorem CutShort.located (h : run.CutShort run') (span : Span) :
    (located span run).CutShort (located span run') := by
  have hgoes : ∀ {c : Console} {s : State}, (run' s).Continues c →
      (Run.located span run' s).Continues c := by
    intro c s hc
    unfold Run.located Computation.adjustFailure
    cases hrun : run' s <;> rw [hrun] at hc <;> exact hc
  refine ⟨fun s => ?_, fun s => hgoes (h.onward s)⟩
  rcases h.outcome s with heq | ⟨e, s', hfailed, he, hcont⟩
  · left
    unfold Run.located Computation.adjustFailure
    rw [heq]
  · refine .inr ⟨e.located span, s', ?_, ?_, hgoes hcont⟩
    · unfold Run.located Computation.adjustFailure
      rw [hfailed]
    · unfold Failure.located
      split <;> exact he

/-! ## Jobs under two limits -/

end Run

/-- What a run that has ended shows: the text of its value or else its error, and all that
has been written. -/
structure Shown where
  result : Except Error String
  output : String

/-- The sort of the failure, if the run has failed. -/
def Shown.sort? (shown : Shown) : Option FailureSort :=
  match shown.result with
  | .error (.runtime f) => some f.cause.sort
  | _ => none

/-- Errors that differ in nothing but the hint for an unknown variable or function. -/
inductive Error.Rehinted : Error → Error → Prop
  | same (e : Error) : Rehinted e e
  | runtime {f f' : Failure} (h : f.Rehinted f') : Rehinted (.runtime f) (.runtime f')

/-- Runs that show the same but for the hint of an error. -/
inductive Shown.Rehinted : Shown → Shown → Prop
  | ok (text output : String) : Rehinted ⟨.ok text, output⟩ ⟨.ok text, output⟩
  | error {e e' : Error} (h : e.Rehinted e') (output : String) :
      Rehinted ⟨.error e, output⟩ ⟨.error e', output⟩

theorem Shown.Rehinted.refl (shown : Shown) : shown.Rehinted shown := by
  obtain ⟨_ | _, output⟩ := shown
  · exact .error (.same _) output
  · exact .ok _ output

namespace Outcome

variable {σ τ ρ ε δ η α : Type}

/-- What an outcome shows, if it is a value or an error. -/
def shown? : Outcome State Error Value → Option Shown
  | done v s => some ⟨.ok (s.store.render v), s.console.output⟩
  | failed e s => some ⟨.error e, s.console.output⟩
  | crashed _ => none
  | exhausted => none

theorem lift_lift (f : σ → τ) (g : τ → ρ) (wrap : ε → δ) (wrap' : δ → η)
    (o : Outcome σ ε α) :
    (o.lift f wrap).lift g wrap' = o.lift (g ∘ f) (wrap' ∘ wrap) := by
  cases o <;> rfl

theorem Settles.lift {o o' : Outcome σ ε α} (h : o.Settles o') (f : σ → τ)
    (wrap : ε → δ) : (o.lift f wrap).Settles (o'.lift f wrap) := by
  rcases h with rfl | rfl
  · exact .inl rfl
  · exact .refl _

theorem Continues.output
    {c : Console} {o : Outcome State Failure Value} {shown : Shown} (h : o.Continues c)
    (hshown : (o.lift id .runtime).shown? = some shown) :
    ∃ more, shown.output = c.output ++ more := by
  cases o with
  | done v s =>
      cases hshown
      exact h
  | failed f s =>
      cases hshown
      exact h
  | crashed | exhausted => cases hshown

theorem CutShort.shown
    {o o' : Outcome State Failure Value} {shown : Shown} (h : o.CutShort o')
    (hshown : (o.lift id .runtime).shown? = some shown) :
    (o'.lift id .runtime).shown? = some shown ∨
      shown.sort? = some .stackOverflow ∧
          ∀ shown', (o'.lift id .runtime).shown? = some shown' →
        ∃ more, shown'.output = shown.output ++ more := by
  rcases h with rfl | ⟨f, s, rfl, hf, hgoes⟩
  · exact .inl hshown
  · cases hshown
    exact .inr ⟨congrArg some hf, fun shown' hshown' => hgoes.output hshown'⟩

theorem Rehinted.shown
    {o o' : Outcome State Failure Value} {shown : Shown} (h : o.Rehinted o')
    (hshown : (o.lift id .runtime).shown? = some shown) :
    ∃ shown', (o'.lift id .runtime).shown? = some shown' ∧ shown.Rehinted shown' := by
  cases h with
  | same => exact ⟨shown, hshown, .refl shown⟩
  | failed hf s =>
      cases hshown
      exact ⟨_, rfl, .error (.runtime hf) _⟩

end Outcome

/-! ## Runs of programs -/

namespace Interpreter

/-- The interpreter with its candidates listed in another way. -/
def relisted (i : Interpreter) (listing : Listing) : Interpreter :=
  { i with listing := listing }

/-- What a run of the program shows, with so many steps granted. -/
def shown? (fuel : Nat) (i : Interpreter) (p : Program) : Option Shown :=
  ((i.run fuel p).lift Interpreter.state id).shown?

/-- With enough steps, a run of the program ends and shows this. -/
def Finishes (i : Interpreter) (p : Program) (shown : Shown) : Prop :=
  ∃ fuel, i.shown? fuel p = some shown

variable {i : Interpreter} {p : Program} {shown shown' : Shown} {fuel : Nat}

theorem run_settles (i : Interpreter) (p : Program) (fuel : Nat) :
    (i.run fuel p).Settles (i.run (fuel + 1) p) := by
  obtain ⟨e, hcheck, -⟩ | ⟨hcheck, -⟩ := i.load_cases p
  · rw [run_of_error hcheck, run_of_error hcheck]
    exact .refl _
  · rw [run_of_ok hcheck, run_of_ok hcheck]
    exact (callNamed_settles i.host fuel globalScope _ _ (i.declared p).state).lift _ _

theorem shown?_of_le {more : Nat} (h : i.shown? fuel p = some shown) (hle : fuel ≤ more) :
    i.shown? more p = some shown := by
  have hends : i.run fuel p ≠ .exhausted := by
    intro hout
    rw [shown?, hout] at h
    cases h
  rw [shown?, settled_of_le (run_settles i p) hle hends]
  exact h

theorem Finishes.unique (h : i.Finishes p shown) (h' : i.Finishes p shown') :
    shown' = shown := by
  obtain ⟨m, hm⟩ := h
  obtain ⟨n, hn⟩ := h'
  have hshown := shown?_of_le hm (Nat.le_max_left m n)
  have hshown' := shown?_of_le hn (Nat.le_max_right m n)
  exact Option.some.inj (hshown'.symm.trans hshown)

end Interpreter

end HandleScript
