import HandleScript.Interpreter.Outcome

/-!
# What computations ensure

A computation ensures something about its outcome when every run of it that starts from a
state with a given property ends as promised: with a value and a state that fit one
condition, or with a failure and a state that fit another. A computation that crashes or
runs out of steps promises nothing. The rules below follow the ways in which computations
are put together, so that a statement about a whole run is assembled from statements about
its parts. Results without a state have the same sort of rules.
-/

namespace HandleScript

/-! ## Results -/

theorem except_bind_eq_ok
    {ε α β : Type} {r : Except ε α} {f : α → Except ε β} {b : β}
    (h : r >>= f = .ok b) : ∃ a, r = .ok a ∧ f a = .ok b := by
  cases r with
  | ok a => exact ⟨a, rfl, h⟩
  | error e => cases h

theorem except_mapError_eq_ok
    {ε δ α : Type} {r : Except ε α} {wrap : ε → δ} {a : α}
    (h : r.mapError wrap = .ok a) : r = .ok a := by
  cases r with
  | ok a => cases h; rfl
  | error e => cases h

theorem except_eq_ok_of_toOption
    {ε α : Type} {r : Except ε α} {a : α} (h : r.toOption = some a) : r = .ok a := by
  cases r with
  | ok a => cases h; rfl
  | error e => cases h

/-- A result whose value fits one condition, or whose error fits another. -/
def Yields {ε α : Type} (value : α → Prop) (error : ε → Prop) : Except ε α → Prop
  | .ok a => value a
  | .error e => error e

theorem yields_bind
    {ε α β : Type} {r : Except ε α} {f : α → Except ε β}
    {middle : α → Prop} {value : β → Prop} {error : ε → Prop}
    (hr : Yields middle error r)
    (hf : ∀ a, middle a → Yields value error (f a)) : Yields value error (r >>= f) := by
  cases r with
  | ok a => exact hf a hr
  | error e => exact hr

/-! ## Outcomes -/

namespace Outcome

variable {σ ε α : Type}

/-- The outcome is as promised, for a value as for a failure. -/
def Meets (value : α → σ → Prop) (failure : ε → σ → Prop) : Outcome σ ε α → Prop
  | done a s => value a s
  | failed e s => failure e s
  | crashed _ => True
  | exhausted => True

theorem Meets.mono
    {value value' : α → σ → Prop} {failure failure' : ε → σ → Prop}
    {o : Outcome σ ε α}
    (h : o.Meets value failure)
    (hvalue : ∀ a s, value a s → value' a s)
    (hfailure : ∀ e s, failure e s → failure' e s) : o.Meets value' failure' := by
  cases o with
  | done a s => exact hvalue a s h
  | failed e s => exact hfailure e s h
  | crashed | exhausted => trivial

theorem Meets.lift
    {τ δ : Type} {state : σ → τ} {wrap : ε → δ}
    {value : α → τ → Prop} {failure : δ → τ → Prop} {o : Outcome σ ε α}
    (h : o.Meets (fun a s => value a (state s)) (fun e s => failure (wrap e) (state s))) :
    (o.lift state wrap).Meets value failure := by
  cases o with
  | done a s => exact h
  | failed e s => exact h
  | crashed | exhausted => trivial

end Outcome

/-! ## Computations -/

namespace Computation

variable {σ ε α β : Type}

/-- From every state with the property `before`, the computation ends as promised. -/
def Ensures
    (before : σ → Prop) (c : Computation σ ε α)
    (value : α → σ → Prop) (failure : ε → σ → Prop) : Prop :=
  ∀ s, before s → (c s).Meets value failure

/-- The computation keeps a property of the state, whatever its outcome; its values and
its failures fit conditions of their own. -/
def Keeps
    (invariant : σ → Prop) (c : Computation σ ε α)
    (value : α → Prop) (failure : ε → Prop) : Prop :=
  c.Ensures invariant
    (fun a s => invariant s ∧ value a) (fun e s => invariant s ∧ failure e)

theorem ensures_bind
    {before : σ → Prop} {c : Computation σ ε α} {f : α → Computation σ ε β}
    {middle : α → σ → Prop} {value : β → σ → Prop} {failure : ε → σ → Prop}
    (hc : c.Ensures before middle failure)
    (hf : ∀ a, (f a).Ensures (middle a) value failure) :
    (c >>= f).Ensures before value failure := by
  intro s hs
  have hfirst := hc s hs
  change (Computation.bind c f s).Meets value failure
  unfold Computation.bind
  cases hrun : c s with
  | done a s' =>
      rw [hrun] at hfirst
      exact hf a s' hfirst
  | failed e s' =>
      rw [hrun] at hfirst
      exact hfirst
  | crashed | exhausted => trivial

section Keeps

variable {invariant : σ → Prop} {value : α → Prop} {failure : ε → Prop}

theorem keeps_pure {a : α} (h : value a) :
    (pure a : Computation σ ε α).Keeps invariant value failure :=
  fun _ hs => ⟨hs, h⟩

theorem keeps_fail {e : ε} (h : failure e) :
    (Computation.fail e : Computation σ ε α).Keeps invariant value failure :=
  fun _ hs => ⟨hs, h⟩

theorem keeps_giveUp :
    (giveUp : Computation σ ε α).Keeps invariant value failure :=
  fun _ _ => trivial

theorem keeps_update {f : σ → σ} (h : ∀ s, invariant s → invariant (f s)) :
    (update f : Computation σ ε Unit).Keeps invariant (fun _ => True) failure :=
  fun s hs => ⟨h s hs, trivial⟩

/-- What is read off the state may be used as far as the invariant tells it. -/
theorem keeps_inspect
    (value : α → Prop) {f : σ → α} (h : ∀ s, invariant s → value (f s)) :
    (inspect f : Computation σ ε α).Keeps invariant value failure :=
  fun s hs => ⟨hs, h s hs⟩

theorem keeps_bind
    {c : Computation σ ε α} {f : α → Computation σ ε β} {result : β → Prop}
    (hc : c.Keeps invariant value failure)
    (hf : ∀ a, value a → (f a).Keeps invariant result failure) :
    (c >>= f).Keeps invariant result failure := by
  refine ensures_bind hc fun a s hs => ?_
  exact hf a hs.2 s hs.1

theorem keeps_adjustFailure
    {c : Computation σ ε α} {f : ε → ε}
    (hc : c.Keeps invariant value failure)
    (hf : ∀ e, failure e → failure (f e)) :
    (c.adjustFailure f).Keeps invariant value failure := by
  intro s hs
  have hrun := hc s hs
  unfold adjustFailure
  cases hcs : c s with
  | done a s' =>
      rw [hcs] at hrun
      exact hrun
  | failed e s' =>
      rw [hcs] at hrun
      exact ⟨hrun.1, hf e hrun.2⟩
  | crashed | exhausted => trivial

end Keeps

end Computation

end HandleScript
