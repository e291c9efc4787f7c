import HandleScript.Proofs.Parallel
import HandleScript.Proofs.Suggestions

/-!
# What the order of candidates decides

The candidates for a hint come from tables that have no order of their own. Two hosts may
list them differently, and then the hint for an unknown name may be another one of several
names that are equally near. This is all that depends on the order: nothing in a script
catches a failure, so two runs of the same code from the same state, on hosts that list
candidates differently, do the same in the same states up to the failure that carries the
hint.
-/

namespace HandleScript

/-- Hints for a name that are chosen from the same candidates, listed in two orders. -/
def Text.Tied (name : String) (hint hint' : Option String) : Prop :=
  ∃ candidates candidates' : List String, candidates.Perm candidates' ∧
    hint = suggestion name candidates ∧ hint' = suggestion name candidates'

/-- Of two such hints one is as near as the other. -/
theorem Text.Tied.distance_eq {name : String} {hint hint' : Option String}
    (h : Tied name hint hint') :
    hint.map (distance name) = hint'.map (distance name) := by
  obtain ⟨candidates, candidates', hperm, rfl, rfl⟩ := h
  exact map_distance_closest_of_perm hperm

theorem Text.tied_arrange (listing listing' : Listing) (name : String)
    (candidates : List String) :
    Tied name (suggestion name (listing.arrange candidates))
      (suggestion name (listing'.arrange candidates)) :=
  ⟨_, _, (listing.perm candidates).trans (listing'.perm candidates).symm, rfl, rfl⟩

example :
    Text.suggestion "printl" (Listing.asBound.arrange Builtin.names) = some "println" ∧
    Text.suggestion "printl"
      ((Listing.mk List.reverse List.reverse_perm).arrange Builtin.names) =
      some "print" := by
  decide +kernel

/-- Causes that differ in nothing but the hint for an unknown variable or function. -/
inductive Cause.Rehinted : Cause → Cause → Prop
  | same (cause : Cause) : Rehinted cause cause
  | variable {name : String} {hint hint' : Option String}
      (tied : Text.Tied name hint hint') :
      Rehinted (.undefinedVariable name hint) (.undefinedVariable name hint')
  | function {name : String} {hint hint' : Option String}
      (tied : Text.Tied name hint hint') :
      Rehinted (.undefinedFunction name hint) (.undefinedFunction name hint')

theorem Cause.Rehinted.sort_eq {cause cause' : Cause} (h : cause.Rehinted cause') :
    cause.sort = cause'.sort := by
  cases h <;> rfl

/-- Failures at the same place that differ in nothing but the hint. -/
structure Failure.Rehinted (f f' : Failure) : Prop where
  cause : f.cause.Rehinted f'.cause
  span : f.span = f'.span

theorem Cause.Rehinted.failure {cause cause' : Cause} (h : cause.Rehinted cause')
    (span : Option Span) : Failure.Rehinted ⟨cause, span⟩ ⟨cause', span⟩ :=
  ⟨h, rfl⟩

theorem Failure.Rehinted.located {f f' : Failure} (h : f.Rehinted f') (span : Span) :
    (f.located span).Rehinted (f'.located span) := by
  obtain ⟨cause, place⟩ := f
  obtain ⟨cause', place'⟩ := f'
  obtain ⟨hcause, rfl⟩ := h
  cases place <;> exact ⟨hcause, rfl⟩

namespace Outcome

variable {σ α : Type}

/-- Outcomes that differ in nothing but the hint of a failure. -/
inductive Rehinted : Outcome σ Failure α → Outcome σ Failure α → Prop
  | same (o : Outcome σ Failure α) : Rehinted o o
  | failed {f f' : Failure} (h : f.Rehinted f') (s : σ) :
      Rehinted (.failed f s) (.failed f' s)

theorem Rehinted.return {o o' : Outcome State Failure Flow} (h : o.Rehinted o') :
    (State.return o).Rehinted (State.return o') := by
  cases h with
  | same => exact .same _
  | failed h s => exact .failed h s.leave

end Outcome

namespace Run

variable {α β : Type} {run run' : Run α}

/-- From every state, two runs differ in nothing but the hint of a failure. -/
def Rehinted (run run' : Run α) : Prop :=
  ∀ s, (run s).Rehinted (run' s)

theorem Rehinted.bind
    {f f' : α → Run β} (h : run.Rehinted run') (hf : ∀ a, (f a).Rehinted (f' a)) :
    (run >>= f).Rehinted (run' >>= f') := by
  intro s
  change (Computation.bind run f s).Rehinted (Computation.bind run' f' s)
  unfold Computation.bind
  have hs := h s
  generalize run s = o, run' s = o' at hs
  cases hs with
  | failed h s' => exact .failed h s'
  | same =>
      cases o with
      | done a s' => exact hf a s'
      | failed | crashed | exhausted => exact .same _

theorem Rehinted.located (h : run.Rehinted run') (span : Span) :
    (Run.located span run).Rehinted (Run.located span run') := by
  intro s
  unfold Run.located Computation.adjustFailure
  have hs := h s
  generalize run s = o, run' s = o' at hs
  cases hs with
  | same => exact .same _
  | failed h s' => exact .failed (h.located span) s'

theorem rehinted_lookup (listing listing' : Listing) (scope : Nat) (name : String) :
    (lookup listing scope name).Rehinted (lookup listing' scope name) := by
  intro s
  unfold lookup
  split
  · exact .same _
  · exact .failed
      ((Cause.Rehinted.variable (Text.tied_arrange listing listing' name _)).failure none)
      s

theorem rehinted_unknown (listing listing' : Listing) (name : String) :
    (unknown listing name).Rehinted (unknown listing' name) :=
  fun s => .failed
    ((Cause.Rehinted.function (Text.tied_arrange listing listing' name _)).failure none) s

theorem rehinted_callFunction
    {host host' : Host} {fuel : Nat} (hlimit : host.maxDepth = host'.maxDepth)
    (f : Function) (values : List Value) (parent : Nat)
    (hbody : ∀ scope, (execAll host fuel scope f.body).Rehinted
      (execAll host' fuel scope f.body)) :
    (callFunction host (fuel + 1) f values parent).Rehinted
      (callFunction host' (fuel + 1) f values parent) := by
  intro s
  by_cases harity : f.params.length = values.length
  · by_cases hdepth : s.depth + 1 ≤ host.maxDepth
    · rw [callFunction_admitted host fuel harity hdepth,
        callFunction_admitted host' fuel harity (hlimit ▸ hdepth)]
      exact (hbody _ _).return
    · have hover := Nat.lt_of_not_le hdepth
      rw [callFunction_refused host fuel harity hover,
        callFunction_refused host' fuel harity (hlimit ▸ hover), hlimit]
      exact .same _
  · rw [callFunction_misfit host fuel harity, callFunction_misfit host' fuel harity]
    exact .same _

end Run

/-- The host with its candidates listed in another way. -/
def Host.relisted (host : Host) (listing : Listing) : Host :=
  { host with listing := listing }

/-- How candidates are listed decides nothing but the hint of a failure. -/
theorem Job.rehinted (host : Host) (listing : Listing) (fuel : Nat) (job : Job) :
    (job.run host fuel).Rehinted (job.run (host.relisted listing) fuel) := by
  have hparallel : Run.Parallel host (host.relisted listing) Run.Rehinted :=
    { files := rfl
      lookup := Run.rehinted_lookup host.listing listing
      unknown := Run.rehinted_unknown host.listing listing
      simple := fun _ _ => .same _
      bind := Run.Rehinted.bind
      located := Run.Rehinted.located
      call := fun _ => Run.rehinted_callFunction rfl }
  exact job.parallel hparallel fuel

end HandleScript
