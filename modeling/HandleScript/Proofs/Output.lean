import HandleScript.Proofs.Acts
import HandleScript.Proofs.Parallel

/-!
# What has been written before

No code can see what has been written, only how much more may be. So the same run from a
state in which more has been written, with as much room left, ends in the same way and
writes the same. A console never takes more than its limit; so what has been written on it
can be forgotten, and the rest of it is a console of its own.
-/

namespace HandleScript

namespace Console

variable {c : Console} (text : String)

/-- The console on which a text has been written before everything else, in addition to
the room that there is. -/
def continuing (text : String) (c : Console) : Console :=
  ⟨c.input, text ++ c.output, c.limit.map (· + text.utf8ByteSize)⟩

theorem fits_continuing (c : Console) (more : String) :
    (c.continuing text).fits more = c.fits more := by
  obtain ⟨input, output, limit⟩ := c
  cases limit with
  | none => rfl
  | some n =>
      have hroom : text.utf8ByteSize + output.utf8ByteSize +
          more.utf8ByteSize ≤ n + text.utf8ByteSize ↔
          output.utf8ByteSize + more.utf8ByteSize ≤ n := by omega
      simp [continuing, fits, hroom]

theorem append_continuing (c : Console) (more : String) :
    (c.continuing text).append more = (c.append more).continuing text := by
  simp [continuing, append, String.append_assoc]

theorem readLine_continuing (c : Console) :
    (c.continuing text).readLine = (c.readLine.1, c.readLine.2.continuing text) := by
  obtain ⟨input, output, limit⟩ := c
  rcases input with _ | ⟨_ | _, rest⟩ <;> rfl

/-- No more has been written than can be. -/
def WithinLimit (c : Console) : Prop :=
  ∀ n, c.limit = some n → c.output.utf8ByteSize ≤ n

theorem withinLimit_ofLines (lines : List InputLine) (limit : Option Nat) :
    (ofLines lines limit).WithinLimit :=
  fun n _ => Nat.zero_le n

theorem WithinLimit.append {more : String} (h : c.WithinLimit)
    (hfits : c.fits more = true) : (c.append more).WithinLimit := by
  intro n hn
  have hold := h n hn
  have hn : c.limit = some n := hn
  simp only [fits, hn, Bool.or_eq_true, decide_eq_true_eq] at hfits
  rcases hfits with hempty | hroom
  · rw [String.isEmpty_iff.mp hempty]
    simpa [Console.append] using hold
  · simpa [Console.append] using hroom

theorem WithinLimit.readLine (h : c.WithinLimit) : c.readLine.2.WithinLimit := by
  obtain ⟨input, output, limit⟩ := c
  rcases input with _ | ⟨_ | _, rest⟩ <;> exact h

/-- The lines that have not been read and the room that is left, with nothing written. -/
def rest (c : Console) : Console :=
  ofLines c.input (c.limit.map (· - c.output.utf8ByteSize))

theorem continuing_rest (h : c.WithinLimit) : c.rest.continuing c.output = c := by
  obtain ⟨input, output, limit⟩ := c
  cases limit with
  | none => simp [rest, continuing, ofLines]
  | some n =>
      have hroom : n - output.utf8ByteSize + output.utf8ByteSize = n :=
        Nat.sub_add_cancel (h n rfl)
      simp [rest, continuing, ofLines, hroom]

end Console

/-- The state in which a text has been written before everything else. -/
def State.continuing (text : String) (s : State) : State :=
  { s with console := s.console.continuing text }

/-! ## Runs do not see the output -/

namespace Run

variable {α β : Type} {text : String} {run run' : Run α}

/-- With a text written before, the first run does what the second one does without. -/
def Unaware (text : String) (run run' : Run α) : Prop :=
  ∀ s, run (s.continuing text) = (run' s).lift (State.continuing text) id

theorem Unaware.bind {f f' : α → Run β} (h : run.Unaware text run')
    (hf : ∀ a, (f a).Unaware text (f' a)) : (run >>= f).Unaware text (run' >>= f') := by
  intro s
  have hs := h s
  cases hrun : run' s with
  | done a s' =>
      rw [hrun] at hs
      rw [Computation.bind_of_done hs, Computation.bind_of_done hrun]
      exact hf a s'
  | failed e s' =>
      rw [hrun] at hs
      rw [Computation.bind_of_failed hs, Computation.bind_of_failed hrun]
      rfl
  | crashed s' =>
      rw [hrun] at hs
      rw [Computation.bind_of_crashed hs, Computation.bind_of_crashed hrun]
      rfl
  | exhausted =>
      rw [hrun] at hs
      rw [Computation.bind_of_exhausted hs, Computation.bind_of_exhausted hrun]
      rfl

theorem Unaware.located (h : run.Unaware text run') (span : Span) :
    (located span run).Unaware text (located span run') := by
  intro s
  unfold Run.located Computation.adjustFailure
  rw [h s]
  cases run' s <;> rfl

theorem unaware_carryOut (plan : Store → Plan) :
    (carryOut plan).Unaware text (carryOut plan) := by
  intro s
  have hstore : (s.continuing text).store = s.store := rfl
  unfold carryOut
  rw [hstore]
  cases plan s.store with
  | error cause => rfl
  | ok effect =>
      dsimp only
      split <;> rfl

theorem unaware_lookup (listing : Listing) (scope : Nat) (name : String) :
    (lookup listing scope name).Unaware text (lookup listing scope name) := by
  intro s
  have hscopes : (s.continuing text).scopes = s.scopes := rfl
  unfold lookup
  rw [hscopes]
  cases s.scopes.get? scope name <;> rfl

theorem unaware_write (more : String) : (write more).Unaware text (write more) := by
  intro s
  have hfits : (s.continuing text).console.fits more = s.console.fits more :=
    s.console.fits_continuing text more
  have happend : (s.continuing text).console.append more =
      (s.console.append more).continuing text :=
    s.console.append_continuing text more
  unfold write
  rw [hfits, happend]
  split <;> rfl

theorem unaware_readLine : readLine.Unaware text readLine := by
  intro s
  have hread : (s.continuing text).console.readLine =
      (s.console.readLine.1, s.console.readLine.2.continuing text) :=
    s.console.readLine_continuing text
  unfold readLine
  rw [hread]
  obtain ⟨answer, console⟩ := s.console.readLine
  rcases answer with cause | _ | line <;> rfl

theorem Simple.unaware (h : run.Simple) : run.Unaware text run := by
  cases h with
  | pure | fail | giveUp | alloc | openScope | define | assign => exact fun _ => rfl
  | inspect f blind =>
      exact fun s => congrArg (Outcome.done · (s.continuing text)) (blind s _)
  | carryOut plan => exact unaware_carryOut plan
  | builtin builtin args =>
      cases builtin with
      | println => exact fun s => unaware_write (s.store.renderAll args ++ "\n") s
      | print => exact fun s => unaware_write (s.store.renderAll args) s
      | readln =>
          by_cases hnone : args.isEmpty
          · simpa [Builtin.call, hnone] using unaware_readLine
          · simp only [Builtin.call, hnone]
            exact fun _ => rfl
      | int =>
          rcases args with _ | ⟨v, _ | ⟨w, rest⟩⟩
          · exact fun _ => rfl
          · exact unaware_carryOut fun store => FactoryOp.int.plan store "int" [v]
          · exact fun _ => rfl

theorem unaware_callFunction
    {host : Host} {fuel : Nat} (f : Function) (values : List Value) (parent : Nat)
    (hbody : ∀ scope, (execAll host fuel scope f.body).Unaware text
      (execAll host fuel scope f.body)) :
    (callFunction host (fuel + 1) f values parent).Unaware text
      (callFunction host (fuel + 1) f values parent) := by
  intro s
  by_cases harity : f.params.length = values.length
  · by_cases hdepth : s.depth + 1 ≤ host.maxDepth
    · have hdepth' : (s.continuing text).depth + 1 ≤ host.maxDepth := hdepth
      rw [callFunction_admitted host fuel harity hdepth,
        callFunction_admitted host fuel harity hdepth']
      have hran := hbody (s.enter parent f values).1 (s.enter parent f values).2
      refine (congrArg State.return hran).trans ?_
      cases execAll host fuel (s.enter parent f values).1 f.body
        (s.enter parent f values).2 with
      | done flow s' => cases flow <;> rfl
      | failed | crashed | exhausted => rfl
    · have hdepth' : host.maxDepth < (s.continuing text).depth + 1 :=
        Nat.lt_of_not_le hdepth
      rw [callFunction_refused host fuel harity hdepth',
        callFunction_refused host fuel harity (Nat.lt_of_not_le hdepth)]
      rfl
  · rw [callFunction_misfit host fuel harity, callFunction_misfit host fuel harity]
    rfl

end Run

/-- A text written before changes nothing of what a job does. -/
theorem Job.unaware (text : String) (host : Host) (fuel : Nat) (job : Job) :
    (job.run host fuel).Unaware text (job.run host fuel) := by
  have hparallel : Run.Parallel host host (Run.Unaware text) :=
    { files := rfl
      lookup := Run.unaware_lookup host.listing
      unknown := fun _ _ => rfl
      simple := Run.Simple.unaware
      bind := Run.Unaware.bind
      located := Run.Unaware.located
      call := fun _ => Run.unaware_callFunction }
  exact job.parallel hparallel fuel

/-! ## Runs keep to the limit -/

theorem Builtin.withinLimit_of_call
    {builtin : Builtin} {args : List Value} {s s' : State} (hs : s.console.WithinLimit)
    (h : (builtin.call args s).state? = some s') : s'.console.WithinLimit := by
  have hwrite : ∀ more, (Run.write more s).state? = some s' → s'.console.WithinLimit := by
    intro more hended
    unfold Run.write at hended
    split at hended
    next hfits =>
      cases hended
      exact hs.append hfits
    next =>
      cases hended
      exact hs
  cases builtin with
  | println => exact hwrite _ h
  | print => exact hwrite _ h
  | readln =>
      by_cases hnone : args.isEmpty
      · simp only [Builtin.call, hnone, if_true, Run.readLine] at h
        have hread := hs.readLine
        revert h hread
        rcases s.console.readLine with ⟨cause | _ | line, console⟩ <;>
          rintro ⟨⟩ hread <;> exact hread
      · simp only [Builtin.call, hnone] at h
        cases h
        exact hs
  | int =>
      rcases args with _ | ⟨v, _ | ⟨w, rest⟩⟩
      · cases h
        exact hs
      · have hended : (Run.carryOut (fun store => FactoryOp.int.plan store "int" [v])
          s).state? = some s' := h
        rcases Run.carryOut_state? hended with rfl | ⟨effect, -, -, rfl⟩ <;> exact hs
      · cases h
        exact hs

/-- Nothing but a built-in function touches the console, and those keep to the limit. -/
theorem Job.withinLimit_invariant (host : Host) :
    Job.Invariant host (fun s => s.console.WithinLimit) fun _ _ => True where
  calls _ _ _ _ := trivial
  acts hacts _ ht := by
    cases hacts with
    | literal made =>
        rename_i value _ _
        cases value <;> cases made <;> exact ht
    | builtin before called => exact Builtin.withinLimit_of_call ht called
    | lambda | decided | connective | eager | enter | leave | opened | declare | assign =>
        exact ht

end HandleScript
