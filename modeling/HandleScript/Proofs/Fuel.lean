import HandleScript.Interpreter.Eval

/-!
# Steps of the evaluator

Calls on values by their kind, and statements of a session one by one. The number of steps
that is granted decides whether a run ends, and nothing else: with more steps, a run that
ended ends the same way.
-/

namespace HandleScript

/-- What a call on a value with operations of its own comes to. -/
def dispatchKind
    (host : Host) (fuel : Nat) (receiver : Value) (method : String) (args : Arguments) :
    Run Value :=
  match receiver.kind.operation? method with
  | none => Run.fail (unknownMethod receiver.kind method)
  | some op =>
    if op.accepts args.count then operate host fuel op receiver method args
    else Run.fail (.arityMismatch method (op.arity.getD 0) args.count)

theorem dispatch_eq_dispatchKind
    (host : Host) (fuel scope : Nat) {receiver : Value} (method : String)
    (args : Arguments) (hvoid : receiver ≠ .void) (hdispatcher : receiver ≠ .dispatcher) :
    dispatch host (fuel + 1) scope receiver method args =
      dispatchKind host fuel receiver method args := by
  cases receiver with
  | void => exact absurd rfl hvoid
  | dispatcher => exact absurd rfl hdispatcher
  | int | long | double | bool | text | list | array | iterator | file | lambda
  | factory => rfl

/-- The operation changes the length of its receiver. -/
def Operation.grows : Operation → Bool
  | .eager (.growth _) => true
  | _ => false

/-- None but lists have operations that change their length. -/
theorem Kind.eq_list_of_grows
    {kind : Kind} {method : String} {op : Operation}
    (h : kind.operation? method = some op) (hgrows : op.grows = true) : kind = .list := by
  obtain ⟨before, after, hsplit, -⟩ := List.lookup_eq_some_iff.mp h
  have hmem : (method, op) ∈ kind.operations := by simp [hsplit]
  have hnone : kind ≠ .list → ∀ entry ∈ kind.operations, entry.2.grows = false := by
    cases kind <;> decide
  by_cases hkind : kind = .list
  · exact hkind
  · rw [hnone hkind _ hmem] at hgrows
    cases hgrows

/-- How a session goes on after a statement that is no expression. -/
def afterStatement (host : Host) (fuel scope : Nat) (stmt : Stmt) (rest : List Stmt) :
    Flow → Run (Option Value)
  | .pass => evalStatements host fuel scope none rest
  | .giveBack v => pure (some v)
  | .leave => Run.failAt stmt.span (.escaped .leave)
  | .skip => Run.failAt stmt.span (.escaped .skip)

theorem evalStatements_cons
    (host : Host) (fuel scope : Nat) (last : Option Value) {stmt : Stmt}
    (rest : List Stmt) (h : ∀ value span, stmt ≠ .expr value span) :
    evalStatements host fuel scope last (stmt :: rest) =
      exec host fuel scope stmt >>= afterStatement host fuel scope stmt rest := by
  have hafter : afterStatement host fuel scope stmt rest = fun flow =>
      match flow with
      | .pass => evalStatements host fuel scope none rest
      | .giveBack v => pure (some v)
      | .leave => Run.failAt stmt.span (.escaped .leave)
      | .skip => Run.failAt stmt.span (.escaped .skip) := by
    funext flow
    cases flow <;> rfl
  rw [hafter]
  cases stmt with
  | expr value span => exact absurd rfl (h value span)
  | branch | loop | declare | assign | giveBack | leave | skip | block => rfl

/-! ## More steps -/

namespace Computation

variable {σ ε α β : Type} {c c' : Computation σ ε α} {s s' : σ}

theorem bind_congr
    (h : c s = c' s') (f : α → Computation σ ε β) : (c >>= f) s = (c' >>= f) s' := by
  change Computation.bind c f s = Computation.bind c' f s'
  rw [Computation.bind, Computation.bind, h]

theorem bind_of_done
    {a : α} (h : c s = .done a s')
    (f : α → Computation σ ε β) : (c >>= f) s = f a s' := by
  change Computation.bind c f s = _
  rw [Computation.bind, h]

theorem bind_of_failed
    {e : ε} (h : c s = .failed e s')
    (f : α → Computation σ ε β) : (c >>= f) s = .failed e s' := by
  change Computation.bind c f s = _
  rw [Computation.bind, h]

theorem bind_of_crashed
    (h : c s = .crashed s')
    (f : α → Computation σ ε β) : (c >>= f) s = .crashed s' := by
  change Computation.bind c f s = _
  rw [Computation.bind, h]

theorem bind_of_exhausted
    (h : c s = .exhausted)
    (f : α → Computation σ ε β) : (c >>= f) s = .exhausted := by
  change Computation.bind c f s = _
  rw [Computation.bind, h]

end Computation

/-- An outcome has no value to go on with, and another is the same one. -/
inductive Outcome.BreaksOff {σ ε α β : Type} : Outcome σ ε α → Outcome σ ε β → Prop
  | failed (e : ε) (s : σ) : BreaksOff (.failed e s) (.failed e s)
  | crashed (s : σ) : BreaksOff (.crashed s) (.crashed s)
  | exhausted : BreaksOff .exhausted .exhausted

namespace Outcome.BreaksOff

variable {σ ε α β γ : Type} {o : Outcome σ ε α} {o' : Outcome σ ε β}

theorem left (h : o.BreaksOff o') : o.BreaksOff o := by
  cases h <;> constructor

theorem right (h : o.BreaksOff o') : o'.BreaksOff o' := by
  cases h <;> constructor

/-- A computation whose first part breaks off does so as well. -/
theorem bind_eq {c : Computation σ ε α} {s : σ} (h : o.BreaksOff o') (hc : c s = o)
    (f : α → Computation σ ε β) : (c >>= f) s = o' := by
  cases h with
  | failed => exact Computation.bind_of_failed hc f
  | crashed => exact Computation.bind_of_crashed hc f
  | exhausted => exact Computation.bind_of_exhausted hc f

end Outcome.BreaksOff

namespace Outcome

variable {σ ε α β : Type}

/-- The second outcome is the first one, unless that ran out of steps. -/
def Settles (o o' : Outcome σ ε α) : Prop :=
  o = .exhausted ∨ o' = o

theorem Settles.refl (o : Outcome σ ε α) : o.Settles o :=
  .inr rfl

theorem Settles.eq {o o' : Outcome σ ε α} (h : o.Settles o') (hends : o ≠ .exhausted) :
    o' = o :=
  h.resolve_left hends

theorem Settles.trans {o o' o'' : Outcome σ ε α} (h : o.Settles o')
    (h' : o'.Settles o'') : o.Settles o'' := by
  rcases h with hout | rfl
  · exact .inl hout
  · exact h'

theorem Settles.bind
    {c c' : Computation σ ε α} {f f' : α → Computation σ ε β} {s : σ}
    (hc : (c s).Settles (c' s)) (hf : ∀ a s, (f a s).Settles (f' a s)) :
    ((c >>= f) s).Settles ((c' >>= f') s) := by
  change (Computation.bind c f s).Settles (Computation.bind c' f' s)
  unfold Computation.bind
  rcases hc with hout | heq
  · rw [hout]
    exact .inl rfl
  · rw [heq]
    cases c s with
    | done a s' => exact hf a s'
    | failed | crashed | exhausted => exact .refl _

theorem Settles.adjustFailure
    {c c' : Computation σ ε α} {s : σ} (h : (c s).Settles (c' s)) (f : ε → ε) :
    (c.adjustFailure f s).Settles (c'.adjustFailure f s) := by
  unfold Computation.adjustFailure
  rcases h with hout | heq
  · rw [hout]
    exact .inl rfl
  · rw [heq]
    exact .refl _

end Outcome

theorem Outcome.Settles.return {o o' : Outcome State Failure Flow} (h : o.Settles o') :
    (State.return o).Settles (State.return o') := by
  rcases h with rfl | rfl
  · exact .inl rfl
  · exact .refl _

mutual

theorem eval_settles (host : Host) (fuel scope : Nat) (e : Expr) (s : State) :
    (eval host fuel scope e s).Settles (eval host (fuel + 1) scope e s) := by
  match fuel with
  | 0 => exact .inl rfl
  | fuel + 1 =>
      cases e with
      | literal | name | lambda => exact .refl _
      | call receiver method args span =>
          refine (eval_settles host fuel scope receiver s).bind fun target s' => ?_
          exact (dispatch_settles host fuel scope target method.node
            (.deferred scope args) s').adjustFailure _
termination_by structural fuel

theorem evalAll_settles (host : Host) (fuel scope : Nat) (es : List Expr) (s : State) :
    (evalAll host fuel scope es s).Settles (evalAll host (fuel + 1) scope es s) := by
  match fuel with
  | 0 => exact .inl rfl
  | fuel + 1 =>
      cases es with
      | nil => exact .refl _
      | cons e es =>
          refine (eval_settles host fuel scope e s).bind fun first s' => ?_
          exact (evalAll_settles host fuel scope es s').bind fun _ _ => .refl _
termination_by structural fuel

theorem force_settles (host : Host) (fuel : Nat) (args : Arguments) (s : State) :
    (force host fuel args s).Settles (force host (fuel + 1) args s) := by
  match fuel with
  | 0 => exact .inl rfl
  | fuel + 1 =>
      cases args with
      | deferred scope exprs => exact evalAll_settles host fuel scope exprs s
      | ready values => exact .refl _
termination_by structural fuel

theorem dispatch_settles
    (host : Host) (fuel scope : Nat) (v : Value) (method : String) (args : Arguments)
    (s : State) :
    (dispatch host fuel scope v method args s).Settles
      (dispatch host (fuel + 1) scope v method args s) := by
  match fuel with
  | 0 => exact .inl rfl
  | fuel + 1 =>
      by_cases hvoid : v = .void
      · subst hvoid
        exact .refl _
      · by_cases hdispatcher : v = .dispatcher
        · subst hdispatcher
          exact callNamed_settles host fuel scope method args s
        · rw [dispatch_eq_dispatchKind host fuel scope method args hvoid hdispatcher,
            dispatch_eq_dispatchKind host (fuel + 1) scope method args hvoid hdispatcher,
              dispatchKind,
            dispatchKind]
          cases v.kind.operation? method with
          | none => exact .refl _
          | some op =>
              dsimp only
              split
              · exact operate_settles host fuel op v method args s
              · exact .refl _
termination_by structural fuel

theorem operate_settles
    (host : Host) (fuel : Nat) (op : Operation) (v : Value) (method : String)
    (args : Arguments) (s : State) :
    (operate host fuel op v method args s).Settles
      (operate host (fuel + 1) op v method args s) := by
  match fuel with
  | 0 => exact .inl rfl
  | fuel + 1 =>
      cases op with
      | invoke =>
          refine (force_settles host fuel args s).bind fun values s' => ?_
          exact invoke_settles host fuel v values s'
      | connective op =>
          refine (Outcome.Settles.refl _).bind fun decided s' => ?_
          cases decided with
          | some b => exact .refl _
          | none => exact (force_settles host fuel args s').bind fun _ _ => .refl _
      | eager op => exact (force_settles host fuel args s).bind fun _ _ => .refl _
termination_by structural fuel

theorem callNamed_settles (host : Host) (fuel scope : Nat) (name : String)
    (args : Arguments) (s : State) :
    (callNamed host fuel scope name args s).Settles
      (callNamed host (fuel + 1) scope name args s) := by
  match fuel with
  | 0 => exact .inl rfl
  | fuel + 1 =>
      unfold callNamed
      cases Builtin.ofName? name with
      | some builtin => exact (force_settles host fuel args s).bind fun _ _ => .refl _
      | none =>
          refine (Outcome.Settles.refl _).bind fun found s₁ => ?_
          cases found with
          | none => exact .refl _
          | some function =>
              refine (force_settles host fuel args s₁).bind fun values s₂ => ?_
              refine (Outcome.Settles.refl _).bind fun root s₃ => ?_
              exact callFunction_settles host fuel function values root s₃
termination_by structural fuel

theorem invoke_settles (host : Host) (fuel : Nat) (v : Value) (values : List Value)
    (s : State) :
    (invoke host fuel v values s).Settles (invoke host (fuel + 1) v values s) := by
  match fuel with
  | 0 => exact .inl rfl
  | fuel + 1 =>
      cases v with
      | lambda cell =>
          refine (Outcome.Settles.refl _).bind fun closure s' => ?_
          exact callFunction_settles host fuel closure.function values closure.scope s'
      | int | long | double | bool | text | list | array | iterator | file | void
      | dispatcher | factory =>
          exact .refl _
termination_by structural fuel

theorem callFunction_settles
    (host : Host) (fuel : Nat) (f : Function) (values : List Value) (parent : Nat)
    (s : State) :
    (callFunction host fuel f values parent s).Settles
      (callFunction host (fuel + 1) f values parent s) := by
  match fuel with
  | 0 => exact .inl rfl
  | fuel + 1 =>
      unfold callFunction
      dsimp only
      split
      · exact .refl _
      · split
        · exact .refl _
        · exact (execAll_settles host fuel _ f.body _).return
termination_by structural fuel

theorem execAll_settles (host : Host) (fuel scope : Nat) (stmts : List Stmt) (s : State) :
    (execAll host fuel scope stmts s).Settles
      (execAll host (fuel + 1) scope stmts s) := by
  match fuel with
  | 0 => exact .inl rfl
  | fuel + 1 =>
      cases stmts with
      | nil => exact .refl _
      | cons stmt rest =>
          refine (exec_settles host fuel scope stmt s).bind fun flow s' => ?_
          cases flow with
          | pass => exact execAll_settles host fuel scope rest s'
          | giveBack | leave | skip => exact .refl _
termination_by structural fuel

theorem execBody_settles (host : Host) (fuel scope : Nat) (body : List Stmt) (s : State) :
    (execBody host fuel scope body s).Settles
      (execBody host (fuel + 1) scope body s) := by
  match fuel with
  | 0 => exact .inl rfl
  | fuel + 1 =>
      refine (Outcome.Settles.refl _).bind fun inner s' => ?_
      exact execAll_settles host fuel inner body s'
termination_by structural fuel

theorem exec_settles (host : Host) (fuel scope : Nat) (stmt : Stmt) (s : State) :
    (exec host fuel scope stmt s).Settles (exec host (fuel + 1) scope stmt s) := by
  match fuel with
  | 0 => exact .inl rfl
  | fuel + 1 =>
      cases stmt with
      | branch arms span => exact execArms_settles host fuel scope arms s
      | loop test body span => exact execLoop_settles host fuel scope test body s
      | declare name init span =>
          exact (eval_settles host fuel scope init s).bind fun _ _ => .refl _
      | assign name value span =>
          exact (eval_settles host fuel scope value s).bind fun _ _ => .refl _
      | giveBack value span =>
          cases value with
          | none => exact .refl _
          | some value =>
              exact (eval_settles host fuel scope value s).bind fun _ _ => .refl _
      | leave span => exact .refl _
      | skip span => exact .refl _
      | block body span => exact execBody_settles host fuel scope body s
      | expr value span =>
          exact (eval_settles host fuel scope value s).bind fun _ _ => .refl _
termination_by structural fuel

theorem execArms_settles (host : Host) (fuel scope : Nat) (arms : Arms) (s : State) :
    (execArms host fuel scope arms s).Settles
      (execArms host (fuel + 1) scope arms s) := by
  match fuel with
  | 0 => exact .inl rfl
  | fuel + 1 =>
      cases arms with
      | done => exact .refl _
      | otherwise body => exact execBody_settles host fuel scope body s
      | test test body rest =>
          refine (condition_settles host fuel scope test s).bind fun holds s' => ?_
          cases holds with
          | true => exact execBody_settles host fuel scope body s'
          | false => exact execArms_settles host fuel scope rest s'
termination_by structural fuel

theorem execLoop_settles (host : Host) (fuel scope : Nat) (test : Expr) (body : List Stmt)
    (s : State) :
    (execLoop host fuel scope test body s).Settles
      (execLoop host (fuel + 1) scope test body s) := by
  match fuel with
  | 0 => exact .inl rfl
  | fuel + 1 =>
      refine (condition_settles host fuel scope test s).bind fun holds s' => ?_
      cases holds with
      | false => exact .refl _
      | true =>
          refine (execBody_settles host fuel scope body s').bind fun flow s'' => ?_
          cases flow with
          | leave | giveBack => exact .refl _
          | pass | skip => exact execLoop_settles host fuel scope test body s''
termination_by structural fuel

theorem condition_settles (host : Host) (fuel scope : Nat) (test : Expr) (s : State) :
    (condition host fuel scope test s).Settles
      (condition host (fuel + 1) scope test s) := by
  match fuel with
  | 0 => exact .inl rfl
  | fuel + 1 => exact (eval_settles host fuel scope test s).bind fun _ _ => .refl _
termination_by structural fuel

end

/-- What settles with each step more settles with any number of steps more. -/
theorem settles_of_le
    {σ ε α : Type} {run : Nat → Outcome σ ε α}
    (h : ∀ fuel, (run fuel).Settles (run (fuel + 1))) {fuel more : Nat}
    (hle : fuel ≤ more) : (run fuel).Settles (run more) := by
  induction hle with
  | refl => exact .refl _
  | step _ ih => exact ih.trans (h _)

/-- A run that ends ends the same way with more steps. -/
theorem settled_of_le
    {σ ε α : Type} {run : Nat → Outcome σ ε α}
    (h : ∀ fuel, (run fuel).Settles (run (fuel + 1))) {fuel more : Nat}
    (hle : fuel ≤ more) (hends : run fuel ≠ .exhausted) : run more = run fuel :=
  (settles_of_le h hle).eq hends

/-- Two runs that end have one outcome. -/
theorem settled_unique
    {σ ε α : Type} {run : Nat → Outcome σ ε α}
    (h : ∀ fuel, (run fuel).Settles (run (fuel + 1))) {m n : Nat}
    (hm : run m ≠ .exhausted) (hn : run n ≠ .exhausted) : run m = run n := by
  rcases Nat.le_total m n with hle | hle
  · exact (settled_of_le h hle hm).symm
  · exact settled_of_le h hle hn

/-- From some number of steps on, the outcome is this one. -/
def EndsWith {σ ε α : Type} (ask : Nat → Outcome σ ε α) (o : Outcome σ ε α) : Prop :=
  o ≠ .exhausted ∧ ∃ steps, ∀ fuel, steps ≤ fuel → ask fuel = o

section EndsWith

variable {σ ε α : Type} {ask : Nat → Outcome σ ε α} {o o' : Outcome σ ε α}

theorem endsWith_of_eq
    (hsettles : ∀ fuel, (ask fuel).Settles (ask (fuel + 1))) {fuel : Nat}
    (h : ask fuel = o) (hends : o ≠ .exhausted) : EndsWith ask o := by
  refine ⟨hends, fuel, ?_⟩
  intro more hle
  have hsame := settled_of_le hsettles hle (by rw [h]; exact hends)
  exact hsame.trans h

theorem EndsWith.unique (h : EndsWith ask o) (h' : EndsWith ask o') : o = o' := by
  obtain ⟨-, steps, hsteps⟩ := h
  obtain ⟨-, steps', hsteps'⟩ := h'
  exact (hsteps (max steps steps') (Nat.le_max_left ..)).symm.trans
    (hsteps' _ (Nat.le_max_right ..))

theorem EndsWith.lift {τ δ : Type} (h : EndsWith ask o) (state : σ → τ) (wrap : ε → δ) :
    EndsWith (fun fuel => (ask fuel).lift state wrap) (o.lift state wrap) := by
  obtain ⟨hends, steps, hsteps⟩ := h
  refine ⟨?_, steps, ?_⟩
  · cases o with
    | done | failed | crashed => exact nofun
    | exhausted => exact absurd rfl hends
  · intro fuel hfuel
    exact congrArg (Outcome.lift state wrap) (hsteps fuel hfuel)

end EndsWith

end HandleScript
