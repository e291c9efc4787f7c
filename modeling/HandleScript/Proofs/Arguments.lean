import HandleScript.Proofs.Depth

/-!
# When arguments are evaluated

A call gets its arguments unevaluated. What becomes of them depends on the receiver, the
method and their number alone, and is one of three things. A call that cannot be made
fails before it looks at them. A connective evaluates its operand only when the receiver
leaves the result open. Any other call evaluates all of them, from left to right, up to
the first that breaks off, and then does what it would do with their values: so it makes
no difference whether a script makes the call or a host that has the values in hand.
-/

namespace HandleScript

/-! ## Runs that end -/

section EndsWith

variable {α β : Type} {ask : Nat → Outcome State Failure α}
  {o : Outcome State Failure α} {s : State}

theorem endsWith_shift (ask : Nat → Outcome State Failure α) (few : Nat) :
    EndsWith (fun fuel => ask (fuel + few)) o ↔ EndsWith ask o := by
  constructor
  · rintro ⟨hends, steps, hsteps⟩
    refine ⟨hends, steps + few, ?_⟩
    intro fuel hfuel
    have hshifted : ask (fuel - few + few) = o := hsteps (fuel - few) (by omega)
    rwa [Nat.sub_add_cancel (by omega)] at hshifted
  · rintro ⟨hends, steps, hsteps⟩
    refine ⟨hends, steps, ?_⟩
    intro fuel hfuel
    exact hsteps (fuel + few) (by omega)

/-- What comes to the same with any number of steps, but for a few, ends with that and
with nothing else. -/
theorem endsWith_iff_eq
    {r : Outcome State Failure α} (few : Nat) (h : ∀ fuel, ask (fuel + few) = r)
    (hr : r ≠ .exhausted) : EndsWith ask o ↔ o = r := by
  rw [← endsWith_shift ask few]
  constructor
  · rintro ⟨-, steps, hsteps⟩
    exact (hsteps steps (Nat.le_refl steps)).symm.trans (h steps)
  · rintro rfl
    exact ⟨hr, 0, fun fuel _ => h fuel⟩

/-- What goes on after a first run ends where that one breaks off, or as it goes on from
where that one ends. -/
theorem endsWith_bind
    {first : Nat → Run β} {next : Nat → β → Run α} (few : Nat)
    (hask : ∀ fuel, ask (fuel + few) = (first fuel >>= next fuel) s)
    (hsettles : ∀ fuel, (first fuel s).Settles (first (fuel + 1) s)) :
    EndsWith ask o ↔
      (∃ r, EndsWith (fun fuel => first fuel s) r ∧ r.BreaksOff o) ∨
      ∃ b t, EndsWith (fun fuel => first fuel s) (.done b t) ∧
        EndsWith (fun fuel => next fuel b t) o := by
  rw [← endsWith_shift ask few]
  simp only [hask]
  constructor
  · rintro ⟨hends, steps, hsteps⟩
    have hboth : ∀ fuel, steps ≤ fuel → (first fuel >>= next fuel) s = o := hsteps
    have hlast := hboth steps (Nat.le_refl steps)
    cases hfirst : first steps s with
    | exhausted =>
        rw [Computation.bind_of_exhausted hfirst] at hlast
        exact absurd hlast.symm hends
    | failed f t =>
        rw [Computation.bind_of_failed hfirst] at hlast
        exact .inl ⟨.failed f t, endsWith_of_eq hsettles hfirst nofun,
          hlast ▸ .failed f t⟩
    | crashed t =>
        rw [Computation.bind_of_crashed hfirst] at hlast
        exact .inl ⟨.crashed t, endsWith_of_eq hsettles hfirst nofun, hlast ▸ .crashed t⟩
    | done b t =>
        refine .inr ⟨b, t, endsWith_of_eq hsettles hfirst nofun, hends, steps, ?_⟩
        intro fuel hfuel
        have hsame : first fuel s = first steps s :=
          settled_of_le hsettles hfuel (by rw [hfirst]; exact nofun)
        have hgoes := hboth fuel hfuel
        rwa [Computation.bind_of_done (hsame.trans hfirst)] at hgoes
  · rintro (⟨r, ⟨hends, steps, hsteps⟩, hbreaks⟩ |
      ⟨b, t, ⟨-, steps, hsteps⟩, hends, steps', hsteps'⟩)
    · refine ⟨?_, steps, fun fuel hfuel => hbreaks.bind_eq (hsteps fuel hfuel) _⟩
      rintro rfl
      cases hbreaks
      exact hends rfl
    · refine ⟨hends, max steps steps', ?_⟩
      intro fuel hfuel
      have hfirst : first fuel s = .done b t := hsteps fuel (by omega)
      exact (Computation.bind_of_done hfirst _).trans (hsteps' fuel (by omega))

theorem endsWith_map
    {first : Nat → Run β} {g : β → α}
    (hsettles : ∀ fuel, (first fuel s).Settles (first (fuel + 1) s)) :
    EndsWith (fun fuel => (first fuel >>= fun b => pure (g b)) s) o ↔
      ∃ r, EndsWith (fun fuel => first fuel s) r ∧ o = r.map g := by
  have hpure : ∀ (b : β) (t : State), EndsWith (fun _ => (pure (g b) : Run α) t) o ↔
      o = .done (g b) t := by
    intro b t
    exact endsWith_iff_eq 0 (fun _ => rfl) nofun
  rw [endsWith_bind 0 (fun _ => rfl) hsettles]
  simp only [hpure]
  constructor
  · rintro (⟨r, hr, hbreaks⟩ | ⟨b, t, hdone, rfl⟩)
    · exact ⟨r, hr, by cases hbreaks <;> rfl⟩
    · exact ⟨.done b t, hdone, rfl⟩
  · rintro ⟨r, hr, rfl⟩
    cases r with
    | done b t => exact .inr ⟨b, t, hr, rfl⟩
    | failed f t => exact .inl ⟨_, hr, .failed f t⟩
    | crashed t => exact .inl ⟨_, hr, .crashed t⟩
    | exhausted => exact absurd rfl hr.1

theorem breaksOff_map_iff {γ : Type} {r : Outcome State Failure β} {g : β → γ} :
    (r.map g).BreaksOff o ↔ r.BreaksOff o := by
  cases r with
  | failed | crashed | exhausted =>
      constructor
      · intro h
        cases h
        constructor
      · intro h
        cases h
        constructor
  | done => exact ⟨nofun, nofun⟩

theorem Outcome.eq_done_of_map {r : Outcome State Failure β} {g : β → α} {a : α}
    {t : State} (h : r.map g = .done a t) : ∃ b, r = .done b t ∧ g b = a := by
  cases r with
  | done b t' =>
      cases h
      exact ⟨b, rfl, rfl⟩
  | failed | crashed | exhausted => cases h

end EndsWith

/-! ## Evaluating in order -/

/-- The expressions are evaluated one after the other, each from where the one before has
ended, up to the first that breaks off. -/
inductive EvaluatesInOrder (host : Host) (env : Nat) :
    List Expr → State → Outcome State Failure (List Value) → Prop
  | nil {s : State} : EvaluatesInOrder host env [] s (.done [] s)
  | stop {e : Expr} {es : List Expr} {s : State} {r : Outcome State Failure Value}
      {o : Outcome State Failure (List Value)}
        (first : EndsWith (fun fuel => eval host fuel env e s) r)
      (breaks : r.BreaksOff o) : EvaluatesInOrder host env (e :: es) s o
  | cons {e : Expr} {es : List Expr} {s t : State} {v : Value}
      {o : Outcome State Failure (List Value)}
      (first : EndsWith (fun fuel => eval host fuel env e s) (.done v t))
        (rest : EvaluatesInOrder host env es t o) :
      EvaluatesInOrder host env (e :: es) s (o.map (v :: ·))

theorem endsWith_evalAll_iff
    {host : Host} {env : Nat} {es : List Expr} {s : State}
    {o : Outcome State Failure (List Value)} :
    EndsWith (fun fuel => evalAll host fuel env es s) o ↔
      EvaluatesInOrder host env es s o := by
  induction es generalizing s o with
  | nil =>
      have hnil : EndsWith (fun fuel => evalAll host fuel env [] s) o ↔ o = .done [] s :=
        endsWith_iff_eq 1 (fun _ => rfl) nofun
      rw [hnil]
      constructor
      · rintro rfl
        exact .nil
      · rintro ⟨⟩
        rfl
  | cons e es ih =>
      rw [endsWith_bind 1 (fun _ => rfl) (fun fuel => eval_settles host fuel env e s)]
      have hrest : ∀ v t, EndsWith
          (fun fuel => (evalAll host fuel env es >>= fun vs =>
              (pure (v :: vs) : Run (List Value))) t) o ↔
            ∃ r, EvaluatesInOrder host env es t r ∧ o = r.map (v :: ·) := by
        intro v t
        rw [endsWith_map fun fuel => evalAll_settles host fuel env es t]
        simp only [ih]
      constructor
      · rintro (⟨r, hfirst, hbreaks⟩ | ⟨v, t, hfirst, hmore⟩)
        · exact .stop hfirst hbreaks
        · obtain ⟨r, hr, rfl⟩ := (hrest v t).mp hmore
          exact .cons hfirst hr
      · intro h
        cases h with
        | stop hfirst hbreaks => exact .inl ⟨_, hfirst, hbreaks⟩
        | cons hfirst hr => exact .inr ⟨_, _, hfirst, (hrest _ _).mpr ⟨_, hr, rfl⟩⟩

theorem evaluatesInOrder_singleton_iff
    {host : Host} {env : Nat} {e : Expr} {s : State}
    {o : Outcome State Failure (List Value)} :
    EvaluatesInOrder host env [e] s o ↔
      ∃ r, EndsWith (fun fuel => eval host fuel env e s) r ∧ o = r.map fun v => [v] := by
  constructor
  · intro h
    cases h with
    | @stop _ _ _ r _ first breaks => exact ⟨r, first, by cases breaks <;> rfl⟩
    | cons first rest =>
        cases rest
        exact ⟨_, first, rfl⟩
  · rintro ⟨r, hr, rfl⟩
    cases r with
    | done v t => exact .cons hr .nil
    | failed f t => exact .stop hr (.failed f t)
    | crashed t => exact .stop hr (.crashed t)
    | exhausted => exact absurd rfl hr.1

/-- As many values as expressions. -/
theorem length_of_evalAll
    {host : Host} {fuel env : Nat} {es : List Expr} {s t : State} {values : List Value}
    (h : evalAll host fuel env es s = .done values t) : values.length = es.length := by
  induction es generalizing fuel s values with
  | nil =>
      cases fuel with
      | zero => cases h
      | succ fuel =>
          cases h
          rfl
  | cons e es ih =>
      cases fuel with
      | zero => cases h
      | succ fuel =>
          obtain ⟨v, s', -, hrest⟩ := Computation.bind_eq_done h
          obtain ⟨vs, s'', hvs, hend⟩ := Computation.bind_eq_done hrest
          cases hend
          rw [List.length_cons, List.length_cons, ih hvs]

/-! ## Three sorts of calls -/

namespace Connective

/-- The method that stands for the connective. -/
def name : Connective → String
  | and => "and"
  | or => "or"

/-- The truth value that a connective gives to two others. -/
def apply : Connective → Bool → Bool → Bool
  | and, b, x => b && x
  | or, b, x => b || x

/-- The receiver alone tells the result. -/
def Decides (op : Connective) (b r : Bool) : Prop :=
  ∀ x, op.apply b x = r

theorem decidedBy_of_decides {op : Connective} {b r : Bool} (h : op.Decides b r) :
    op.decidedBy b = true ∧ b = r := by
  have hfalse := h false
  have htrue := h true
  cases op <;> cases b <;> cases r <;> simp_all [apply, decidedBy]

/-- Where the receiver does not tell the result, it is the operand's truth value. -/
theorem apply_of_not_decides {op : Connective} {b : Bool} (h : ¬∃ r, op.Decides b r) :
    op.decidedBy b = false ∧ ∀ x, op.apply b x = x := by
  cases op <;> cases b <;> simp_all [Decides, apply, decidedBy]

/-- What a connective makes of its operand. -/
def conclude (op : Connective) (b : Bool) (operand : Value) : Run Value :=
  fun s =>
    match s.store.bool? operand with
    | some x => Run.alloc (.bool (op.apply b x)) s
    | none => .failed ⟨.operandMismatch op.name .bool operand.kind, none⟩ s

theorem carryOut_plan_eq_conclude {op : Connective} {b : Bool} (h : ¬∃ r, op.Decides b r)
    (operand : Value) (s : State) :
    Run.carryOut (fun store => Connective.plan store op.name [operand]) s =
      op.conclude b operand s := by
  simp only [Run.carryOut, plan, conclude]
  cases s.store.bool? operand with
  | some x =>
      simp only [(apply_of_not_decides h).2 x]
      rfl
  | none => rfl

end Connective

/-- The call of a connective: it has one operand. -/
inductive Connects : Value → String → (count : Nat) → Prop
  | intro (cell : Nat) (op : Connective) : Connects (.bool cell) op.name 1

/-- A call that cannot be made, whatever its arguments are, and the cause for which it
fails. -/
inductive Refused (listing : Listing) (functions : Bindings Function) :
    Value → String → (count : Nat) → Cause → Prop
  | onVoid {method : String} {count : Nat} :
      Refused listing functions .void method count (.callOnVoid method)
  | unknownMethod {v : Value} {method : String} {count : Nat} (notVoid : v ≠ .void)
      (notDispatcher : v ≠ .dispatcher)
      (unknown : method ∉ v.kind.operationNames) :
      Refused listing functions v method count (HandleScript.unknownMethod v.kind method)
  | arity {v : Value} {method : String} {count arity : Nat} {op : Operation}
      (found : v.kind.operation? method = some op) (fixed : op.arity = some arity)
        (misfit : count ≠ arity) :
      Refused listing functions v method count (.arityMismatch method arity count)
  | undefinedFunction {name : String} {count : Nat} (notBuiltin : name ∉ Builtin.names)
      (notLoaded : name ∉ functions.names) :
      Refused listing functions .dispatcher name count
        (HandleScript.undefinedFunction listing functions name)

/-- A call that evaluates its arguments: of a function, of a function literal, or of an
operation that takes so many. -/
inductive Proceeds (functions : Bindings Function) : Value → String → (count : Nat) → Prop
  | builtin {name : String} {count : Nat} {builtin : Builtin}
      (found : Builtin.ofName? name = some builtin) :
      Proceeds functions .dispatcher name count
  | function {name : String} {count : Nat} {f : Function}
      (loaded : Builtin.ofName? name = none)
      (found : functions.get? name = some f) : Proceeds functions .dispatcher name count
  | eager {v : Value} {method : String} {count : Nat} {op : EagerOp}
      (found : v.kind.operation? method = some (.eager op))
        (accepted : (Operation.eager op).accepts count = true) :
      Proceeds functions v method count
  | invoke {v : Value} {method : String} {count : Nat}
      (found : v.kind.operation? method = some .invoke) :
      Proceeds functions v method count

theorem lookup_eq_none_iff_notMem {α : Type} {name : String}
    {entries : List (String × α)} :
    entries.lookup name = none ↔ name ∉ entries.map Prod.fst := by
  rw [List.lookup_eq_none_iff]
  constructor
  · intro h hmem
    obtain ⟨entry, hentry, rfl⟩ := List.mem_map.mp hmem
    simpa using h entry hentry
  · intro h entry hentry
    have hne : name ≠ entry.1 := by
      rintro rfl
      exact h (List.mem_map_of_mem hentry)
    simpa using hne

theorem Kind.mem_operations {kind : Kind} {method : String} {op : Operation}
    (h : kind.operation? method = some op) : (method, op) ∈ kind.operations := by
  obtain ⟨before, after, hsplit, -⟩ := List.lookup_eq_some_iff.mp h
  simp [hsplit]

/-- Only truth values have connectives, under their names. -/
theorem Kind.eq_bool_of_connective
    {kind : Kind} {method : String} {op : Connective}
    (h : kind.operation? method = some (.connective op)) :
    kind = .bool ∧ method = op.name := by
  have hall : ∀ entry ∈ kind.operations, entry.2 = .connective op →
      kind = .bool ∧ entry.1 = op.name := by
    cases kind <;> cases op <;> decide
  exact hall _ (Kind.mem_operations h) rfl

theorem Kind.operation?_connective (op : Connective) :
    Kind.bool.operation? op.name = some (.connective op) := by
  cases op <;> decide

section Sorts

variable {listing : Listing} {functions : Bindings Function} {v : Value} {method : String}
  {count : Nat} {cause : Cause}

theorem ne_void_and_ne_dispatcher {op : Operation}
    (h : v.kind.operation? method = some op) : v ≠ .void ∧ v ≠ .dispatcher := by
  constructor
  · rintro rfl
    cases h
  · rintro rfl
    cases h

theorem Connects.not_refused (h : Connects v method count) :
    ¬Refused listing functions v method count cause := by
  cases h with
  | intro cell op =>
      intro hrefused
      have hfound := Kind.operation?_connective op
      cases hrefused with
      | unknownMethod _ _ unknown =>
          rw [Kind.operationNames, ← lookup_eq_none_iff_notMem] at unknown
          cases hfound.symm.trans unknown
      | arity found fixed misfit =>
          cases hfound.symm.trans found
          cases fixed
          exact misfit rfl

theorem proceeds_of_not
    (hrefused : ∀ cause, ¬Refused listing functions v method count cause)
    (hconnects : ¬Connects v method count) : Proceeds functions v method count := by
  by_cases hvoid : v = .void
  · subst hvoid
    exact absurd .onVoid (hrefused _)
  · by_cases hdispatcher : v = .dispatcher
    · subst hdispatcher
      cases hbuiltin : Builtin.ofName? method with
      | some builtin => exact .builtin hbuiltin
      | none =>
          cases hfound : functions.get? method with
          | some f => exact .function hbuiltin hfound
          | none =>
              have hnotBuiltin := lookup_eq_none_iff_notMem.mp hbuiltin
              have hnotLoaded := lookup_eq_none_iff_notMem.mp hfound
              exact absurd (.undefinedFunction hnotBuiltin hnotLoaded) (hrefused _)
    · cases hfound : v.kind.operation? method with
      | none =>
          exact absurd (.unknownMethod hvoid hdispatcher
            (lookup_eq_none_iff_notMem.mp hfound)) (hrefused _)
      | some op =>
          have haccepts : op.accepts count = true := by
            unfold Operation.accepts
            cases harity : op.arity with
            | none => rfl
            | some arity =>
                by_cases hcount : count = arity
                · simp [hcount]
                · exact absurd (.arity hfound harity hcount) (hrefused _)
          cases op with
          | eager op => exact .eager hfound haccepts
          | invoke => exact .invoke hfound
          | connective op =>
              obtain ⟨hkind, rfl⟩ := Kind.eq_bool_of_connective hfound
              cases v with
              | bool cell =>
                  have hcount : count = 1 := (beq_iff_eq.mp haccepts).symm
                  subst hcount
                  exact absurd (.intro cell op) hconnects
              | _ => cases hkind

end Sorts

/-! ## What becomes of the arguments -/

theorem Run.carryOut_fresh {plan : Store → Plan} {s : State} {content : Content}
    (h : plan s.store = .ok (.fresh content)) :
    Run.carryOut plan s = Run.alloc content s := by
  unfold Run.carryOut
  rw [h]
  rfl

theorem Run.carryOut_write {plan : Store → Plan} {s : State} {receiver : Value}
    {content : Content} (h : plan s.store = .ok (.write receiver content)) :
    Run.carryOut plan s = .done receiver
      { s with store := s.store.write receiver content } := by
  unfold Run.carryOut
  rw [h]
  rfl

section Calls

variable {host : Host} {s : State} {scope env : Nat} {v : Value}
  {method : String} {exprs : List Expr}

theorem dispatch_of_found
    {op : Operation} (h : v.kind.operation? method = some op) {args : Arguments}
    (haccepts : op.accepts args.count = true) (fuel : Nat) :
    dispatch host (fuel + 1) scope v method args =
      operate host fuel op v method args := by
  obtain ⟨hvoid, hdispatcher⟩ := ne_void_and_ne_dispatcher h
  rw [dispatch_eq_dispatchKind host fuel scope method args hvoid hdispatcher,
    dispatchKind, h]
  exact if_pos haccepts

/-- With its arguments evaluated, an operation that acts at once does so. -/
theorem dispatch_of_eager
    {op : EagerOp} (h : v.kind.operation? method = some (.eager op)) {values : List Value}
    (haccepts : (Operation.eager op).accepts (Arguments.ready values).count = true)
    (fuel : Nat) :
    dispatch host (fuel + 3) scope v method (.ready values) =
      Run.carryOut fun store => op.plan host.files store v method values := by
  rw [dispatch_of_found h haccepts, operate, force]
  rfl

theorem dispatch_of_refused
    {args : Arguments} {cause : Cause}
    (h : Refused host.listing s.functions v method args.count cause) (fuel : Nat) :
    dispatch host (fuel + 2) scope v method args s = .failed ⟨cause, none⟩ s := by
  generalize hcount : args.count = count at h
  cases h with
  | onVoid => rfl
  | unknownMethod notVoid notDispatcher unknown =>
      have hnone : v.kind.operation? method = none :=
        lookup_eq_none_iff_notMem.mpr unknown
      rw [dispatch_eq_dispatchKind host _ scope method args notVoid notDispatcher,
        dispatchKind, hnone]
      rfl
  | arity found fixed misfit =>
      obtain ⟨hvoid, hdispatcher⟩ := ne_void_and_ne_dispatcher found
      rw [dispatch_eq_dispatchKind host _ scope method args hvoid hdispatcher,
        dispatchKind, found]
      simp only [Operation.accepts, fixed, hcount, beq_iff_eq, Ne.symm misfit, if_false]
      rfl
  | undefinedFunction notBuiltin notLoaded =>
      exact callNamed_unknown host fuel (lookup_eq_none_iff_notMem.mpr notBuiltin)
        (lookup_eq_none_iff_notMem.mpr notLoaded) scope args

/-- Two continuations that agree wherever the first computation can end. -/
theorem bind_congr_done
    {α β : Type} {c : Run α} {f g : α → Run β}
    (h : ∀ a t, c s = .done a t → f a t = g a t) : (c >>= f) s = (c >>= g) s := by
  cases hc : c s with
  | done a t => rw [Computation.bind_of_done hc, Computation.bind_of_done hc, h a t hc]
  | failed e t => rw [Computation.bind_of_failed hc, Computation.bind_of_failed hc]
  | crashed t => rw [Computation.bind_of_crashed hc, Computation.bind_of_crashed hc]
  | exhausted => rw [Computation.bind_of_exhausted hc, Computation.bind_of_exhausted hc]

/-- A call that proceeds evaluates its arguments, and then does what it does with their
values. -/
theorem dispatch_of_proceeds (h : Proceeds s.functions v method exprs.length)
    (fuel : Nat) :
    dispatch host (fuel + 3) scope v method (.deferred env exprs) s =
      (evalAll host fuel env exprs >>= fun values =>
        dispatch host (fuel + 3) scope v method (.ready values)) s := by
  cases h with
  | @builtin _ _ builtin found =>
      have hcall : ∀ args, dispatch host (fuel + 3) scope .dispatcher method args =
          force host (fuel + 1) args >>= builtin.call :=
            callNamed_builtin host (fuel + 1) found scope
      simp only [hcall]
      rfl
  | @function _ _ f loaded found =>
      have hcall := callNamed_function host (fuel + 1) loaded found scope
        (.deferred env exprs)
      refine hcall.trans ?_
      apply bind_congr_done
      intro values t hdone
      -- Evaluating the arguments loads no function, so the name stands for the same one
      -- as before.
      have hkept : t.functions = s.functions := by
        have hforward := (Job.evalAll env exprs).forward host fuel s
        rw [show (Job.evalAll env exprs).run host fuel s = .done values t from hdone]
          at hforward
        exact hforward.functions
      have hsame : t.functions.get? method = some f := by
        rw [hkept]
        exact found
      exact (callNamed_function host (fuel + 1) loaded hsame scope (.ready values)).symm
  | @eager _ _ _ op found accepted =>
      have haccepted : (Operation.eager op).accepts (Arguments.deferred env exprs).count =
        true := accepted
      rw [dispatch_of_found found haccepted]
      apply bind_congr_done
      intro values t hdone
      have haccepts : (Operation.eager op).accepts
          (Arguments.ready values).count = true := by
        rwa [Arguments.count, length_of_evalAll hdone]
      rw [dispatch_of_found found haccepts]
      rfl
  | invoke found =>
      rw [dispatch_of_found found rfl]
      apply bind_congr_done
      intro values t hdone
      rw [dispatch_of_found found rfl]
      rfl

/-- While the job is done, no expression is evaluated. -/
def EvaluatesNothing (host : Host) (job : Job) (s : State) : Prop :=
  ∀ fuel entered left scope e t, ¬Job.Active host fuel job s entered left
    (.eval scope e) t

theorem Refused.evaluatesNothing
    {args : Arguments} {cause : Cause}
    (h : Refused host.listing s.functions v method args.count cause) :
    EvaluatesNothing host (.dispatch scope v method args) s := by
  intro fuel entered left scope' e t hactive
  cases hactive with
  | inside hcalls hrest =>
      cases hcalls with
      | named =>
          -- The dispatcher looks for the function before it evaluates anything.
          cases h with
          | unknownMethod _ notDispatcher _ => exact notDispatcher rfl
          | arity found _ _ => cases found
          | undefinedFunction notBuiltin notLoaded =>
              cases hrest with
              | inside hcalls _ =>
                  cases hcalls with
                  | builtinArgs found =>
                      have hnone := lookup_eq_none_iff_notMem.mpr notBuiltin
                      cases found.symm.trans hnone
                  | functionArgs _ found | function _ found _ =>
                      have hnone := lookup_eq_none_iff_notMem.mpr notLoaded
                      cases found.symm.trans hnone
      | operation notVoid notDispatcher found accepted =>
          cases h with
          | onVoid => exact notVoid rfl
          | unknownMethod _ _ unknown =>
              have hnone := lookup_eq_none_iff_notMem.mpr unknown
              cases found.symm.trans hnone
          | arity found' fixed misfit =>
              cases found.symm.trans found'
              simp only [Operation.accepts, fixed, beq_iff_eq] at accepted
              exact misfit accepted.symm
          | undefinedFunction => exact notDispatcher rfl

variable {cell : Nat} {op : Connective} {e : Expr}

theorem dispatch_connective (fuel : Nat) :
    dispatch host (fuel + 1) scope (.bool cell) op.name (.deferred env [e]) =
      operate host fuel (.connective op) (.bool cell) op.name (.deferred env [e]) := by
  have hfound : (Value.bool cell).kind.operation? op.name = some (.connective op) :=
    Kind.operation?_connective op
  exact dispatch_of_found hfound rfl fuel

theorem dispatch_of_decides {r : Bool} (h : op.Decides (s.store.bools.get cell) r)
    (fuel : Nat) :
    dispatch host (fuel + 2) scope (.bool cell) op.name (.deferred env [e]) s =
      Run.alloc (.bool r) s := by
  obtain ⟨hdecided, rfl⟩ := Connective.decidedBy_of_decides h
  rw [dispatch_connective]
  apply operate_decided host fuel
  simp [Store.bool?, hdecided]

theorem evaluatesNothing_of_decides {r : Bool}
    (h : op.Decides (s.store.bools.get cell) r) :
    EvaluatesNothing host (.dispatch scope (.bool cell) op.name (.deferred env [e]))
      s := by
  intro fuel entered left scope' e' t hactive
  cases hactive with
  | inside hcalls hrest =>
      cases hcalls with
      | operation _ _ found _ =>
          cases (Kind.operation?_connective op).symm.trans found
          cases hrest with
          | inside hcalls _ =>
              cases hcalls with
              | operand undecided =>
                  simp [Store.bool?, (Connective.decidedBy_of_decides h).1] at undecided

/-- The operand of a connective whose receiver leaves the result open, once it has been
evaluated. -/
theorem endsWith_operand_iff
    (h : ¬∃ r, op.Decides (s.store.bools.get cell) r) {o : Outcome State Failure Value} :
    EndsWith (fun fuel => dispatch host fuel scope (.bool cell) op.name
        (.deferred env [e]) s) o ↔
      (∃ r, EndsWith (fun fuel => eval host fuel env e s) r ∧ r.BreaksOff o) ∨
      ∃ w t, EndsWith (fun fuel => eval host fuel env e s) (.done w t) ∧
        o = op.conclude (s.store.bools.get cell) w t := by
  have hundecided : (s.store.bool? (.bool cell)).filter op.decidedBy = none := by
    simp [Store.bool?, (Connective.apply_of_not_decides h).1]
  have hrun : ∀ fuel, dispatch host (fuel + 3) scope (.bool cell)
      op.name (.deferred env [e]) s =
      (evalAll host fuel env [e] >>= fun values =>
        Run.carryOut fun store => Connective.plan store op.name values) s := by
    intro fuel
    rw [dispatch_connective]
    exact operate_undecided host (fuel + 1) hundecided _ _
  have hcarried : ∀ (w : Value) (t : State),
      EndsWith (fun _ => Run.carryOut (fun store => Connective.plan store op.name [w]) t)
          o ↔
        o = op.conclude (s.store.bools.get cell) w t := by
    intro w t
    refine endsWith_iff_eq 0 (fun _ => Connective.carryOut_plan_eq_conclude h w t) ?_
    unfold Connective.conclude
    split
    all_goals
      intro hexhausted
      cases hexhausted
  rw [endsWith_bind 3 hrun fun fuel => evalAll_settles host fuel env [e] s]
  simp only [endsWith_evalAll_iff, evaluatesInOrder_singleton_iff]
  constructor
  · rintro (⟨_, ⟨r, hr, rfl⟩, hbreaks⟩ | ⟨values, t, ⟨r, hr, heq⟩, hconcludes⟩)
    · exact .inl ⟨r, hr, breaksOff_map_iff.mp hbreaks⟩
    · obtain ⟨w, rfl, rfl⟩ := Outcome.eq_done_of_map heq.symm
      exact .inr ⟨w, t, hr, (hcarried w t).mp hconcludes⟩
  · rintro (⟨r, hr, hbreaks⟩ | ⟨w, t, hr, hconcludes⟩)
    · exact .inl ⟨_, ⟨r, hr, rfl⟩, breaksOff_map_iff.mpr hbreaks⟩
    · exact .inr ⟨[w], t, ⟨_, hr, rfl⟩, (hcarried w t).mpr hconcludes⟩

end Calls

/-- Of a call with unevaluated arguments, just one of three things becomes. A call that
cannot be made fails, with the state as it was and without evaluating anything. A
connective evaluates its one operand if the receiver's truth value, as it was before, does
not tell the result, and evaluates nothing if it does. Any other call evaluates its
arguments in order up to the first that breaks off, and breaks off with it; or else it
goes on from there as the call with their values does. -/
theorem arguments_in_order_or_not_at_all
    (host : Host) (s : State) (scope env : Nat) (v : Value) (method : String)
    (exprs : List Expr) :
    (∀ cause, Refused host.listing s.functions v method exprs.length cause →
      ¬Connects v method exprs.length ∧
      EvaluatesNothing host (.dispatch scope v method (.deferred env exprs)) s ∧
      ∀ o, EndsWith (fun fuel => dispatch host fuel scope v method
          (.deferred env exprs) s) o ↔
        o = .failed ⟨cause, none⟩ s) ∧
    (∀ (cell : Nat) (op : Connective) (e : Expr), v = .bool cell →
        method = op.name → exprs = [e] →
      (∀ r, op.Decides (s.store.bools.get cell) r →
        EvaluatesNothing host (.dispatch scope v method (.deferred env exprs)) s ∧
        ∀ o, EndsWith (fun fuel => dispatch host fuel scope v method
            (.deferred env exprs) s) o ↔
          o = Run.alloc (.bool r) s) ∧
      ((¬∃ r, op.Decides (s.store.bools.get cell) r) →
        ∀ o, EndsWith (fun fuel => dispatch host fuel scope v method
            (.deferred env exprs) s) o ↔
          (∃ r, EndsWith (fun fuel => eval host fuel env e s) r ∧ r.BreaksOff o) ∨
          ∃ w t, EndsWith (fun fuel => eval host fuel env e s) (.done w t) ∧
            o = op.conclude (s.store.bools.get cell) w t)) ∧
    ((¬∃ cause, Refused host.listing s.functions v method exprs.length cause) →
        ¬Connects v method exprs.length →
      ∀ o, EndsWith (fun fuel => dispatch host fuel scope v method
          (.deferred env exprs) s) o ↔
        (∃ r, EvaluatesInOrder host env exprs s r ∧ r.BreaksOff o) ∨
        ∃ values t, EvaluatesInOrder host env exprs s (.done values t) ∧
          EndsWith (fun fuel => dispatch host fuel scope v method (.ready values) t)
            o) := by
  refine ⟨?_, ?_, ?_⟩
  · intro cause hrefused
    refine ⟨fun hconnects => hconnects.not_refused hrefused,
      Refused.evaluatesNothing hrefused, ?_⟩
    intro o
    exact endsWith_iff_eq 2 (fun fuel => dispatch_of_refused hrefused fuel) nofun
  · rintro cell op e rfl rfl rfl
    constructor
    · intro r hdecides
      refine ⟨evaluatesNothing_of_decides hdecides, ?_⟩
      intro o
      exact endsWith_iff_eq 2 (fun fuel => dispatch_of_decides hdecides fuel) nofun
    · intro hopen o
      exact endsWith_operand_iff hopen
  · intro hrefused hconnects o
    have hproceeds := proceeds_of_not (fun cause h => hrefused ⟨cause, h⟩) hconnects
    rw [endsWith_bind 3 (dispatch_of_proceeds hproceeds) fun fuel =>
      evalAll_settles host fuel env exprs s]
    simp only [endsWith_evalAll_iff]
    have hshift : ∀ values t, EndsWith
        (fun fuel => dispatch host (fuel + 3) scope v method (.ready values) t) o ↔
        EndsWith (fun fuel => dispatch host fuel scope v method (.ready values) t) o := by
      intro values t
      exact endsWith_shift
        (fun fuel => dispatch host fuel scope v method (.ready values) t) 3
    simp only [hshift]

/-- A call on `void`, a connective that its receiver decides, and a new list with one
argument. -/
theorem arguments_in_order_or_not_at_all_calls :
    let host : Host := ⟨1, .empty, .asBound⟩
    let e := Expr.literal (.int 1) default
    let s := State.initial (.ofLines [] none)
    let no := { s with store := (s.store.alloc (.bool false)).2 }
    EvaluatesNothing host (.dispatch globalScope .void "size" (.deferred globalScope [e]))
      s ∧
    EvaluatesNothing host
      (.dispatch globalScope (.bool 0) "and" (.deferred globalScope [e])) no ∧
    ∃ t, EndsWith (fun fuel => dispatch host fuel globalScope .factory "list"
        (.deferred globalScope [e]) s)
      (.done (.list 0) t) := by
  intro host e s no
  have hrefused :=
    (arguments_in_order_or_not_at_all host s globalScope globalScope .void "size" [e]).1
  have hconnective := (arguments_in_order_or_not_at_all host no globalScope globalScope
    (.bool 0) "and" [e]).2.1
  have hproceeds :=
    (arguments_in_order_or_not_at_all host s globalScope globalScope .factory "list"
    [e]).2.2
  have hmakes : ¬∃ cause, Refused host.listing s.functions .factory "list" 1 cause := by
    rintro ⟨cause, h⟩
    cases h with
    | unknownMethod _ _ unknown => exact unknown (by decide)
    | arity found fixed _ =>
        cases found
        cases fixed
  have hplain : ¬Connects .factory "list" 1 := nofun
  let one := { s with store := (s.store.alloc (.number (.int 1))).2 }
  have hvalue : eval host 1 globalScope e s = .done (.int 0) one := rfl
  have hlist : dispatch host 3 globalScope .factory "list" (.ready [.int 0]) one =
      .done (.list 0) { one with store := (one.store.alloc (.list #[.int 0])).2 } := rfl
  have hfirst := endsWith_of_eq (fun fuel => eval_settles host fuel globalScope e s)
    hvalue nofun
  have hcall := endsWith_of_eq
    (fun fuel => dispatch_settles host fuel globalScope _ _ _ one) hlist nofun
  have hmade := (hproceeds hmakes hplain _).mpr
    (.inr ⟨[.int 0], one, .cons hfirst .nil, hcall⟩)
  exact ⟨(hrefused _ .onVoid).2.1,
    ((hconnective 0 .and e rfl rfl rfl).1 false fun _ => rfl).1, _, hmade⟩

end HandleScript
