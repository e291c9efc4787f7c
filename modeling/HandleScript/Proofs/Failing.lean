import HandleScript.Proofs.Job
import HandleScript.Proofs.Plan

/-!
# Where failures come from

A job fails in two ways: it raises a failure itself, or a job that it calls for fails.
This module says once which job raises which failure, and which one adds a place to a
failure that has none: only the evaluation of a call does. So a run fails exactly when
some chain of jobs, each called for by the one before, ends with a job that raises a
failure, and the place of the failure is the one it was raised with, or else that of the
innermost call of the chain.
-/

namespace HandleScript

/-! ## Failing in parts -/

namespace Computation

variable {σ ε α β : Type}

theorem bind_eq_failed
    {c : Computation σ ε α} {f : α → Computation σ ε β} {s s' : σ} {e : ε}
    (h : (c >>= f) s = .failed e s') :
    c s = .failed e s' ∨ ∃ a t, c s = .done a t ∧ f a t = .failed e s' := by
  cases hc : c s with
  | done a t =>
      rw [bind_of_done hc] at h
      exact .inr ⟨a, t, rfl, h⟩
  | failed e' t =>
      rw [bind_of_failed hc] at h
      cases h
      exact .inl rfl
  | crashed t =>
      rw [bind_of_crashed hc] at h
      cases h
  | exhausted =>
      rw [bind_of_exhausted hc] at h
      cases h

theorem adjustFailure_eq_failed
    {c : Computation σ ε α} {f : ε → ε} {s s' : σ} {e : ε}
    (h : c.adjustFailure f s = .failed e s') : ∃ e', c s = .failed e' s' ∧ e = f e' := by
  unfold adjustFailure at h
  split at h
  next => cases h
  next e' t hc =>
    cases h
    exact ⟨e', hc, rfl⟩
  next => cases h
  next => cases h

theorem adjustFailure_of_failed
    {c : Computation σ ε α} {s s' : σ} {e : ε} (h : c s = .failed e s') (f : ε → ε) :
    c.adjustFailure f s = .failed (f e) s' := by
  unfold adjustFailure
  rw [h]

end Computation

theorem Failure.located_eq (f : Failure) (span : Span) :
    f.located span = ⟨f.cause, f.span.or (some span)⟩ := by
  obtain ⟨cause, _ | place⟩ := f <;> rfl

/-- How a statement ends that leaves or restarts a loop. -/
def LoopExit.flow : LoopExit → Flow
  | leave => .leave
  | skip => .skip

/-- A call fails as the function's body does, or because a loop exit ends that body. -/
theorem State.return_eq_failed {o : Outcome State Failure Flow} {f : Failure} {s : State}
    (h : State.return o = .failed f s) :
    (∃ t, o = .failed f t) ∨ ∃ exit t, o = .done (LoopExit.flow exit) t ∧
      f = ⟨.escaped exit, none⟩ := by
  cases o with
  | done flow t =>
      cases flow with
      | pass | giveBack => cases h
      | leave =>
          cases h
          exact .inr ⟨.leave, t, rfl, rfl⟩
      | skip =>
          cases h
          exact .inr ⟨.skip, t, rfl, rfl⟩
  | failed failure t =>
      cases h
      exact .inl ⟨t, rfl⟩
  | crashed | exhausted => cases h

theorem Run.carryOut_eq_failed {plan : Store → Plan} {s s' : State} {f : Failure}
    (h : Run.carryOut plan s = .failed f s') :
    ∃ cause, plan s.store = .error cause ∧ f = ⟨cause, none⟩ := by
  unfold Run.carryOut at h
  split at h
  next cause hplan =>
    cases h
    exact ⟨cause, hplan, rfl⟩
  next => split at h <;> cases h

theorem Run.carryOut_of_error {plan : Store → Plan} {s : State} {cause : Cause}
    (h : plan s.store = .error cause) :
    Run.carryOut plan s = .failed ⟨cause, none⟩ s := by
  unfold Run.carryOut
  rw [h]

theorem Run.write_eq_failed {text : String} {s s' : State} {f : Failure}
    (h : Run.write text s = .failed f s') : f = ⟨.trouble .outputClosed, none⟩ := by
  unfold Run.write at h
  split at h <;> cases h
  rfl

theorem Run.readLine_eq_failed {s s' : State} {f : Failure}
    (h : Run.readLine s = .failed f s') : f = ⟨.trouble .inputNotText, none⟩ := by
  unfold Run.readLine Console.readLine at h
  cases hinput : s.console.input with
  | nil =>
      rw [hinput] at h
      cases h
  | cons line rest =>
      rw [hinput] at h
      cases line <;> cases h
      rfl

/-- Built-in functions fail without a place, and never for an unknown name. -/
theorem Builtin.call_eq_failed {builtin : Builtin} {values : List Value} {s s' : State}
    {f : Failure} (h : builtin.call values s = .failed f s') :
    ∃ cause : Cause, f = ⟨cause, none⟩ ∧ cause.sort ∉ FailureSort.ofNames := by
  cases builtin with
  | println => exact ⟨_, Run.write_eq_failed h, by decide⟩
  | print => exact ⟨_, Run.write_eq_failed h, by decide⟩
  | readln =>
      by_cases hempty : values.isEmpty
      · simp only [Builtin.call, hempty, if_true] at h
        exact ⟨_, Run.readLine_eq_failed h, by decide⟩
      · simp only [Builtin.call, hempty] at h
        cases h
        exact ⟨_, rfl, by simp [Cause.sort, FailureSort.ofNames]⟩
  | int =>
      rcases values with _ | ⟨v, _ | ⟨w, rest⟩⟩
      · cases h
        exact ⟨_, rfl, by decide⟩
      · have hcarried : Run.carryOut (fun store => FactoryOp.int.plan store "int" [v]) s =
          .failed f s' := h
        obtain ⟨cause, hrefused, rfl⟩ := Run.carryOut_eq_failed hcarried
        have harises := FactoryOp.int.plan_allows s.store .factory "int" [v]
        rw [hrefused] at harises
        exact ⟨cause, rfl, harises.2 trivial⟩
      · cases h
        exact ⟨_, rfl, by simp [Cause.sort, FailureSort.ofNames]⟩

namespace Job

/-! ## Failures of a job's own -/

/-- Done from the state `s` with one step more than `fuel`, the job itself fails, and not
because of a job that it calls for. -/
inductive Raises (host : Host) (fuel : Nat) : Job → State → Failure → Prop
  | unbound {scope : Nat} {text : String} {span : Span} {s : State}
      (unbound : s.scopes.get? scope text = none) :
      Raises host fuel (.eval scope (.name text span)) s
        ⟨.undefinedVariable text
            (Text.suggestion text
              (host.listing.arrange (Run.suggestable (s.scopes.visibleNames scope)))),
              some span⟩
  | onVoid {scope : Nat} {method : String} {args : Arguments} {s : State} :
      Raises host fuel (.dispatch scope .void method args) s ⟨.callOnVoid method, none⟩
  | unknown {scope : Nat} {receiver : Value} {method : String}
      {args : Arguments} {s : State}
      (notVoid : receiver ≠ .void) (notDispatcher : receiver ≠ .dispatcher)
      (unfound : receiver.kind.operation? method = none) :
      Raises host fuel (.dispatch scope receiver method args) s
        ⟨unknownMethod receiver.kind method, none⟩
  | misfit {scope : Nat} {receiver : Value} {method : String} {args : Arguments}
      {s : State} {op : Operation}
      (notVoid : receiver ≠ .void) (notDispatcher : receiver ≠ .dispatcher)
      (found : receiver.kind.operation? method = some op)
        (refused : ¬ op.accepts args.count = true) :
      Raises host fuel (.dispatch scope receiver method args) s
        ⟨.arityMismatch method (op.arity.getD 0) args.count, none⟩
  | operand {op : Connective} {receiver : Value} {method : String}
      {args : Arguments} {values : List Value}
      {cause : Cause} {s t : State}
        (undecided : (s.store.bool? receiver).filter op.decidedBy = none)
      (before : HandleScript.force host fuel args s = .done values t)
      (refused : Connective.plan t.store method values = .error cause) :
      Raises host fuel (.operate (.connective op) receiver method args) s ⟨cause, none⟩
  | operands {op : EagerOp} {receiver : Value} {method : String}
      {args : Arguments} {values : List Value}
      {cause : Cause} {s t : State}
        (before : HandleScript.force host fuel args s = .done values t)
      (refused : op.plan host.files t.store receiver method values = .error cause) :
      Raises host fuel (.operate (.eager op) receiver method args) s ⟨cause, none⟩
  | builtin {scope : Nat} {name : String} {args : Arguments}
      {builtin : Builtin} {values : List Value}
      {f : Failure} {s t t' : State} (found : Builtin.ofName? name = some builtin)
      (before : HandleScript.force host fuel args s = .done values t)
      (failed : builtin.call values t = .failed f t') :
        Raises host fuel (.callNamed scope name args) s f
  | undefined {scope : Nat} {name : String} {args : Arguments} {s : State}
      (loaded : Builtin.ofName? name = none) (unfound : s.functions.get? name = none) :
      Raises host fuel (.callNamed scope name args) s
        ⟨undefinedFunction host.listing s.functions name, none⟩
  | notLambda {receiver : Value} {values : List Value} {s : State}
      (other : ∀ cell, receiver ≠ .lambda cell) :
      Raises host fuel (.invoke receiver values) s
        ⟨unknownMethod receiver.kind "invoke", none⟩
  | arity {f : Function} {values : List Value} {parent : Nat} {s : State}
      (arity : f.params.length ≠ values.length) :
      Raises host fuel (.callFunction f values parent) s
        ⟨.arityMismatch f.name.node f.params.length values.length, none⟩
  | overflow {f : Function} {values : List Value} {parent : Nat} {s : State}
      (arity : f.params.length = values.length) (refused : host.maxDepth < s.depth + 1) :
      Raises host fuel (.callFunction f values parent) s
        ⟨.stackOverflow host.maxDepth, none⟩
  | escaped {f : Function} {values : List Value} {parent : Nat}
      {exit : LoopExit} {s t : State}
      (arity : f.params.length = values.length) (admitted : s.depth + 1 ≤ host.maxDepth)
      (ended : HandleScript.execAll host fuel (s.enter parent f values).1 f.body
          (s.enter parent f values).2 =
        .done exit.flow t) :
      Raises host fuel (.callFunction f values parent) s ⟨.escaped exit, none⟩
  | notBool {scope : Nat} {test : Expr} {v : Value} {s t : State}
      (before : HandleScript.eval host fuel scope test s = .done v t)
        (other : t.store.bool? v = none) :
      Raises host fuel (.condition scope test) s
        ⟨.unsuitable .boolCondition v.kind, some test.span⟩
  | outside {scope : Nat} {stmts : List Stmt} {stmt : Stmt}
      {exit : LoopExit} {s t t' : State}
      (starts : Starts host fuel scope stmts s (.exec scope stmt) t)
      (ended : HandleScript.exec host fuel scope stmt t = .done exit.flow t') :
      Raises host fuel (.input scope stmts) s ⟨.escaped exit, some stmt.span⟩

/-- The place that a job adds to the failures of jobs that it calls for: a call is placed
at the name of its method. -/
def calling : Job → Option Span
  | eval _ (.call _ method _ _) => some method.span
  | _ => none

/-- The place of the innermost call among jobs that have not ended, the outermost one
first. -/
def innermostCall : List Job → Option Span
  | [] => none
  | job :: stack => (innermostCall stack).or job.calling

end Job

/-- The failure of a job when a job that it calls for fails. -/
def Failure.through (f : Failure) (job : Job) : Failure :=
  ⟨f.cause, f.span.or job.calling⟩

theorem Failure.through_of_quiet {job : Job} (h : job.calling = none) (f : Failure) :
    f.through job = f := by
  rw [Failure.through, h, Option.or_none]

namespace Job

variable {host : Host} {fuel : Nat} {job job' : Job} {s s' t t' : State} {f : Failure}

/-- No call raises a failure itself. -/
theorem Raises.innermostCall_eq_none (h : Raises host fuel job s f) :
    innermostCall [job] = none := by
  cases h <;> rfl

/-- The evaluation of an expression fails with a place. -/
theorem eval_failed_place {scope : Nat} {e : Expr}
    (h : HandleScript.eval host fuel scope e s = .failed f s') : f.span ≠ none := by
  induction fuel generalizing e s with
  | zero => cases h
  | succ fuel ih =>
      cases e with
      | literal value span => cases value <;> cases h
      | lambda function => cases h
      | name text span =>
          obtain ⟨f', -, rfl⟩ := Computation.adjustFailure_eq_failed h
          rw [Failure.located_eq]
          simp
      | call receiver method args span =>
          rcases Computation.bind_eq_failed h with hreceiver | ⟨target, t, -, hcall⟩
          · exact ih hreceiver
          · obtain ⟨f', -, rfl⟩ := Computation.adjustFailure_eq_failed hcall
            rw [Failure.located_eq]
            simp

/-! ## Failing through other jobs -/

/-- The job raises the failure, or a job that it calls for fails. -/
def Breaks (host : Host) (fuel : Nat) (job : Job) (s : State) (f : Failure) : Prop :=
  Raises host fuel job s f ∨
    ∃ job' t f' t', Calls host fuel job s job' t ∧ job'.run host fuel t = .failed f' t' ∧
      f = f'.through job

/-- A job other than a call fails as the jobs do that it calls for. -/
theorem Breaks.of_calls (calls : Calls host fuel job s job' t)
    (hfailed : job'.run host fuel t = .failed f t') (hquiet : job.calling = none) :
    Breaks host fuel job s f :=
  .inr ⟨job', t, f, t', calls, hfailed, (f.through_of_quiet hquiet).symm⟩

theorem eval_breaks {scope : Nat} {e : Expr}
    (h : HandleScript.eval host (fuel + 1) scope e s = .failed f s') :
    Breaks host fuel (.eval scope e) s f := by
  cases e with
  | literal value span => cases value <;> cases h
  | lambda function => cases h
  | name text span =>
      obtain ⟨f', hlookup, rfl⟩ := Computation.adjustFailure_eq_failed h
      unfold Run.lookup at hlookup
      split at hlookup
      next => cases hlookup
      next hunbound =>
        cases hlookup
        exact .inl (.unbound hunbound)
  | call receiver method args span =>
      rcases Computation.bind_eq_failed h with hreceiver | ⟨target, t, hreceiver, hcall⟩
      · obtain ⟨place, hplace⟩ := Option.ne_none_iff_exists'.mp
          (eval_failed_place hreceiver)
        refine .inr ⟨_, _, f, _, .receiver, hreceiver, ?_⟩
        rw [Failure.through, hplace, Option.some_or, ← hplace]
      · obtain ⟨f', hfailed, rfl⟩ := Computation.adjustFailure_eq_failed hcall
        exact .inr ⟨_, _, f', _, .method hreceiver, hfailed, f'.located_eq method.span⟩

theorem evalAll_breaks
    {scope : Nat} {es : List Expr}
    (h : HandleScript.evalAll host (fuel + 1) scope es s = .failed f s') :
    Breaks host fuel (.evalAll scope es) s f := by
  cases es with
  | nil => cases h
  | cons e es =>
      rcases Computation.bind_eq_failed h with hfirst | ⟨v, t, hfirst, hrest⟩
      · exact .of_calls .first hfirst rfl
      · rcases Computation.bind_eq_failed hrest with hothers | ⟨vs, u, -, hend⟩
        · exact .of_calls (.others hfirst) hothers rfl
        · cases hend

theorem dispatch_breaks
    {scope : Nat} {receiver : Value} {method : String} {args : Arguments}
    (h : HandleScript.dispatch host (fuel + 1) scope receiver method args s =
      .failed f s') :
    Breaks host fuel (.dispatch scope receiver method args) s f := by
  by_cases hvoid : receiver = .void
  · subst hvoid
    cases h
    exact .inl .onVoid
  · by_cases hdispatcher : receiver = .dispatcher
    · subst hdispatcher
      exact .of_calls .named h rfl
    · rw [dispatch_eq_dispatchKind host fuel scope method args hvoid hdispatcher,
        dispatchKind] at h
      cases hfound : receiver.kind.operation? method with
      | none =>
          rw [hfound] at h
          cases h
          exact .inl (.unknown hvoid hdispatcher hfound)
      | some op =>
          rw [hfound] at h
          dsimp only at h
          by_cases haccepts : op.accepts args.count = true
          · rw [if_pos haccepts] at h
            exact .of_calls (.operation hvoid hdispatcher hfound haccepts) h rfl
          · rw [if_neg haccepts] at h
            cases h
            exact .inl (.misfit hvoid hdispatcher hfound haccepts)

theorem operate_breaks
    {op : Operation} {receiver : Value} {method : String} {args : Arguments}
    (h : HandleScript.operate host (fuel + 1) op receiver method args s = .failed f s') :
    Breaks host fuel (.operate op receiver method args) s f := by
  cases op with
  | invoke =>
      rcases Computation.bind_eq_failed h with hargs | ⟨values, t, hargs, hinvoke⟩
      · exact .of_calls .invokeArgs hargs rfl
      · exact .of_calls (.invoke hargs) hinvoke rfl
  | connective op =>
      cases hdecided : (s.store.bool? receiver).filter op.decidedBy with
      | some b =>
          rw [operate_decided host fuel hdecided] at h
          cases h
      | none =>
          rw [operate_undecided host fuel hdecided] at h
          rcases Computation.bind_eq_failed h with hargs | ⟨values, t, hargs, hend⟩
          · exact .of_calls (.operand hdecided) hargs rfl
          · obtain ⟨cause, hrefused, rfl⟩ := Run.carryOut_eq_failed hend
            exact .inl (.operand hdecided hargs hrefused)
  | eager op =>
      rcases Computation.bind_eq_failed h with hargs | ⟨values, t, hargs, hend⟩
      · exact .of_calls .operands hargs rfl
      · obtain ⟨cause, hrefused, rfl⟩ := Run.carryOut_eq_failed hend
        exact .inl (.operands hargs hrefused)

theorem callNamed_breaks
    {scope : Nat} {name : String} {args : Arguments}
    (h : HandleScript.callNamed host (fuel + 1) scope name args s = .failed f s') :
    Breaks host fuel (.callNamed scope name args) s f := by
  cases hbuiltin : Builtin.ofName? name with
  | some builtin =>
      rw [callNamed_builtin host fuel hbuiltin] at h
      rcases Computation.bind_eq_failed h with hargs | ⟨values, t, hargs, hcalled⟩
      · exact .of_calls (.builtinArgs hbuiltin) hargs rfl
      · exact .inl (.builtin hbuiltin hargs hcalled)
  | none =>
      cases hfound : s.functions.get? name with
      | none =>
          rw [callNamed_unknown host fuel hbuiltin hfound] at h
          cases h
          exact .inl (.undefined hbuiltin hfound)
      | some function =>
          rw [callNamed_function host fuel hbuiltin hfound] at h
          rcases Computation.bind_eq_failed h with hargs | ⟨values, t, hargs, hcall⟩
          · exact .of_calls (.functionArgs hbuiltin hfound) hargs rfl
          · exact .of_calls (.function hbuiltin hfound hargs) hcall rfl

theorem callFunction_breaks
    {function : Function} {values : List Value} {parent : Nat}
    (h : HandleScript.callFunction host (fuel + 1) function values parent s =
      .failed f s') :
    Breaks host fuel (.callFunction function values parent) s f := by
  by_cases harity : function.params.length = values.length
  · by_cases hdepth : s.depth + 1 ≤ host.maxDepth
    · rw [callFunction_admitted host fuel harity hdepth] at h
      rcases State.return_eq_failed h with ⟨t, hbody⟩ | ⟨exit, t, hbody, rfl⟩
      · exact .of_calls (.body harity hdepth) hbody rfl
      · exact .inl (.escaped harity hdepth hbody)
    · rw [callFunction_refused host fuel harity (Nat.lt_of_not_le hdepth)] at h
      cases h
      exact .inl (.overflow harity (Nat.lt_of_not_le hdepth))
  · rw [callFunction_misfit host fuel harity] at h
    cases h
    exact .inl (.arity harity)

theorem execAll_breaks
    {scope : Nat} {stmts : List Stmt}
    (h : HandleScript.execAll host (fuel + 1) scope stmts s = .failed f s') :
    Breaks host fuel (.execAll scope stmts) s f := by
  cases stmts with
  | nil => cases h
  | cons stmt rest =>
      rcases Computation.bind_eq_failed h with hfirst | ⟨flow, t, hfirst, hrest⟩
      · exact .of_calls .statement hfirst rfl
      · cases flow with
        | pass => exact .of_calls (.statements hfirst) hrest rfl
        | giveBack | leave | skip => cases hrest

theorem exec_breaks
    {scope : Nat} {stmt : Stmt}
    (h : HandleScript.exec host (fuel + 1) scope stmt s = .failed f s') :
    Breaks host fuel (.exec scope stmt) s f := by
  cases stmt with
  | branch arms span => exact .of_calls .arms h rfl
  | loop test body span => exact .of_calls .loop h rfl
  | declare name init span =>
      rcases Computation.bind_eq_failed h with hinit | ⟨v, t, -, hend⟩
      · exact .of_calls .init hinit rfl
      · cases hend
  | assign name value span =>
      rcases Computation.bind_eq_failed h with hvalue | ⟨v, t, -, hend⟩
      · exact .of_calls .value hvalue rfl
      · cases hend
  | giveBack value span =>
      cases value with
      | none => cases h
      | some value =>
          rcases Computation.bind_eq_failed h with hvalue | ⟨v, t, -, hend⟩
          · exact .of_calls .result hvalue rfl
          · cases hend
  | leave span => cases h
  | skip span => cases h
  | block body span => exact .of_calls .block h rfl
  | expr value span =>
      rcases Computation.bind_eq_failed h with hvalue | ⟨v, t, -, hend⟩
      · exact .of_calls .expr hvalue rfl
      · cases hend

theorem execArms_breaks
    {scope : Nat} {arms : Arms}
    (h : HandleScript.execArms host (fuel + 1) scope arms s = .failed f s') :
    Breaks host fuel (.execArms scope arms) s f := by
  cases arms with
  | done => cases h
  | otherwise body => exact .of_calls .otherwise h rfl
  | test test body rest =>
      rcases Computation.bind_eq_failed h with htest | ⟨holds, t, htest, hmore⟩
      · exact .of_calls .armTest htest rfl
      · cases holds with
        | true => exact .of_calls (.armBody htest) hmore rfl
        | false => exact .of_calls (.armRest htest) hmore rfl

theorem execLoop_breaks
    {scope : Nat} {test : Expr} {body : List Stmt}
    (h : HandleScript.execLoop host (fuel + 1) scope test body s = .failed f s') :
    Breaks host fuel (.execLoop scope test body) s f := by
  rcases Computation.bind_eq_failed h with htest | ⟨holds, t, htest, hmore⟩
  · exact .of_calls .loopTest htest rfl
  · cases holds with
    | false => cases hmore
    | true =>
        rcases Computation.bind_eq_failed hmore with hbody | ⟨flow, u, hbody, hagain⟩
        · exact .of_calls (.loopBody htest) hbody rfl
        · cases flow with
          | pass => exact .of_calls (.again htest hbody (.inl rfl)) hagain rfl
          | skip => exact .of_calls (.again htest hbody (.inr rfl)) hagain rfl
          | leave | giveBack => cases hagain

theorem condition_breaks
    {scope : Nat} {test : Expr}
    (h : HandleScript.condition host (fuel + 1) scope test s = .failed f s') :
    Breaks host fuel (.condition scope test) s f := by
  rcases Computation.bind_eq_failed h with htest | ⟨v, t, htest, hread⟩
  · exact .of_calls .tested htest rfl
  · rcases Computation.bind_eq_failed hread with hinspect | ⟨found, u, hfound, hend⟩
    · cases hinspect
    · cases found with
      | some b => cases hend
      | none =>
          cases hend
          injection hfound with hother hsame
          subst hsame
          exact .inl (.notBool htest hother)

theorem evalStatements_breaks
    {scope : Nat} {last : Option Value} {stmts : List Stmt}
    (h : evalStatements host fuel scope last stmts s = .failed f s') :
    (∃ job t t', Starts host fuel scope stmts s job t ∧
        job.run host fuel t = .failed f t') ∨
      ∃ stmt exit t t', Starts host fuel scope stmts s (.exec scope stmt) t ∧
        HandleScript.exec host fuel scope stmt t = .done (LoopExit.flow exit) t' ∧
        f = ⟨.escaped exit, some stmt.span⟩ := by
  induction stmts generalizing last s with
  | nil => cases h
  | cons stmt rest ih =>
      by_cases hexpr : ∃ value span, stmt = .expr value span
      · obtain ⟨value, span, rfl⟩ := hexpr
        rcases Computation.bind_eq_failed h with hvalue | ⟨v, t, hvalue, hrest⟩
        · exact .inl ⟨_, _, _, .expr, hvalue⟩
        · rcases ih hrest with ⟨job, u, u', hstarts, hfailed⟩ |
            ⟨later, exit, u, u', hstarts, hended, hf⟩
          · exact .inl ⟨job, u, u', .afterExpr hvalue hstarts, hfailed⟩
          · exact .inr ⟨later, exit, u, u', .afterExpr hvalue hstarts, hended, hf⟩
      · have hplain : ∀ value span, stmt ≠ .expr value span :=
          fun value span heq => hexpr ⟨value, span, heq⟩
        rw [evalStatements_cons host fuel scope last rest hplain] at h
        rcases Computation.bind_eq_failed h with hfirst | ⟨flow, t, hfirst, hrest⟩
        · exact .inl ⟨_, _, _, .stmt hplain, hfirst⟩
        · cases flow with
          | pass =>
              rcases ih hrest with ⟨job, u, u', hstarts, hfailed⟩ |
                ⟨later, exit, u, u', hstarts, hended, hf⟩
              · exact .inl ⟨job, u, u', .afterStmt hplain hfirst hstarts, hfailed⟩
              · exact .inr ⟨later, exit, u, u',
                  .afterStmt hplain hfirst hstarts, hended, hf⟩
          | giveBack => cases hrest
          | leave =>
              cases hrest
              exact .inr ⟨stmt, .leave, _, _, .stmt hplain, hfirst, rfl⟩
          | skip =>
              cases hrest
              exact .inr ⟨stmt, .skip, _, _, .stmt hplain, hfirst, rfl⟩

/-- A job that fails raises the failure, or a job that it calls for fails. -/
theorem breaks_of_failed (h : job.run host (fuel + 1) s = .failed f s') :
    Breaks host fuel job s f := by
  cases job with
  | eval scope e => exact eval_breaks h
  | evalAll scope es => exact evalAll_breaks h
  | force args =>
      cases args with
      | deferred scope es => exact .of_calls .deferred h rfl
      | ready values => cases h
  | dispatch scope receiver method args => exact dispatch_breaks h
  | operate op receiver method args => exact operate_breaks h
  | callNamed scope name args => exact callNamed_breaks h
  | invoke receiver values =>
      cases receiver with
      | lambda cell => exact .of_calls .lambda h rfl
      | int | long | double | bool | text | list | array | iterator | file | void
      | dispatcher | factory =>
          cases h
          exact .inl (.notLambda nofun)
  | callFunction function values parent => exact callFunction_breaks h
  | execAll scope stmts => exact execAll_breaks h
  | execBody scope body => exact .of_calls .opened h rfl
  | exec scope stmt => exact exec_breaks h
  | execArms scope arms => exact execArms_breaks h
  | execLoop scope test body => exact execLoop_breaks h
  | condition scope test => exact condition_breaks h
  | input scope stmts =>
      rcases evalStatements_breaks h with ⟨job, t, t', hstarts, hfailed⟩ |
        ⟨stmt, exit, t, t', hstarts, hended, rfl⟩
      · exact .of_calls (.started hstarts) hfailed rfl
      · exact .inl (.outside hstarts hended)

/-- Statements that come to a job go on as the statement does whose job it is. -/
theorem Starts.evalStatements_eq
    {scope : Nat} {stmts : List Stmt} (h : Starts host fuel scope stmts s job t)
    (last : Option Value) :
    ∃ last' stmt rest,
      evalStatements host fuel scope last stmts s =
        evalStatements host fuel scope last' (stmt :: rest) t ∧
      ((∃ value span, stmt = .expr value span ∧ job = .eval scope value) ∨
        (∀ value span, stmt ≠ .expr value span) ∧ job = .exec scope stmt) := by
  induction h generalizing last with
  | expr => exact ⟨last, _, _, rfl, .inl ⟨_, _, rfl, rfl⟩⟩
  | stmt plain => exact ⟨last, _, _, rfl, .inr ⟨plain, rfl⟩⟩
  | @afterExpr _ _ _ _ _ _ v _ before _ ih =>
      obtain ⟨last', stmt, rest, heq, hjob⟩ := ih (some v)
      exact ⟨last', stmt, rest, (Computation.bind_of_done before _).trans heq, hjob⟩
  | afterStmt plain before _ ih =>
      obtain ⟨last', stmt, rest, heq, hjob⟩ := ih none
      refine ⟨last', stmt, rest, ?_, hjob⟩
      rw [evalStatements_cons host fuel scope last _ plain]
      exact (Computation.bind_of_done before _).trans heq

/-- Statements fail as the job does that they come to. -/
theorem Starts.failed
    {scope : Nat} {stmts : List Stmt} (h : Starts host fuel scope stmts s job t)
    (hfailed : job.run host fuel t = .failed f t') (last : Option Value) :
    evalStatements host fuel scope last stmts s = .failed f t' := by
  obtain ⟨last', stmt, rest, heq, ⟨value, span, rfl, rfl⟩ | ⟨hplain, rfl⟩⟩ :=
    h.evalStatements_eq last
  · exact heq.trans (Computation.bind_of_failed hfailed _)
  · rw [heq, evalStatements_cons host fuel scope last' rest hplain]
    exact Computation.bind_of_failed hfailed _

/-- Statements fail when they come to one that a loop exit ends. -/
theorem Starts.failed_of_exit
    {scope : Nat} {stmts : List Stmt} {stmt : Stmt} {exit : LoopExit}
    (h : Starts host fuel scope stmts s (.exec scope stmt) t)
    (hended : HandleScript.exec host fuel scope stmt t = .done exit.flow t')
    (last : Option Value) :
    evalStatements host fuel scope last stmts s =
      .failed ⟨.escaped exit, some stmt.span⟩ t' := by
  obtain ⟨last', stmt', rest, heq, ⟨value, span, -, hjob⟩ | ⟨hplain, hjob⟩⟩ :=
    h.evalStatements_eq last
  · cases hjob
  · cases hjob
    rw [heq, evalStatements_cons host fuel scope last' rest hplain,
      Computation.bind_of_done hended]
    cases exit <;> rfl

theorem Raises.failed (h : Raises host fuel job s f) :
    ∃ s', job.run host (fuel + 1) s = .failed f s' := by
  cases h with
  | @unbound scope text span s unbound =>
      have hlookup : ∃ hint, Run.lookup host.listing scope text s =
          .failed ⟨.undefinedVariable text hint, none⟩ s ∧
          hint = Text.suggestion text
            (host.listing.arrange (Run.suggestable (s.scopes.visibleNames scope))) := by
        refine ⟨_, ?_, rfl⟩
        unfold Run.lookup
        rw [unbound]
      obtain ⟨hint, hfailed, rfl⟩ := hlookup
      exact ⟨s, Computation.adjustFailure_of_failed hfailed _⟩
  | onVoid => exact ⟨s, rfl⟩
  | unknown notVoid notDispatcher unfound =>
      refine ⟨s, ?_⟩
      change HandleScript.dispatch _ _ _ _ _ _ _ = _
      rw [dispatch_eq_dispatchKind host fuel _ _ _ notVoid notDispatcher,
        dispatchKind, unfound]
      rfl
  | misfit notVoid notDispatcher found refused =>
      refine ⟨s, ?_⟩
      change HandleScript.dispatch _ _ _ _ _ _ _ = _
      rw [dispatch_eq_dispatchKind host fuel _ _ _ notVoid notDispatcher,
        dispatchKind, found]
      simp only [if_neg refused]
      rfl
  | @operand _ _ _ _ _ _ s t undecided before refused =>
      refine ⟨t, (operate_undecided host fuel undecided _ _).trans
        ((Computation.bind_of_done before _).trans ?_)⟩
      exact Run.carryOut_of_error refused
  | operands before refused =>
      exact ⟨_, (Computation.bind_of_done before _).trans (Run.carryOut_of_error refused)⟩
  | @builtin _ _ _ _ _ _ s _ t' found before failed =>
      refine ⟨t', (congrFun (callNamed_builtin host fuel found _ _) s).trans ?_⟩
      exact (Computation.bind_of_done before _).trans failed
  | undefined loaded unfound => exact ⟨s, callNamed_unknown host fuel loaded unfound _ _⟩
  | @notLambda receiver values s other =>
      cases receiver with
      | lambda cell => exact absurd rfl (other cell)
      | int | long | double | bool | text | list | array | iterator | file | void
      | dispatcher | factory =>
          exact ⟨s, rfl⟩
  | arity arity => exact ⟨s, callFunction_misfit host fuel arity _ s⟩
  | overflow arity refused => exact ⟨s, callFunction_refused host fuel arity refused _⟩
  | @escaped function values parent exit s t arity admitted ended =>
      refine ⟨t.leave, (callFunction_admitted host fuel arity admitted _).trans ?_⟩
      rw [ended]
      cases exit <;> rfl
  | @notBool scope test v s t before other =>
      have hread : (Computation.inspect fun s => s.store.bool? v : Run (Option Bool)) t =
          .done none t :=
        congrArg (Outcome.done · t) other
      exact ⟨t, (Computation.bind_of_done before _).trans
        (Computation.bind_of_done hread _)⟩
  | outside starts ended => exact ⟨_, starts.failed_of_exit ended none⟩

/-! ## Chains of failing jobs -/

/-- The first of the jobs on the stack fails, because each of them calls for the next one
and the last one raises a failure. -/
inductive Fails (host : Host) :
    (fuel : Nat) → Job → State → (stack : List Job) → (raised : Failure) → Prop
  | raised {fuel : Nat} {job : Job} {s : State} {raised : Failure}
      (raises : Raises host fuel job s raised) :
      Fails host (fuel + 1) job s [job] raised
  | within {fuel : Nat} {job job' : Job} {s s' : State}
      {stack : List Job} {raised : Failure}
      (calls : Calls host fuel job s job' s')
        (rest : Fails host fuel job' s' stack raised) :
      Fails host (fuel + 1) job s (job :: stack) raised

/-- A job that adds no place fails just as the jobs do that it calls for. -/
theorem Calls.failed_of_quiet
    (h : Calls host fuel job s job' t) (hfailed : job'.run host fuel t = .failed f t')
    (hquiet : job.calling = none) : ∃ s', job.run host (fuel + 1) s = .failed f s' := by
  cases h with
  | receiver | method => cases hquiet
  | deferred | named | lambda | opened | arms | loop | block | otherwise =>
      exact ⟨t', hfailed⟩
  | operation notVoid notDispatcher found accepted =>
      refine ⟨t', ?_⟩
      change HandleScript.dispatch _ _ _ _ _ _ _ = _
      rw [dispatch_eq_dispatchKind host fuel _ _ _ notVoid notDispatcher,
        dispatchKind, found]
      simp only [accepted, if_true]
      exact hfailed
  | first | invokeArgs | operands | statement | init | value | result | expr | armTest
  | loopTest | tested =>
      exact ⟨t', Computation.bind_of_failed hfailed _⟩
  | invoke before | statements before | armBody before | armRest before =>
      exact ⟨t', (Computation.bind_of_done before _).trans hfailed⟩
  | operand undecided =>
      exact ⟨t', (operate_undecided host fuel undecided _ _).trans
        (Computation.bind_of_failed hfailed _)⟩
  | builtinArgs found =>
      exact ⟨t', (congrFun (callNamed_builtin host fuel found _ _) s).trans
        (Computation.bind_of_failed hfailed _)⟩
  | functionArgs loaded found =>
      exact ⟨t', (callNamed_function host fuel loaded found _ _).trans
        (Computation.bind_of_failed hfailed _)⟩
  | function loaded found before =>
      refine ⟨t', (callNamed_function host fuel loaded found _ _).trans ?_⟩
      exact (Computation.bind_of_done before _).trans hfailed
  | body arity admitted =>
      exact ⟨t'.leave, (callFunction_admitted host fuel arity admitted _).trans
        (congrArg State.return hfailed)⟩
  | others before | loopBody before =>
      exact ⟨t', (Computation.bind_of_done before _).trans
        (Computation.bind_of_failed hfailed _)⟩
  | again holds before goesOn =>
      refine ⟨t', (Computation.bind_of_done holds _).trans
        ((Computation.bind_of_done before _).trans ?_)⟩
      rcases goesOn with rfl | rfl <;> exact hfailed
  | started hstarts => exact ⟨t', hstarts.failed hfailed none⟩

/-- A job fails with the jobs that it calls for. -/
theorem Calls.failed (h : Calls host fuel job s job' t)
    (hfailed : job'.run host fuel t = .failed f t') :
    ∃ s', job.run host (fuel + 1) s = .failed (f.through job) s' := by
  by_cases hquiet : job.calling = none
  · rw [f.through_of_quiet hquiet]
    exact h.failed_of_quiet hfailed hquiet
  · cases h with
    | receiver =>
        obtain ⟨place, hplace⟩ := Option.ne_none_iff_exists'.mp
          (eval_failed_place hfailed)
        refine ⟨t', (Computation.bind_of_failed hfailed _).trans ?_⟩
        rw [Failure.through, hplace, Option.some_or, ← hplace]
    | method before =>
        refine ⟨t', (Computation.bind_of_done before _).trans ?_⟩
        exact (Computation.adjustFailure_of_failed hfailed _).trans
          (congrArg (Outcome.failed · t') (f.located_eq _))
    | first | others | deferred | named | operation | invokeArgs | invoke | operand
    | operands | builtinArgs | functionArgs | function | lambda | body | statement
    | statements | opened | arms | loop | init | value | result | block | expr | otherwise
    | armTest | armBody | armRest | loopTest | loopBody | again | tested | started =>
        exact absurd rfl hquiet

/-- A job fails exactly when a chain of jobs ends with one that raises a failure; its
place is the one that it was raised with, or else that of the innermost call of the
chain. -/
theorem failed_iff :
    (∃ s', job.run host fuel s = .failed f s') ↔
      ∃ stack raised, Fails host fuel job s stack raised ∧
        f = ⟨raised.cause, raised.span.or (innermostCall stack)⟩ := by
  constructor
  · rintro ⟨s', h⟩
    induction fuel generalizing job s s' f with
    | zero =>
        rw [run_zero] at h
        cases h
    | succ fuel ih =>
        rcases breaks_of_failed h with hraises | ⟨job', t, f', t', hcalls, hfailed, rfl⟩
        · refine ⟨[job], f, .raised hraises, ?_⟩
          rw [hraises.innermostCall_eq_none, Option.or_none]
        · obtain ⟨stack, raised, hfails, rfl⟩ := ih t' hfailed
          exact ⟨job :: stack, raised, .within hcalls hfails,
            congrArg (Failure.mk _) Option.or_assoc⟩
  · rintro ⟨stack, raised, hfails, rfl⟩
    induction hfails with
    | raised raises =>
        rw [raises.innermostCall_eq_none, Option.or_none]
        exact raises.failed
    | within calls _ ih =>
        obtain ⟨t', hfailed⟩ := ih
        have hpassed := calls.failed hfailed
        rw [Failure.through, Option.or_assoc] at hpassed
        exact hpassed

/-! ## Failures without a place -/

/-- The job is a part of answering a call, which places the failures of the job. -/
def AnswersCall : Job → Prop
  | dispatch .. => True
  | operate .. => True
  | callNamed .. => True
  | invoke .. => True
  | callFunction .. => True
  | _ => False

theorem Starts.not_answersCall
    {scope : Nat} {stmts : List Stmt} (h : Starts host fuel scope stmts s job t) :
    ¬ job.AnswersCall := by
  induction h with
  | expr => exact id
  | stmt => exact id
  | afterExpr _ _ ih => exact ih
  | afterStmt _ _ _ ih => exact ih

/-- Calls are answered for calls, or as a part of answering one. -/
theorem Calls.calling_ne_none (h : Calls host fuel job s job' t)
    (hjob : ¬ job.AnswersCall) (hjob' : job'.AnswersCall) : job.calling ≠ none := by
  cases h with
  | method => exact Option.some_ne_none _
  | started hstarts => exact absurd hjob' hstarts.not_answersCall
  | named | operation | invokeArgs | invoke | operand | operands | builtinArgs
  | functionArgs | function | lambda | body => exact absurd trivial hjob
  | receiver | first | others | deferred | statement | statements | opened | arms | loop
  | init | value | result | block | expr | otherwise | armTest | armBody | armRest
  | loopTest | loopBody | again | tested => exact hjob'.elim

/-- A job fails with a place, unless it is a part of answering a call. -/
theorem Fails.place_ne_none {stack : List Job} {raised : Failure}
    (h : Fails host fuel job s stack raised) (hjob : ¬ job.AnswersCall) :
    raised.span.or (innermostCall stack) ≠ none := by
  induction h with
  | raised raises =>
      cases raises with
      | unbound | notBool | outside => exact Option.some_ne_none _
      | onVoid | unknown | misfit | operand | operands | builtin | undefined | notLambda
      | arity | overflow | escaped => exact absurd trivial hjob
  | @within _ job job' _ _ stack raised calls _ ih =>
      intro hnone
      rw [innermostCall, ← Option.or_assoc, Option.or_eq_none_iff] at hnone
      by_cases hjob' : job'.AnswersCall
      · exact calls.calling_ne_none hjob hjob' hnone.2
      · exact ih hjob' hnone.1

theorem failed_place (h : job.run host fuel s = .failed f s') (hjob : ¬ job.AnswersCall) :
    ∃ span, f.span = some span := by
  obtain ⟨stack, raised, hfails, rfl⟩ := failed_iff.mp ⟨s', h⟩
  exact Option.ne_none_iff_exists'.mp (hfails.place_ne_none hjob)

/-- Statements that a session runs fail with a place. -/
theorem evalStatements_failed_place
    {scope : Nat} {last : Option Value} {stmts : List Stmt}
    (h : evalStatements host fuel scope last stmts s = .failed f s') :
    ∃ span, f.span = some span := by
  rcases evalStatements_breaks h with ⟨job, t, t', hstarts, hfailed⟩ |
    ⟨stmt, exit, t, t', -, -, rfl⟩
  · exact failed_place hfailed hstarts.not_answersCall
  · exact ⟨stmt.span, rfl⟩

end Job

end HandleScript
