import HandleScript.Proofs.Depth
import HandleScript.Proofs.Holder
import HandleScript.Proofs.Plan
import Mathlib.Logic.Relation

/-!
# What running code does

A job changes the state in two ways: through the jobs that it calls for, and through acts
of its own. There are few sorts of acts. They make a value, carry out an operation, enter
or leave a body, open a scope or bind a name. This module says once which job acts in
which way. From that, a property of states that every act keeps is kept by every run,
however it ends; and a run as a whole is a sequence of acts, each of them made by a job
that has been started and has not ended.
-/

namespace HandleScript

/-- A computation that goes on after another one ends where the first one fails, or where
the second one ends. -/
theorem Computation.bind_state?_eq_some
    {σ ε α β : Type} {c : Computation σ ε α} {f : α → Computation σ ε β} {s s' : σ}
    (h : ((c >>= f) s).state? = some s') :
    (c s).state? = some s' ∧ (∃ e, c s = .failed e s') ∨ ∃ a t, c s = .done a t ∧
      (f a t).state? = some s' := by
  cases hc : c s with
  | done a t =>
      rw [Computation.bind_of_done hc] at h
      exact .inr ⟨a, t, rfl, h⟩
  | failed e t =>
      rw [Computation.bind_of_failed hc] at h
      cases h
      exact .inl ⟨rfl, e, rfl⟩
  | crashed t =>
      rw [Computation.bind_of_crashed hc] at h
      cases h
  | exhausted =>
      rw [Computation.bind_of_exhausted hc] at h
      cases h

theorem Computation.adjustFailure_state?
    {σ ε α : Type} (f : ε → ε) (c : Computation σ ε α) (s : σ) :
    (c.adjustFailure f s).state? = (c s).state? := by
  unfold adjustFailure
  cases c s <;> rfl

theorem Outcome.state?_of_done {σ ε α : Type} {o : Outcome σ ε α} {a : α} {s : σ}
    (h : o = .done a s) : o.state? = some s := by
  rw [h]
  rfl

/-- Leaving a body leaves the state in which it ended, with one call less. -/
theorem State.return_state? (o : Outcome State Failure Flow) :
    (State.return o).state? = o.state?.map State.leave := by
  cases o with
  | done flow s => cases flow <;> rfl
  | failed failure s => rfl
  | crashed | exhausted => rfl

theorem Run.carryOut_state?
    {plan : Store → Plan} {s s' : State} (h : (Run.carryOut plan s).state? = some s') :
    s' = s ∨ ∃ effect, plan s.store = .ok effect ∧ effect.fits = true ∧
      s' = { s with store := (s.store.commit effect).2 } := by
  unfold Run.carryOut at h
  cases hplan : plan s.store with
  | error cause =>
      rw [hplan] at h
      cases h
      exact .inl rfl
  | ok effect =>
      rw [hplan] at h
      dsimp only at h
      split at h
      next hfits =>
        cases h
        exact .inr ⟨effect, rfl, hfits, rfl⟩
      next => cases h

namespace Job

/-! ## Acts -/

/-- Done from the state `s` with one step more than `fuel`, the job itself takes the state
from `t` to `t'`. -/
inductive Acts (host : Host) (fuel : Nat) : Job → State → State → State → Prop
  | literal {scope : Nat} {value : Literal} {span : Span} {s s' : State} {v : Value}
      (made : value.make s = .done v s') :
        Acts host fuel (.eval scope (.literal value span)) s s s'
  | lambda {scope : Nat} {f : Function} {s : State} :
      Acts host fuel (.eval scope (.lambda f)) s s
        { s with store := (s.store.alloc (.lambda ⟨f, scope⟩)).2 }
  /-- The receiver decides the result. -/
  | decided {op : Connective} {receiver : Value} {method : String}
      {args : Arguments} {b : Bool} {s : State}
      (decided : (s.store.bool? receiver).filter op.decidedBy = some b) :
      Acts host fuel (.operate (.connective op) receiver method args) s s
        { s with store := (s.store.alloc (.bool b)).2 }
  | connective {op : Connective} {receiver : Value} {method : String}
      {args : Arguments} {values : List Value}
      {effect : Effect} {s t : State}
        (before : HandleScript.force host fuel args s = .done values t)
      (planned : Connective.plan t.store method values = .ok effect) :
      Acts host fuel (.operate (.connective op) receiver method args) s t
        { t with store := (t.store.commit effect).2 }
  | eager {op : EagerOp} {receiver : Value} {method : String}
      {args : Arguments} {values : List Value}
      {effect : Effect} {s t : State}
        (before : HandleScript.force host fuel args s = .done values t)
      (planned : op.plan host.files t.store receiver method values = .ok effect)
        (fits : effect.fits = true) :
      Acts host fuel (.operate (.eager op) receiver method args) s t
        { t with store := (t.store.commit effect).2 }
  | builtin {scope : Nat} {name : String} {args : Arguments}
      {builtin : Builtin} {values : List Value}
      {s t t' : State} (before : HandleScript.force host fuel args s = .done values t)
      (called : (builtin.call values t).state? = some t') :
        Acts host fuel (.callNamed scope name args) s t t'
  | enter {f : Function} {values : List Value} {parent : Nat} {s : State}
      (arity : f.params.length = values.length) (admitted : s.depth + 1 ≤ host.maxDepth) :
      Acts host fuel (.callFunction f values parent) s s (s.enter parent f values).2
  | leave {f : Function} {values : List Value} {parent : Nat} {s t : State}
      (ended : (HandleScript.execAll host fuel (s.enter parent f values).1 f.body
        (s.enter parent f values).2).state? = some t) :
      Acts host fuel (.callFunction f values parent) s t t.leave
  | opened {scope : Nat} {body : List Stmt} {s : State} :
      Acts host fuel (.execBody scope body) s s
        { s with scopes := (s.scopes.child scope).2 }
  | declare {scope : Nat} {name : Located String} {init : Expr} {span : Span}
      {v : Value} {s t : State}
      (before : HandleScript.eval host fuel scope init s = .done v t) :
      Acts host fuel (.exec scope (.declare name init span)) s t
        { t with scopes := t.scopes.define scope name.node v }
  | assign {scope : Nat} {name : Located String} {value : Expr} {span : Span}
      {v : Value} {s t : State}
      (before : HandleScript.eval host fuel scope value s = .done v t) :
      Acts host fuel (.exec scope (.assign name value span)) s t
        { t with scopes := t.scopes.set scope name.node v }

/-- While the job is done, the state goes from `t` to `t'`: by a job that it calls for,
from start to end, or by an act of its own. -/
inductive Advances (host : Host) (fuel : Nat) (job : Job) (s : State) :
    State → State → Prop
  | called {job' : Job} {t t' : State} (calls : Calls host fuel job s job' t)
      (ended : (job'.run host fuel t).state? = some t') : Advances host fuel job s t t'
  | own {t t' : State} (acts : Acts host fuel job s t t') : Advances host fuel job s t t'

/-- While the job is done, with one step more than `fuel`, it comes to this state. -/
abbrev ComesTo (host : Host) (fuel : Nat) (job : Job) (s : State) : State → Prop :=
  Relation.ReflTransGen (Advances host fuel job s) s

variable {host : Host} {fuel : Nat} {job job' : Job} {s s' t t' : State}

theorem ComesTo.act (h : ComesTo host fuel job s t) (acts : Acts host fuel job s t t') :
    ComesTo host fuel job s t' :=
  h.tail (.own acts)

theorem ComesTo.call
    (h : ComesTo host fuel job s t) (calls : Calls host fuel job s job' t)
    (ended : (job'.run host fuel t).state? = some t') : ComesTo host fuel job s t' :=
  h.tail (.called calls ended)

theorem ComesTo.call_done
    {v : job'.Result} (h : ComesTo host fuel job s t)
    (calls : Calls host fuel job s job' t) (ended : job'.run host fuel t = .done v t') :
    ComesTo host fuel job s t' :=
  h.call calls (Outcome.state?_of_done ended)

/-- Where a job goes on after a job that it calls for, it ends where that one fails, or
where it gets to from where that one ends. -/
theorem ComesTo.bind
    {α : Type} {f : job'.Result → Run α} (calls : Calls host fuel job s job' t)
    (ht : ComesTo host fuel job s t) (h : ((job'.run host fuel >>= f) t).state? = some s')
    (hrest : ∀ v t', job'.run host fuel t = .done v t' → ComesTo host fuel job s t' →
      (f v t').state? = some s' → ComesTo host fuel job s s') :
    ComesTo host fuel job s s' := by
  rcases Computation.bind_state?_eq_some h with ⟨hended, -⟩ | ⟨v, t', hdone, hmore⟩
  · exact ht.call calls hended
  · exact hrest v t' hdone (ht.call_done calls hdone) hmore

/-! ## Where jobs come to -/

theorem Starts.comesTo
    {scope : Nat} {stmts all : List Stmt} (h : Starts host fuel scope stmts t job' t')
    (ht : ComesTo host fuel (.input scope all) s t)
    (hall : ∀ job'' u, Starts host fuel scope stmts t job'' u →
      Starts host fuel scope all s job'' u) :
    ComesTo host fuel (.input scope all) s t' := by
  induction h with
  | expr => exact ht
  | stmt plain => exact ht
  | afterExpr before _ ih =>
      refine ih (ht.call_done (.started (hall _ _ .expr)) before) ?_
      intro job'' u hlater
      exact hall _ _ (.afterExpr before hlater)
  | afterStmt plain before _ ih =>
      refine ih (ht.call_done (.started (hall _ _ (.stmt plain))) before) ?_
      intro job'' u hlater
      exact hall _ _ (.afterStmt plain before hlater)

/-- A job comes to the states from which the jobs that it calls for are done. -/
theorem Calls.comesTo (h : Calls host fuel job s job' s') :
    ComesTo host fuel job s s' := by
  cases h with
  | receiver | first | deferred | named | operation | invokeArgs | operand | operands
  | builtinArgs | functionArgs | lambda | statement | arms | loop | init | value | result
  | block | expr | otherwise | armTest | loopTest | tested => exact .refl
  | method before => exact ComesTo.call_done .refl .receiver before
  | others before => exact ComesTo.call_done .refl .first before
  | invoke before => exact ComesTo.call_done .refl .invokeArgs before
  | function loaded found before =>
      exact ComesTo.call_done .refl (.functionArgs loaded found) before
  | body arity admitted => exact ComesTo.act .refl (.enter arity admitted)
  | statements before => exact ComesTo.call_done .refl .statement before
  | opened => exact ComesTo.act .refl .opened
  | armBody before | armRest before => exact ComesTo.call_done .refl .armTest before
  | loopBody before => exact ComesTo.call_done .refl .loopTest before
  | again holds before _ =>
      exact ComesTo.call_done (ComesTo.call_done .refl .loopTest holds)
        (.loopBody holds) before
  | started hstarts => exact hstarts.comesTo .refl fun _ _ hstart => hstart

section Ends

theorem eval_comesTo
    {scope : Nat} {e : Expr}
    (h : (HandleScript.eval host (fuel + 1) scope e s).state? = some s') :
    ComesTo host fuel (.eval scope e) s s' := by
  cases e with
  | literal value span =>
      obtain ⟨v, hmade⟩ : ∃ v, value.make s = .done v s' := by
        cases value <;> cases h <;> exact ⟨_, rfl⟩
      exact ComesTo.act .refl (.literal hmade)
  | name text span =>
      have hlookup : (Run.lookup host.listing scope text s).state? = some s' := by
        rw [← h]
        exact (Computation.adjustFailure_state? _ _ s).symm
      unfold Run.lookup at hlookup
      split at hlookup <;> cases hlookup <;> exact .refl
  | lambda f =>
      cases h
      exact ComesTo.act .refl .lambda
  | call receiver method args span =>
      refine ComesTo.bind .receiver .refl h ?_
      intro target t hreceiver ht hcall
      refine ht.call (.method hreceiver) ?_
      rw [← hcall]
      exact (Computation.adjustFailure_state? _ _ t).symm

theorem evalAll_comesTo
    {scope : Nat} {es : List Expr}
    (h : (HandleScript.evalAll host (fuel + 1) scope es s).state? = some s') :
    ComesTo host fuel (.evalAll scope es) s s' := by
  cases es with
  | nil =>
      cases h
      exact .refl
  | cons e es =>
      refine ComesTo.bind .first .refl h ?_
      intro v t hfirst ht hrest
      refine ComesTo.bind (.others hfirst) ht hrest ?_
      intro vs u _ hu hend
      cases hend
      exact hu

theorem dispatch_comesTo
    {scope : Nat} {receiver : Value} {method : String} {args : Arguments}
    (h : (HandleScript.dispatch host (fuel + 1) scope receiver method args s).state? =
      some s') :
    ComesTo host fuel (.dispatch scope receiver method args) s s' := by
  by_cases hvoid : receiver = .void
  · subst hvoid
    cases h
    exact .refl
  · by_cases hdispatcher : receiver = .dispatcher
    · subst hdispatcher
      exact ComesTo.call .refl .named h
    · rw [dispatch_eq_dispatchKind host fuel scope method args hvoid hdispatcher,
        dispatchKind] at h
      cases hfound : receiver.kind.operation? method with
      | none =>
          rw [hfound] at h
          cases h
          exact .refl
      | some op =>
          rw [hfound] at h
          dsimp only at h
          by_cases haccepts : op.accepts args.count = true
          · rw [if_pos haccepts] at h
            exact ComesTo.call .refl (.operation hvoid hdispatcher hfound haccepts) h
          · rw [if_neg haccepts] at h
            cases h
            exact .refl

theorem operate_comesTo
    {op : Operation} {receiver : Value} {method : String} {args : Arguments}
    (h : (HandleScript.operate host (fuel + 1) op receiver method args s).state? =
      some s') :
    ComesTo host fuel (.operate op receiver method args) s s' := by
  cases op with
  | invoke =>
      refine ComesTo.bind .invokeArgs .refl h ?_
      intro values t hargs ht hinvoke
      exact ht.call (.invoke hargs) hinvoke
  | connective op =>
      cases hdecided : (s.store.bool? receiver).filter op.decidedBy with
      | some b =>
          rw [operate_decided host fuel hdecided] at h
          cases h
          exact ComesTo.act .refl (.decided hdecided)
      | none =>
          rw [operate_undecided host fuel hdecided] at h
          refine ComesTo.bind (.operand hdecided) .refl h ?_
          intro values t hargs ht hend
          rcases Run.carryOut_state? hend with rfl | ⟨effect, hplanned, -, rfl⟩
          · exact ht
          · exact ht.act (.connective hargs hplanned)
  | eager op =>
      refine ComesTo.bind .operands .refl h ?_
      intro values t hargs ht hend
      rcases Run.carryOut_state? hend with rfl | ⟨effect, hplanned, hfits, rfl⟩
      · exact ht
      · exact ht.act (.eager hargs hplanned hfits)

theorem callNamed_comesTo
    {scope : Nat} {name : String} {args : Arguments}
    (h : (HandleScript.callNamed host (fuel + 1) scope name args s).state? = some s') :
    ComesTo host fuel (.callNamed scope name args) s s' := by
  cases hbuiltin : Builtin.ofName? name with
  | some builtin =>
      rw [callNamed_builtin host fuel hbuiltin] at h
      refine ComesTo.bind (.builtinArgs hbuiltin) .refl h ?_
      intro values t hargs ht hcalled
      exact ht.act (.builtin hargs hcalled)
  | none =>
      cases hfound : s.functions.get? name with
      | none =>
          rw [callNamed_unknown host fuel hbuiltin hfound] at h
          cases h
          exact .refl
      | some f =>
          rw [callNamed_function host fuel hbuiltin hfound] at h
          refine ComesTo.bind (.functionArgs hbuiltin hfound) .refl h ?_
          intro values t hargs ht hcall
          exact ht.call (.function hbuiltin hfound hargs) hcall

theorem callFunction_comesTo
    {f : Function} {values : List Value} {parent : Nat}
    (h : (HandleScript.callFunction host (fuel + 1) f values parent s).state? = some s') :
    ComesTo host fuel (.callFunction f values parent) s s' := by
  by_cases harity : f.params.length = values.length
  · by_cases hdepth : s.depth + 1 ≤ host.maxDepth
    · rw [callFunction_admitted host fuel harity hdepth, State.return_state?] at h
      obtain ⟨t, ht, rfl⟩ := Option.map_eq_some_iff.mp h
      have hentered : ComesTo host fuel (.callFunction f values parent) s _ :=
        .act .refl (.enter harity hdepth)
      exact (hentered.call (.body harity hdepth) ht).act (.leave ht)
    · rw [callFunction_refused host fuel harity (Nat.lt_of_not_le hdepth)] at h
      cases h
      exact .refl
  · rw [callFunction_misfit host fuel harity] at h
    cases h
    exact .refl

theorem execAll_comesTo
    {scope : Nat} {stmts : List Stmt}
    (h : (HandleScript.execAll host (fuel + 1) scope stmts s).state? = some s') :
    ComesTo host fuel (.execAll scope stmts) s s' := by
  cases stmts with
  | nil =>
      cases h
      exact .refl
  | cons stmt rest =>
      refine ComesTo.bind .statement .refl h ?_
      intro flow t hfirst ht hrest
      cases flow with
      | pass => exact ht.call (.statements hfirst) hrest
      | giveBack | leave | skip =>
          cases hrest
          exact ht

theorem exec_comesTo
    {scope : Nat} {stmt : Stmt}
    (h : (HandleScript.exec host (fuel + 1) scope stmt s).state? = some s') :
    ComesTo host fuel (.exec scope stmt) s s' := by
  cases stmt with
  | branch arms span => exact ComesTo.call .refl .arms h
  | loop test body span => exact ComesTo.call .refl .loop h
  | declare name init span =>
      refine ComesTo.bind .init .refl h ?_
      intro v t hinit ht hend
      cases hend
      exact ht.act (.declare hinit)
  | assign name value span =>
      refine ComesTo.bind .value .refl h ?_
      intro v t hvalue ht hend
      cases hend
      exact ht.act (.assign hvalue)
  | giveBack value span =>
      cases value with
      | none =>
          cases h
          exact .refl
      | some value =>
          refine ComesTo.bind .result .refl h ?_
          intro v t _ ht hend
          cases hend
          exact ht
  | leave span =>
      cases h
      exact .refl
  | skip span =>
      cases h
      exact .refl
  | block body span => exact ComesTo.call .refl .block h
  | expr value span =>
      refine ComesTo.bind .expr .refl h ?_
      intro v t _ ht hend
      cases hend
      exact ht

theorem execArms_comesTo
    {scope : Nat} {arms : Arms}
    (h : (HandleScript.execArms host (fuel + 1) scope arms s).state? = some s') :
    ComesTo host fuel (.execArms scope arms) s s' := by
  cases arms with
  | done =>
      cases h
      exact .refl
  | otherwise body => exact ComesTo.call .refl .otherwise h
  | test test body rest =>
      refine ComesTo.bind .armTest .refl h ?_
      intro holds t htest ht hmore
      cases holds with
      | true => exact ht.call (.armBody htest) hmore
      | false => exact ht.call (.armRest htest) hmore

theorem execLoop_comesTo
    {scope : Nat} {test : Expr} {body : List Stmt}
    (h : (HandleScript.execLoop host (fuel + 1) scope test body s).state? = some s') :
    ComesTo host fuel (.execLoop scope test body) s s' := by
  refine ComesTo.bind .loopTest .refl h ?_
  intro holds t htest ht hmore
  cases holds with
  | false =>
      cases hmore
      exact ht
  | true =>
      refine ComesTo.bind (.loopBody htest) ht hmore ?_
      intro flow u hbody hu hagain
      cases flow with
      | pass => exact hu.call (.again htest hbody (.inl rfl)) hagain
      | skip => exact hu.call (.again htest hbody (.inr rfl)) hagain
      | leave | giveBack =>
          cases hagain
          exact hu

theorem condition_comesTo
    {scope : Nat} {test : Expr}
    (h : (HandleScript.condition host (fuel + 1) scope test s).state? = some s') :
    ComesTo host fuel (.condition scope test) s s' := by
  refine ComesTo.bind .tested .refl h ?_
  intro v t _ ht hread
  rcases Computation.bind_state?_eq_some hread with ⟨-, e, hfailed⟩ |
    ⟨found, u, hfound, hend⟩
  · cases hfailed
  · have hsame : t = u := by
      cases hfound
      rfl
    subst hsame
    cases found <;> cases hend <;> exact ht

theorem evalStatements_comesTo
    {scope : Nat} {last : Option Value} {stmts all : List Stmt}
    (h : (evalStatements host fuel scope last stmts t).state? = some s')
    (ht : ComesTo host fuel (.input scope all) s t)
    (hall : ∀ job'' u, Starts host fuel scope stmts t job'' u →
      Starts host fuel scope all s job'' u) :
    ComesTo host fuel (.input scope all) s s' := by
  induction stmts generalizing last t with
  | nil =>
      cases h
      exact ht
  | cons stmt rest ih =>
      by_cases hexpr : ∃ value span, stmt = .expr value span
      · obtain ⟨value, span, rfl⟩ := hexpr
        refine ComesTo.bind (.started (hall _ _ .expr)) ht h ?_
        intro v u hvalue hu hrest
        refine ih hrest hu ?_
        intro job'' w hlater
        exact hall _ _ (.afterExpr hvalue hlater)
      · have hplain : ∀ value span, stmt ≠ .expr value span :=
          fun value span heq => hexpr ⟨value, span, heq⟩
        rw [evalStatements_cons host fuel scope last rest hplain] at h
        refine ComesTo.bind (.started (hall _ _ (.stmt hplain))) ht h ?_
        intro flow u hfirst hu hrest
        cases flow with
        | pass =>
            refine ih hrest hu ?_
            intro job'' w hlater
            exact hall _ _ (.afterStmt hplain hfirst hlater)
        | giveBack | leave | skip =>
            cases hrest
            exact hu

end Ends

/-- However a job ends, it has come to the state in which it ends. -/
theorem comesTo_of_state? (h : (job.run host (fuel + 1) s).state? = some s') :
    ComesTo host fuel job s s' := by
  cases job with
  | eval scope e => exact eval_comesTo h
  | evalAll scope es => exact evalAll_comesTo h
  | force args =>
      cases args with
      | deferred scope es => exact ComesTo.call .refl .deferred h
      | ready values =>
          cases h
          exact .refl
  | dispatch scope receiver method args => exact dispatch_comesTo h
  | operate op receiver method args => exact operate_comesTo h
  | callNamed scope name args => exact callNamed_comesTo h
  | invoke receiver values =>
      cases receiver with
      | lambda cell => exact ComesTo.call .refl .lambda h
      | int | long | double | bool | text | list | array | iterator | file | void
      | dispatcher | factory =>
          cases h
          exact .refl
  | callFunction f values parent => exact callFunction_comesTo h
  | execAll scope stmts => exact execAll_comesTo h
  | execBody scope body =>
      have hopened : ComesTo host fuel (.execBody scope body) s _ :=
        ComesTo.act .refl .opened
      exact hopened.call .opened h
  | exec scope stmt => exact exec_comesTo h
  | execArms scope arms => exact execArms_comesTo h
  | execLoop scope test body => exact execLoop_comesTo h
  | condition scope test => exact condition_comesTo h
  | input scope stmts => exact evalStatements_comesTo h .refl fun _ _ hstart => hstart

/-! ## What acts change -/

/-- What an act of a job, done from the state `s`, can make of the state `t`. -/
inductive Change (job : Job) (s t : State) : State → Prop
  /-- Something is read or written, or nothing happens. -/
  | console (console : Console) : Change job s t { t with console := console }
  /-- A number, a truth value or a text is made. -/
  | scalar (content : Content) (console : Console) (h : content.IsScalar) :
      Change job s t { t with store := (t.store.alloc content).2, console := console }
  | lambda {scope : Nat} {f : Function} (hjob : job = .eval scope (.lambda f))
      (hs : t = s) :
      Change job s t { t with store := (t.store.alloc (.lambda ⟨f, scope⟩)).2 }
  | operation {op : EagerOp} {receiver : Value} {method : String}
      {args : Arguments} {values : List Value}
      {effect : Effect} {sketch : Sketch}
        (hjob : job = .operate (.eager op) receiver method args)
      (arises : Arises t.store receiver values (.eager op) sketch effect) :
      Change job s t { t with store := (t.store.commit effect).2 }
  | enter {f : Function} {values : List Value} {parent : Nat}
      (hjob : job = .callFunction f values parent)
      (hs : t = s) : Change job s t (t.enter parent f values).2
  | leave : Change job s t t.leave
  | opened {scope : Nat} {body : List Stmt} (hjob : job = .execBody scope body)
      (hs : t = s) :
      Change job s t { t with scopes := (t.scopes.child scope).2 }
  | define (id : Nat) (name : String) (v : Value) :
      Change job s t { t with scopes := t.scopes.define id name v }

theorem Change.of_make {value : Literal} {v : Value} (h : value.make s = .done v s') :
    Change job t s s' := by
  cases value with
  | int n =>
      cases h
      exact .scalar (.number (.int n)) s.console trivial
  | double x =>
      cases h
      exact .scalar (.number (.double x)) s.console trivial
  | bool b =>
      cases h
      exact .scalar (.bool b) s.console trivial
  | text text =>
      cases h
      exact .scalar (.text text) s.console trivial
  | void =>
      cases h
      exact .console s.console

/-- The operand of a connective that decides the result is copied. -/
theorem Change.of_connective
    {method : String} {values : List Value} {effect : Effect}
    (h : Connective.plan t.store method values = .ok effect) :
    Change job s t { t with store := (t.store.commit effect).2 } := by
  unfold Connective.plan at h
  split at h
  · split at h
    · cases h
      exact .scalar (.bool _) t.console trivial
    · cases h
  · cases h

theorem Change.of_builtin
    {builtin : Builtin} {values : List Value}
    (h : (builtin.call values t).state? = some t') : Change job s t t' := by
  have hwrite : ∀ text, (Run.write text t).state? = some t' → Change job s t t' := by
    intro text hwritten
    unfold Run.write at hwritten
    split at hwritten
    · cases hwritten
      exact .console (t.console.append text)
    · cases hwritten
      exact .console t.console
  cases builtin with
  | println => exact hwrite _ h
  | print => exact hwrite _ h
  | readln =>
      by_cases hempty : values.isEmpty
      · simp only [Builtin.call, hempty, if_true, Run.readLine] at h
        split at h
        · cases h
          exact .scalar (.text _) _ trivial
        · cases h
          exact .console _
        · cases h
          exact .console _
      · simp only [Builtin.call, hempty] at h
        cases h
        exact .console t.console
  | int =>
      rcases values with _ | ⟨v, _ | ⟨w, rest⟩⟩
      · cases h
        exact .console t.console
      · have hcarried : (Run.carryOut (fun store => FactoryOp.int.plan store "int" [v])
          t).state? = some t' := h
        rcases Run.carryOut_state? hcarried with rfl | ⟨effect, hplanned, -, rfl⟩
        · exact .console t'.console
        · obtain ⟨n, -, hn⟩ := except_bind_eq_ok hplanned
          cases hn
          exact .scalar (.number (.int n)) t.console trivial
      · cases h
        exact .console t.console

theorem Acts.change (h : Acts host fuel job s t t') : Change job s t t' := by
  cases h with
  | literal made => exact .of_make made
  | lambda => exact .lambda rfl rfl
  | decided => exact .scalar (.bool _) s.console trivial
  | connective _ planned => exact .of_connective planned
  | @eager op receiver method _ values effect _ _ before planned fits =>
      have hallows := op.plan_allows t.store receiver method values host.files
      rw [planned] at hallows
      obtain ⟨sketch, harises⟩ := hallows
      exact .operation rfl harises
  | builtin _ called => exact .of_builtin called
  | enter => exact .enter rfl rfl
  | leave => exact .leave
  | opened => exact .opened rfl rfl
  | declare => exact .define _ _ _
  | assign =>
      rw [Scopes.set_eq_holder?]
      exact .define _ _ _

/-- No act loads a function. -/
theorem Change.functions_eq (h : Change job s t t') : t'.functions = t.functions := by
  cases h <;> rfl

/-- Only the evaluation of a function literal makes a closure, of the literal and of its
own scope; and no closure changes. -/
theorem Change.closures (h : Change job s t t') :
    t'.store.closures = t.store.closures ∨
      ∃ scope f, job = .eval scope (.lambda f) ∧ t = s ∧
        t'.store.closures = t.store.closures.push ⟨f, scope⟩ := by
  cases h with
  | lambda hjob hs => exact .inr ⟨_, _, hjob, hs, rfl⟩
  | scalar content console hscalar => exact .inl (Store.alloc_scalar _ hscalar).2
  | operation _ arises => exact .inl arises.closures_commit
  | console | enter | leave | opened | define => exact .inl rfl

/-! ## Properties that running code keeps -/

/-- A property of states is kept by the acts of jobs that fit, and jobs that fit call for
jobs that fit. -/
structure Invariant (host : Host) (holds : State → Prop) (fits : Job → State → Prop) :
    Prop where
  acts : ∀ {fuel job s t t'}, Acts host fuel job s t t' → fits job s → holds t → holds t'
  calls : ∀ {fuel job s job' s'}, Calls host fuel job s job' s' → fits job s →
    holds s → holds s' → fits job' s'

namespace Invariant

variable {holds : State → Prop} {fits : Job → State → Prop}
  (inv : Invariant host holds fits)
include inv

/-- What runs with `fuel` steps keep holds of every state that a job comes to with one
step more. -/
theorem holds_of_comesTo_of_runs
    (hruns : ∀ job s s', fits job s → holds s →
      (job.run host fuel s).state? = some s' → holds s')
    (hfits : fits job s) (hs : holds s) (h : ComesTo host fuel job s t) : holds t := by
  induction h with
  | refl => exact hs
  | tail _ hadvance ht =>
      cases hadvance with
      | own acts => exact inv.acts acts hfits ht
      | called calls ended => exact hruns _ _ _ (inv.calls calls hfits hs ht) ht ended

/-- However a job that fits ends, it has kept the property. -/
theorem holds_of_state? (hfits : fits job s) (hs : holds s)
    (h : (job.run host fuel s).state? = some s') : holds s' := by
  induction fuel generalizing job s s' with
  | zero =>
      rw [run_zero] at h
      cases h
  | succ fuel ih =>
      refine inv.holds_of_comesTo_of_runs ?_ hfits hs (comesTo_of_state? h)
      intro job s s' hfits hs hended
      exact ih hfits hs hended

theorem holds_of_comesTo (hfits : fits job s) (hs : holds s)
    (h : ComesTo host fuel job s t) : holds t :=
  inv.holds_of_comesTo_of_runs (fun _ _ _ hfits hs hended =>
    inv.holds_of_state? hfits hs hended) hfits hs h

/-- The jobs that have been started and have not ended fit, and were started from states
with the property. -/
theorem of_active
    {entered left : Nat} {last : Job} (hfits : fits job s) (hs : holds s)
    (h : Active host fuel job s entered left last t) : fits last t ∧ holds t := by
  induction h with
  | here => exact ⟨hfits, hs⟩
  | inside calls _ ih =>
      have hs' := inv.holds_of_comesTo hfits hs calls.comesTo
      exact ih (inv.calls calls hfits hs hs') hs'

end Invariant

/-! ## Runs as sequences of acts -/

/-- While the job is done from the state `s`, the job `actor` has been started and has not
ended, and takes the state from `t` to `t'`. -/
inductive Performs (host : Host) (fuel : Nat) (job : Job) (s : State) (actor : Job)
    (t t' : State) : Prop
  | intro {entered left : Nat} {start : State}
      (active : Active host fuel job s entered (left + 1) actor start)
      (acts : Acts host left actor start t t') : Performs host fuel job s actor t t'

/-- While the job is done from the state `s`, acts of these jobs, one after the other,
take the state from `t` to `t'`. -/
inductive Trace (host : Host) (fuel : Nat) (job : Job) (s : State) :
    State → List Job → State → Prop
  | nil {t : State} : Trace host fuel job s t [] t
  | cons {t u t' : State} {actor : Job} {actors : List Job}
      (step : Performs host fuel job s actor t u)
      (rest : Trace host fuel job s u actors t') :
        Trace host fuel job s t (actor :: actors) t'

section Traces

variable {actor : Job} {actors actors' : List Job} {u : State}

theorem Performs.inside (calls : Calls host fuel job s job' s')
    (h : Performs host fuel job' s' actor t t') :
    Performs host (fuel + 1) job s actor t t' := by
  obtain ⟨active, acts⟩ := h
  exact ⟨.inside calls active, acts⟩

theorem Trace.inside (calls : Calls host fuel job s job' s')
    (h : Trace host fuel job' s' t actors t') :
    Trace host (fuel + 1) job s t actors t' := by
  induction h with
  | nil => exact .nil
  | cons step _ ih => exact .cons (step.inside calls) ih

theorem Trace.append (h : Trace host fuel job s t actors u)
    (h' : Trace host fuel job s u actors' t') :
    Trace host fuel job s t (actors ++ actors') t' := by
  induction h with
  | nil => exact h'
  | cons step _ ih => exact .cons step (ih h')

/-- If all runs with `fuel` steps are sequences of acts, so is what a job does with one
step more. -/
theorem ComesTo.exists_trace_of_runs
    (hruns : ∀ (job : Job) s s', (job.run host fuel s).state? = some s' →
      ∃ actors, Trace host fuel job s s actors s')
    (h : ComesTo host fuel job s t) :
    ∃ actors, Trace host (fuel + 1) job s s actors t := by
  induction h with
  | refl => exact ⟨[], .nil⟩
  | tail _ hadvance ih =>
      obtain ⟨actors, htrace⟩ := ih
      cases hadvance with
      | own acts => exact ⟨_, htrace.append (.cons ⟨.here, acts⟩ .nil)⟩
      | called calls ended =>
          obtain ⟨actors', htrace'⟩ := hruns _ _ _ ended
          exact ⟨_, htrace.append (htrace'.inside calls)⟩

/-- However a job ends, acts have led to the state in which it ends. -/
theorem exists_trace (h : (job.run host fuel s).state? = some s') :
    ∃ actors, Trace host fuel job s s actors s' := by
  induction fuel generalizing job s s' with
  | zero =>
      rw [run_zero] at h
      cases h
  | succ fuel ih =>
      refine ComesTo.exists_trace_of_runs ?_ (comesTo_of_state? h)
      intro job s s' hended
      exact ih hended

/-- Acts have led to the states from which jobs are started. -/
theorem Active.exists_trace
    {entered left : Nat} {last : Job} (h : Active host fuel job s entered left last t) :
    ∃ actors, Trace host fuel job s s actors t := by
  induction h with
  | here => exact ⟨[], .nil⟩
  | inside calls _ ih =>
      obtain ⟨before, hbefore⟩ := ComesTo.exists_trace_of_runs
        (fun _ _ _ => Job.exists_trace) calls.comesTo
      obtain ⟨after, hafter⟩ := ih
      exact ⟨_, hbefore.append (hafter.inside calls)⟩

end Traces

end Job

end HandleScript
