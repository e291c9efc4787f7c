import HandleScript.Proofs.Ensures
import HandleScript.Proofs.Holder
import HandleScript.Proofs.Job
import HandleScript.Proofs.Store

/-!
# How states evolve

Whatever a script does, and however it ends, the loaded functions stay as they are, the
output is only added to, the calls that were not finished before are those that are not
finished after, and scopes that existed keep the scope around them and the names that are
bound in them. Only statements bind further names, and only in the scope in which they
run. The proof goes along the jobs of the evaluator, once for all of this.
-/

namespace HandleScript

/-! ## Scopes -/

namespace Bindings

variable {α : Type}

theorem contains_iff_mem_names (b : Bindings α) (name : String) :
    b.contains name = true ↔ name ∈ b.names := by
  obtain ⟨entries⟩ := b
  simp only [contains, get?, names]
  induction entries with
  | nil => simp
  | cons entry entries ih =>
      obtain ⟨first, value⟩ := entry
      by_cases h : name = first
      · simp [h]
      · have hne : (name == first) = false := by simpa using h
        simp only [List.lookup_cons, hne, List.map_cons, List.mem_cons, h, false_or]
        exact ih

theorem contains_eq_of_names_eq {b b' : Bindings α} (h : b'.names = b.names)
    (name : String) : b'.contains name = b.contains name := by
  rw [Bool.eq_iff_iff, contains_iff_mem_names, contains_iff_mem_names, h]

end Bindings

namespace Scopes

variable {α : Type} {free free' : Nat → Prop} {t t' t'' : Scopes α}

/-- Scopes keep the scope around them, and all but the free ones keep their names. -/
def Grows (free : Nat → Prop) (t t' : Scopes α) : Prop :=
  ∀ id sc, t.scopes[id]? = some sc →
    ∃ sc', t'.scopes[id]? = some sc' ∧ sc'.parent = sc.parent ∧
      (¬free id → sc'.bindings.names = sc.bindings.names)

theorem Grows.refl (free : Nat → Prop) (t : Scopes α) : t.Grows free t :=
  fun _ sc hsc => ⟨sc, hsc, rfl, fun _ => rfl⟩

/-- What is free in the second half counts only for scopes that existed before the first
one. -/
theorem Grows.trans
    (h : t.Grows free t') (h' : t'.Grows free' t'')
    (hfree : ∀ id, id < t.size → free' id → free id) : t.Grows free t'' := by
  intro id sc hsc
  obtain ⟨sc', hsc', hparent, hnames⟩ := h id sc hsc
  obtain ⟨sc'', hsc'', hparent', hnames'⟩ := h' id sc' hsc'
  have hid : id < t.size := (Array.getElem?_eq_some_iff.mp hsc).1
  refine ⟨sc'', hsc'', hparent'.trans hparent, fun hkept => ?_⟩
  exact (hnames' fun hin => hkept (hfree id hid hin)).trans (hnames hkept)

theorem Grows.child (free : Nat → Prop) (t : Scopes α) (parent : Nat) :
    t.Grows free (t.child parent).2 := by
  intro id sc hsc
  have hne : id ≠ t.scopes.size := Nat.ne_of_lt (Array.getElem?_eq_some_iff.mp hsc).1
  exact ⟨sc, by simp [Scopes.child, Array.getElem?_push, hne, hsc], rfl, fun _ => rfl⟩

/-- Binding a name changes the names of no scope but a free one, or none at all when the
scope binds the name already. -/
theorem Grows.define
    {id : Nat} {name : String} (h : free id ∨ (t.bindings id).contains name = true)
    (v : α) : t.Grows free (t.define id name v) := by
  intro other sc hsc
  by_cases heq : id = other
  · subst heq
    refine ⟨{ sc with bindings := sc.bindings.insert name v }, ?_, rfl, fun hkept => ?_⟩
    · simp [Scopes.define, Array.getElem?_modify, hsc]
    · have hbound := h.resolve_left hkept
      have hhere : t.bindings id = sc.bindings := by simp [Scopes.bindings, hsc]
      rw [hhere] at hbound
      rw [Bindings.names_insert, if_pos hbound]
  · exact ⟨sc, by
      simp [Scopes.define, Array.getElem?_modify, heq, hsc], rfl, fun _ => rfl⟩

theorem Grows.defineAll
    (free : Nat → Prop) {id : Nat} (h : free id) (t : Scopes α) (names : List String)
    (values : List α) : t.Grows free (t.defineAll id names values) := by
  induction names generalizing t values with
  | nil => exact .refl free t
  | cons name names ih =>
      cases values with
      | nil => exact .refl free t
      | cons v values =>
          exact (Grows.define (.inl h) v).trans
            (ih (t.define id name v) values) fun _ _ hin => hin

theorem contains_of_holder? {name : String} {id holder : Nat}
    (h : t.holder? name id = some holder) : (t.bindings holder).contains name = true := by
  induction id using Nat.strongRecOn with
  | ind id ih =>
      rw [holder?] at h
      split at h
      · cases h
      next sc hsc =>
        split at h
        next hbound =>
          cases h
          simpa [Scopes.bindings, hsc] using hbound
        · split at h
          · cases h
          next parent hparent =>
            split at h
            next hlt => exact ih parent hlt h
            · cases h

/-- Rebinding a name changes the names of no scope but the one it is bound in for want of
another. -/
theorem Grows.set {id : Nat} (h : free id) (t : Scopes α) (name : String) (v : α) :
    t.Grows free (t.set id name v) := by
  rw [Scopes.set_eq_holder?]
  cases hholder : t.holder? name id with
  | some holder => exact .define (.inr (contains_of_holder? hholder)) v
  | none => exact .define (.inl h) v

theorem Grows.size_le (h : t.Grows free t') : t.size ≤ t'.size := by
  rcases Nat.lt_or_ge t'.size t.size with hlt | hle
  · obtain ⟨sc', hsc', -⟩ := h t'.size _ (Array.getElem?_eq_getElem hlt)
    exact absurd (Array.getElem?_eq_some_iff.mp hsc').1 (Nat.lt_irrefl _)
  · exact hle

theorem Grows.names_eq (h : t.Grows free t') {id : Nat} (hid : id < t.size)
    (hkept : ¬free id) : (t'.bindings id).names = (t.bindings id).names := by
  have hsc : t.scopes[id]? = some t.scopes[id] := Array.getElem?_eq_getElem hid
  obtain ⟨sc', hsc', -, hnames⟩ := h id _ hsc
  simpa [Scopes.bindings, hsc, hsc'] using hnames hkept

end Scopes

/-! ## States -/

/-- Whatever the first console has been given, the second one has been given first. -/
def Console.Continues (c c' : Console) : Prop :=
  ∃ more, c'.output = c.output ++ more

theorem Console.Continues.refl (c : Console) : c.Continues c :=
  ⟨"", by simp⟩

theorem Console.Continues.trans
    {c c' c'' : Console} (h : c.Continues c') (h' : c'.Continues c'') :
    c.Continues c'' := by
  obtain ⟨first, hfirst⟩ := h
  obtain ⟨second, hsecond⟩ := h'
  exact ⟨first ++ second, by rw [hsecond, hfirst, String.append_assoc]⟩

/-- The second state can come after the first one, if further names may be bound in the
free scopes. -/
structure State.Evolves (free : Nat → Prop) (s s' : State) : Prop where
  functions : s'.functions = s.functions
  depth : s'.depth = s.depth
  output : s.console.Continues s'.console
  scopes : s.scopes.Grows free s'.scopes

namespace State.Evolves

variable {free free' : Nat → Prop} {s s' s'' : State}

theorem of_store (free : Nat → Prop) (s : State) (store : Store) :
    s.Evolves free { s with store := store } :=
  ⟨rfl, rfl, .refl s.console, .refl free _⟩

theorem refl (free : Nat → Prop) (s : State) : s.Evolves free s :=
  of_store free s s.store

theorem of_scopes {scopes : Scopes Value} (h : s.scopes.Grows free scopes) :
    s.Evolves free { s with scopes := scopes } :=
  ⟨rfl, rfl, .refl s.console, h⟩

theorem trans
    (h : s.Evolves free s') (h' : s'.Evolves free' s'')
    (hfree : ∀ id, id < s.scopes.size → free' id → free id) : s.Evolves free s'' where
  functions := h'.functions.trans h.functions
  depth := h'.depth.trans h.depth
  output := h.output.trans h'.output
  scopes := h.scopes.trans h'.scopes hfree

theorem mono (h : s.Evolves free s') (hfree : ∀ id, free id → free' id) :
    s.Evolves free' s' :=
  (refl free' s).trans h fun id _ hin => hfree id hin

end State.Evolves

/-! ## Steps that run no code -/

/-- However the run ends, the state has evolved. -/
def Run.Forward {α : Type} (free : Nat → Prop) (run : Run α) : Prop :=
  ∀ s, (run s).Meets (fun _ s' => s.Evolves free s') (fun _ s' => s.Evolves free s')

/-- No scope is free. -/
def nowhere : Nat → Prop := fun _ => False

namespace Run

variable {α β : Type} {free free' : Nat → Prop} {run : Run α}

theorem Forward.mono (h : run.Forward free) (hfree : ∀ id, free id → free' id) :
    run.Forward free' :=
  fun s => (h s).mono (fun _ _ hd => hd.mono hfree) fun _ _ hf => hf.mono hfree

theorem Forward.anywhere (h : run.Forward nowhere) : run.Forward free :=
  h.mono fun _ hin => hin.elim

theorem Forward.bind {f : α → Run β} (h : run.Forward free)
    (hf : ∀ a, (f a).Forward free) : (run >>= f).Forward free := by
  intro s
  have hfirst : run.Ensures (· = s) (fun _ s' => s.Evolves free s')
      (fun _ s' => s.Evolves free s') := by
    rintro _ rfl
    exact h _
  refine Computation.ensures_bind hfirst (fun a s' hs' => ?_) s rfl
  exact (hf a s').mono (fun _ _ hd => hs'.trans hd fun _ _ hin => hin)
    fun _ _ hd => hs'.trans hd fun _ _ hin => hin

theorem forward_pure (a : α) : (pure a : Run α).Forward free :=
  State.Evolves.refl free

theorem forward_fail (cause : Cause) : (Run.fail cause : Run α).Forward free :=
  State.Evolves.refl free

theorem forward_inspect (f : State → α) : Forward free (Computation.inspect f) :=
  State.Evolves.refl free

theorem forward_giveUp : Forward free (Computation.giveUp : Run α) :=
  fun _ => trivial

theorem Forward.located (h : run.Forward free) (span : Span) :
    (Run.located span run).Forward free := by
  intro s
  have hrun := h s
  unfold Run.located Computation.adjustFailure
  cases hs : run s with
  | done a s' => rwa [hs] at hrun
  | failed e s' => rwa [hs] at hrun
  | crashed | exhausted => trivial

theorem forward_alloc (content : Content) : (Run.alloc content).Forward free :=
  fun s => .of_store free s _

theorem forward_carryOut (plan : Store → Plan) : (Run.carryOut plan).Forward free := by
  intro s
  unfold Run.carryOut
  cases plan s.store with
  | error cause => exact State.Evolves.refl free s
  | ok effect =>
      dsimp only
      split
      · exact State.Evolves.of_store free s _
      · trivial

theorem forward_lookup (listing : Listing) (scope : Nat) (name : String) :
    (Run.lookup listing scope name).Forward free := by
  intro s
  unfold Run.lookup
  split
  · exact State.Evolves.refl free s
  · exact State.Evolves.refl free s

theorem forward_define {scope : Nat} (h : free scope) (name : String) (v : Value) :
    (Run.define scope name v).Forward free :=
  fun _ => .of_scopes (.define (.inl h) v)

theorem forward_assign {scope : Nat} (h : free scope) (name : String) (v : Value) :
    (Run.assign scope name v).Forward free :=
  fun s => .of_scopes (.set h s.scopes name v)

theorem forward_write (text : String) : (Run.write text).Forward free := by
  intro s
  unfold Run.write
  split
  · exact ⟨rfl, rfl, ⟨text, rfl⟩, .refl free _⟩
  · exact State.Evolves.refl free s

theorem forward_readLine : Run.readLine.Forward free := by
  intro s
  unfold Run.readLine Console.readLine
  cases s.console.input with
  | nil => exact State.Evolves.refl free s
  | cons line rest =>
      cases line with
      | text raw => exact ⟨rfl, rfl, .refl s.console, .refl free _⟩
      | garbled => exact ⟨rfl, rfl, .refl s.console, .refl free _⟩

end Run

theorem Builtin.forward_call {free : Nat → Prop} (builtin : Builtin) (args : List Value) :
    (builtin.call args).Forward free := by
  cases builtin with
  | println => exact fun s => Run.forward_write _ s
  | print => exact fun s => Run.forward_write _ s
  | readln =>
      by_cases h : args.isEmpty
      · simpa [Builtin.call, h] using Run.forward_readLine
      · simpa [Builtin.call, h] using Run.forward_fail _
  | int =>
      rcases args with _ | ⟨v, _ | ⟨w, rest⟩⟩
      · exact Run.forward_fail _
      · exact Run.forward_carryOut fun store => FactoryOp.int.plan store "int" [v]
      · exact Run.forward_fail _

theorem Literal.forward_make {free : Nat → Prop} (value : Literal) :
    value.make.Forward free := by
  cases value with
  | int n => exact Run.forward_alloc (.number (.int n))
  | double x => exact Run.forward_alloc (.number (.double x))
  | bool b => exact Run.forward_alloc (.bool b)
  | text s => exact Run.forward_alloc (.text s)
  | void => exact Run.forward_pure _

/-- What a function's body starts with: one more call, and a new scope. -/
theorem State.enter_grows (s : State) (parent : Nat) (f : Function) (args : List Value) :
    s.scopes.Grows nowhere (s.enter parent f args).2.scopes := by
  have hbound : (s.scopes.child parent).2.Grows (· = s.scopes.size)
      (s.enter parent f args).2.scopes :=
    .defineAll (· = s.scopes.size) rfl (s.scopes.child parent).2 f.paramNames args
  refine (Scopes.Grows.child nowhere s.scopes parent).trans hbound fun id hid heq => ?_
  exact absurd heq (Nat.ne_of_lt hid)

/-- From before a call to after it, the calls that are not finished are the same. -/
theorem Outcome.Meets.return_evolves
    {s : State} {parent : Nat} {f : Function} {args : List Value}
    {o : Outcome State Failure Flow}
    (h : o.Meets (fun _ s' => (s.enter parent f args).2.Evolves (· = s.scopes.size) s')
      (fun _ s' => (s.enter parent f args).2.Evolves (· = s.scopes.size) s')) :
    (State.return o).Meets (fun _ s' => s.Evolves nowhere s')
    (fun _ s' => s.Evolves nowhere s') := by
  have hleave : ∀ s' : State, (s.enter parent f args).2.Evolves (· = s.scopes.size) s' →
      s.Evolves nowhere s'.leave := by
    intro s' hs'
    have hdepth : s'.depth = s.depth + 1 := hs'.depth
    refine ⟨hs'.functions, ?_, hs'.output,
      (s.enter_grows parent f args).trans hs'.scopes ?_⟩
    · simp [State.leave, hdepth]
    · exact fun id hid heq => absurd heq (Nat.ne_of_lt hid)
  cases o with
  | crashed | exhausted => trivial
  | failed failure s' => exact hleave s' h
  | done flow s' => cases flow <;> exact hleave s' h

/-! ## Jobs -/

/-- The statement binds a name. -/
def Stmt.Binds : Stmt → Prop
  | declare .. => True
  | assign .. => True
  | _ => False

namespace Job

/-- The scopes in which a job may bind names. -/
def free : Job → Nat → Prop
  | execAll scope _ => (· = scope)
  | exec scope stmt => fun id => id = scope ∧ stmt.Binds
  | input scope _ => (· = scope)
  | _ => nowhere

section Step

variable {host : Host} {fuel : Nat}
  (ih : ∀ job : Job, (job.run host fuel).Forward job.free)
include ih

theorem forward_eval (scope : Nat) (e : Expr) :
    (HandleScript.eval host (fuel + 1) scope e).Forward nowhere := by
  cases e with
  | literal value span => exact value.forward_make
  | name text span => exact (Run.forward_lookup host.listing scope text).located span
  | lambda f => exact Run.forward_alloc _
  | call receiver method args span =>
      refine Run.Forward.bind (ih (.eval scope receiver)) fun target => ?_
      exact Run.Forward.located
        (ih (.dispatch scope target method.node (.deferred scope args))) method.span

theorem forward_evalAll (scope : Nat) (es : List Expr) :
    (HandleScript.evalAll host (fuel + 1) scope es).Forward nowhere := by
  cases es with
  | nil => exact Run.forward_pure _
  | cons e es =>
      refine Run.Forward.bind (ih (.eval scope e)) fun v => ?_
      exact Run.Forward.bind (ih (.evalAll scope es)) fun vs => Run.forward_pure _

theorem forward_dispatch (scope : Nat) (receiver : Value) (method : String)
    (args : Arguments) :
    (HandleScript.dispatch host (fuel + 1) scope receiver method args).Forward
      nowhere := by
  by_cases hvoid : receiver = .void
  · subst hvoid
    exact Run.forward_fail _
  · by_cases hdispatcher : receiver = .dispatcher
    · subst hdispatcher
      exact ih (.callNamed scope method args)
    · rw [dispatch_eq_dispatchKind host fuel scope method args hvoid hdispatcher,
        dispatchKind]
      split
      · exact Run.forward_fail _
      · split
        · exact ih (.operate _ receiver method args)
        · exact Run.forward_fail _

theorem forward_operate (op : Operation) (receiver : Value) (method : String)
    (args : Arguments) :
    (HandleScript.operate host (fuel + 1) op receiver method args).Forward nowhere := by
  cases op with
  | invoke =>
      exact Run.Forward.bind (ih (.force args)) fun values => ih (.invoke receiver values)
  | connective op =>
      refine Run.Forward.bind (Run.forward_inspect _) fun decided => ?_
      cases decided with
      | some b => exact Run.forward_alloc _
      | none =>
          exact Run.Forward.bind (ih (.force args)) fun values => Run.forward_carryOut _
  | eager op =>
      exact Run.Forward.bind (ih (.force args)) fun values => Run.forward_carryOut _

theorem forward_callNamed (scope : Nat) (name : String) (args : Arguments) :
    (HandleScript.callNamed host (fuel + 1) scope name args).Forward nowhere := by
  unfold HandleScript.callNamed
  cases Builtin.ofName? name with
  | some builtin =>
      exact Run.Forward.bind (ih (.force args)) fun values => builtin.forward_call values
  | none =>
      refine Run.Forward.bind (Run.forward_inspect _) fun found => ?_
      cases found with
      | none => exact fun s => State.Evolves.refl nowhere s
      | some f =>
          refine Run.Forward.bind (ih (.force args)) fun values => ?_
          exact Run.Forward.bind (Run.forward_inspect _) fun root =>
            ih (.callFunction f values root)

theorem forward_callFunction (f : Function) (values : List Value) (parent : Nat) :
    (HandleScript.callFunction host (fuel + 1) f values parent).Forward nowhere := by
  intro s
  by_cases harity : f.params.length = values.length
  · by_cases hdepth : s.depth + 1 ≤ host.maxDepth
    · rw [callFunction_admitted host fuel harity hdepth]
      exact .return_evolves (ih (.execAll (s.enter parent f values).1 f.body)
        (s.enter parent f values).2)
    · rw [callFunction_refused host fuel harity (Nat.lt_of_not_le hdepth)]
      exact State.Evolves.refl nowhere s
  · rw [callFunction_misfit host fuel harity]
    exact State.Evolves.refl nowhere s

theorem forward_execAll (scope : Nat) (stmts : List Stmt) :
    (HandleScript.execAll host (fuel + 1) scope stmts).Forward (· = scope) := by
  cases stmts with
  | nil => exact Run.forward_pure _
  | cons stmt rest =>
      have hfirst : (HandleScript.exec host fuel scope stmt).Forward (· = scope) :=
        Run.Forward.mono (ih (.exec scope stmt)) fun _ hin => hin.1
      refine hfirst.bind fun flow => ?_
      cases flow with
      | pass => exact ih (.execAll scope rest)
      | giveBack | leave | skip => exact Run.forward_pure _

/-- Names that a body binds are bound in a scope of its own. -/
theorem forward_execBody (scope : Nat) (body : List Stmt) :
    (HandleScript.execBody host (fuel + 1) scope body).Forward nowhere := by
  intro s
  have hopened : s.Evolves nowhere { s with scopes := (s.scopes.child scope).2 } :=
    .of_scopes (.child nowhere s.scopes scope)
  have hbody := ih (.execAll s.scopes.size body)
    { s with scopes := (s.scopes.child scope).2 }
  have hnew : ∀ id, id < s.scopes.size → id = s.scopes.size → nowhere id :=
    fun id hid heq => absurd heq (Nat.ne_of_lt hid)
  exact hbody.mono (fun _ _ hd => hopened.trans hd hnew) fun _ _ hf =>
    hopened.trans hf hnew

theorem forward_exec (scope : Nat) (stmt : Stmt) :
    (HandleScript.exec host (fuel + 1) scope stmt).Forward fun id =>
      id = scope ∧ stmt.Binds := by
  have heval : ∀ e {free : Nat → Prop},
      (HandleScript.eval host fuel scope e).Forward free :=
    fun e _ => Run.Forward.anywhere (ih (.eval scope e))
  cases stmt with
  | branch arms span => exact Run.Forward.anywhere (ih (.execArms scope arms))
  | loop test body span => exact Run.Forward.anywhere (ih (.execLoop scope test body))
  | declare name init span =>
      refine (heval init).bind fun v => ?_
      exact (Run.forward_define ⟨rfl, trivial⟩ name.node v).bind
        fun _ => Run.forward_pure _
  | assign name value span =>
      refine (heval value).bind fun v => ?_
      exact (Run.forward_assign ⟨rfl, trivial⟩ name.node v).bind
        fun _ => Run.forward_pure _
  | giveBack value span =>
      cases value with
      | none => exact Run.forward_pure _
      | some value => exact (heval value).bind fun v => Run.forward_pure _
  | leave span => exact Run.forward_pure _
  | skip span => exact Run.forward_pure _
  | block body span => exact Run.Forward.anywhere (ih (.execBody scope body))
  | expr value span => exact (heval value).bind fun v => Run.forward_pure _

theorem forward_execArms (scope : Nat) (arms : Arms) :
    (HandleScript.execArms host (fuel + 1) scope arms).Forward nowhere := by
  cases arms with
  | done => exact Run.forward_pure _
  | otherwise body => exact ih (.execBody scope body)
  | test test body rest =>
      refine Run.Forward.bind (ih (.condition scope test)) fun holds => ?_
      cases holds with
      | true => exact ih (.execBody scope body)
      | false => exact ih (.execArms scope rest)

theorem forward_execLoop (scope : Nat) (test : Expr) (body : List Stmt) :
    (HandleScript.execLoop host (fuel + 1) scope test body).Forward nowhere := by
  refine Run.Forward.bind (ih (.condition scope test)) fun holds => ?_
  cases holds with
  | false => exact Run.forward_pure _
  | true =>
      refine Run.Forward.bind (ih (.execBody scope body)) fun flow => ?_
      cases flow with
      | pass | skip => exact ih (.execLoop scope test body)
      | leave | giveBack => exact Run.forward_pure _

theorem forward_condition (scope : Nat) (test : Expr) :
    (HandleScript.condition host (fuel + 1) scope test).Forward nowhere := by
  refine Run.Forward.bind (ih (.eval scope test)) fun v => ?_
  refine Run.Forward.bind (Run.forward_inspect _) fun found => ?_
  cases found with
  | some b => exact Run.forward_pure _
  | none => exact fun s => State.Evolves.refl nowhere s

theorem forward_evalStatements (scope : Nat) (last : Option Value) (stmts : List Stmt) :
    (evalStatements host fuel scope last stmts).Forward (· = scope) := by
  induction stmts generalizing last with
  | nil => exact Run.forward_pure _
  | cons stmt rest ihrest =>
      by_cases hexpr : ∃ value span, stmt = .expr value span
      · obtain ⟨value, span, rfl⟩ := hexpr
        have hvalue : (HandleScript.eval host fuel scope value).Forward (· = scope) :=
          Run.Forward.anywhere (ih (.eval scope value))
        exact hvalue.bind fun v => ihrest (some v)
      · have hfirst : (HandleScript.exec host fuel scope stmt).Forward (· = scope) :=
          Run.Forward.mono (ih (.exec scope stmt)) fun _ hin => hin.1
        rw [evalStatements_cons host fuel scope last rest fun value span heq =>
          hexpr ⟨value, span, heq⟩]
        refine hfirst.bind fun flow => ?_
        cases flow with
        | pass => exact ihrest none
        | giveBack v => exact Run.forward_pure _
        | leave | skip => exact fun s => State.Evolves.refl _ s

end Step

/-- However a job ends, the state has evolved, and only statements have bound names, in
their own scope. -/
theorem forward (host : Host) (fuel : Nat) (job : Job) :
    (job.run host fuel).Forward job.free := by
  induction fuel generalizing job with
  | zero =>
      rw [run_zero]
      exact Run.forward_giveUp
  | succ fuel ih =>
      cases job with
      | eval scope e => exact forward_eval ih scope e
      | evalAll scope es => exact forward_evalAll ih scope es
      | force args =>
          cases args with
          | deferred scope es => exact ih (.evalAll scope es)
          | ready values => exact Run.forward_pure _
      | dispatch scope receiver method args =>
          exact forward_dispatch ih scope receiver method args
      | operate op receiver method args =>
          exact forward_operate ih op receiver method args
      | callNamed scope name args => exact forward_callNamed ih scope name args
      | invoke receiver values =>
          cases receiver with
          | lambda cell =>
              refine Run.Forward.bind (Run.forward_inspect _) fun closure => ?_
              exact ih (.callFunction closure.function values closure.scope)
          | int | long | double | bool | text | list | array | iterator | file | void
          | dispatcher | factory =>
              exact Run.forward_fail _
      | callFunction f values parent => exact forward_callFunction ih f values parent
      | execAll scope stmts => exact forward_execAll ih scope stmts
      | execBody scope body => exact forward_execBody ih scope body
      | exec scope stmt => exact forward_exec ih scope stmt
      | execArms scope arms => exact forward_execArms ih scope arms
      | execLoop scope test body => exact forward_execLoop ih scope test body
      | condition scope test => exact forward_condition ih scope test
      | input scope stmts => exact forward_evalStatements ih scope none stmts

end Job

end HandleScript
