import HandleScript.Proofs.Arguments
import HandleScript.Proofs.Failing
import HandleScript.Proofs.Parser.Hidden
import HandleScript.Proofs.Resolution
import HandleScript.Proofs.Suggestions

/-!
# Unknown names

A script fails for an unknown name when it calls a method that the receiver's kind has
not, a function that does not exist, or uses a variable that is not visible. The cause
holds a hint: the known name that takes the fewest edits, if it lies near enough. Such a
failure can pass through many jobs. It always starts with the job that looked the name up,
in a state in which the name is unknown and the hint is a name that would have been found.
-/

namespace HandleScript

/-! ## Hints -/

namespace Text

/-- What is hinted at in place of a name when some names are known: one of the nearest
that lie within the limit, and nothing only if none of them does. -/
def Hints (name : String) (known : String → Prop) : Option String → Prop
  | none =>
    ∀ other n, known other → EditsIn n name.toList other.toList →
      max 1 (name.length / 3) < n
  | some c =>
    known c ∧ (∃ n ≤ max 1 (name.length / 3), EditsIn n name.toList c.toList) ∧
      ∀ other n, known other → EditsIn n name.toList other.toList →
        ∃ m ≤ n, EditsIn m name.toList c.toList

/-- The suggestion among the known names is the right hint. -/
theorem hints_suggestion {name : String} {known : String → Prop}
    {candidates : List String} (h : ∀ c, c ∈ candidates ↔ known c) :
    Hints name known (suggestion name candidates) := by
  have hthreshold : hintThreshold name = max 1 (name.length / 3) := Nat.max_comm _ _
  rw [suggestion, hthreshold]
  cases hclosest : closest name candidates (max 1 (name.length / 3)) with
  | none =>
      intro other n hother hedits
      have hfar := closest_eq_none_iff.mp hclosest other ((h other).mpr hother)
      exact hfar.trans_le ((isLeast_distance name other).2 hedits)
  | some c =>
      obtain ⟨hwithin, hfirst⟩ := closest_eq_some_iff.mp hclosest
      have hleast := (isLeast_distance name c).1
      refine ⟨(h c).mp hfirst.mem, ⟨_, hwithin, hleast⟩,
        fun other n hother hedits => ⟨_, ?_, hleast⟩⟩
      exact (hfirst.le other ((h other).mpr hother)).trans
        ((isLeast_distance name other).2 hedits)

end Text

/-! ## Names -/

/-- The names of the operations that a kind has. -/
def Kind.methods : Kind → List String
  | int | long | double =>
    ["plus", "minus", "multiply", "divide", "mod", "less", "greater", "lessOrEqual",
        "greaterOrEqual", "equal",
      "notEqual", "negate", "set", "increment", "decrement", "plusAssign",
        "minusAssign", "multiplyAssign",
      "divideAssign", "copy", "toString"]
  | bool => ["and", "or", "not", "equal", "notEqual", "set", "copy", "toString"]
  | text =>
    ["get", "split", "replaceAt", "plus", "plusAssign", "set", "get_size", "size",
        "equal", "notEqual", "copy",
      "toString"]
  | list =>
    ["get", "set", "add", "remove", "get_size", "size", "getIterator", "equal",
      "notEqual", "copy", "toString"]
  | array =>
    ["get", "set", "get_size", "size", "getIterator", "equal",
      "notEqual", "copy", "toString"]
  | iterator => ["hasNext", "moveNext", "equal", "notEqual"]
  | file => ["readText", "readLines", "equal", "notEqual", "toString"]
  | lambda => ["invoke", "equal", "notEqual", "toString"]
  | factory => ["list", "array", "int", "long", "double", "string", "File"]
  | void | dispatcher => []

theorem Kind.operationNames_eq_methods (kind : Kind) :
    kind.operationNames = kind.methods := by
  cases kind <;> rfl

theorem Kind.operation?_eq_none_iff {kind : Kind} {method : String} :
    kind.operation? method = none ↔ method ∉ kind.methods := by
  rw [← kind.operationNames_eq_methods]
  exact lookup_eq_none_iff_notMem

theorem isSome_lookup_iff_mem {α : Type} {name : String} {entries : List (String × α)} :
    (entries.lookup name).isSome ↔ name ∈ entries.map Prod.fst := by
  rw [Option.isSome_iff_ne_none, Ne, lookup_eq_none_iff_notMem, not_not]

/-- The operation is meant for receivers of the kind. -/
def Operation.serves : Operation → Kind → Bool
  | eager op, kind => op.serves kind
  | connective _, kind => kind = .bool
  | invoke, kind => kind = .lambda

/-- What a kind finds under a name is an operation meant for the kind. -/
theorem Kind.serves_of_operation?
    {kind : Kind} {method : String} {op : Operation}
    (h : kind.operation? method = some op) : op.serves kind = true := by
  have hall : ∀ entry ∈ kind.operations, entry.2.serves kind = true := by
    cases kind <;> decide
  exact hall _ (Kind.mem_operations h)

/-- Only function literals can be invoked, under one name. -/
theorem Kind.eq_lambda_of_invoke
    {kind : Kind} {method : String} (h : kind.operation? method = some .invoke) :
    kind = .lambda ∧ method = "invoke" := by
  have hall : ∀ entry ∈ kind.operations, entry.2 = .invoke → kind = .lambda ∧
      entry.1 = "invoke" := by
    cases kind <;> decide
  exact hall _ (Kind.mem_operations h) rfl

/-! ## Failures for unknown names -/

namespace Job

/-- Operations are called on receivers that they are meant for, as they are in every job
that calls for one. -/
def Proper : Job → Prop
  | operate op receiver _ _ => op.serves receiver.kind
  | invoke receiver _ => receiver.kind = .lambda
  | _ => True

/-- Done from the state, the job looks up a name that is unknown there, and the cause
holds the right hint. -/
inductive Misnames : Job → State → Cause → Prop
  | method {scope : Nat} {receiver : Value} {method : String} {args : Arguments}
      {hint : Option String} {s : State}
      (unknown : method ∉ receiver.kind.methods)
        (hints : Text.Hints method (· ∈ receiver.kind.methods) hint) :
      Misnames (.dispatch scope receiver method args) s
        (.unknownMethod receiver.kind method hint)
  | function {scope : Nat} {name : String} {args : Arguments}
      {hint : Option String} {s : State}
      (notBuiltin : Builtin.ofName? name = none)
        (notLoaded : s.functions.get? name = none)
      (hints : Text.Hints name (fun c => (Builtin.ofName? c).isSome ∨
        (s.functions.get? c).isSome) hint) :
      Misnames (.callNamed scope name args) s (.undefinedFunction name hint)
  | unbound {scope : Nat} {name : String} {span : Span} {hint : Option String} {s : State}
      (unbound : s.scopes.get? scope name = none)
      (hints : Text.Hints name (fun c => (s.scopes.get? scope c).isSome ∧ '.' ∉ c.toList)
        hint)
      (notHidden : ∀ number, hint ≠ some (hiddenName number)) :
      Misnames (.eval scope (.name name span)) s (.undefinedVariable name hint)

variable {host : Host} {fuel : Nat} {job job' : Job} {s s' t t' : State} {f : Failure}

theorem Starts.proper {scope : Nat} {stmts : List Stmt}
    (h : Starts host fuel scope stmts s job t) : job.Proper := by
  induction h with
  | expr | stmt => trivial
  | afterExpr _ _ ih => exact ih
  | afterStmt _ _ _ ih => exact ih

/-- What a job calls for is called on receivers that it is meant for. -/
theorem Calls.proper (h : Calls host fuel job s job' t) (hjob : job.Proper) :
    job'.Proper := by
  cases h with
  | operation _ _ found _ => exact Kind.serves_of_operation? found
  | @invoke receiver =>
      have hkind : receiver.kind = .lambda := of_decide_eq_true hjob
      exact hkind
  | started hstarts => exact hstarts.proper
  | _ => trivial

/-- A job that raises a failure for an unknown name has looked the name up itself. -/
theorem Raises.misnames
    (h : Raises host fuel job s f) (hjob : job.Proper)
    (hsort : f.cause.sort ∈ FailureSort.ofNames) : job.Misnames s f.cause := by
  cases h with
  | @unbound scope name _ s unbound =>
      have hknown : ∀ c, c ∈ host.listing.arrange
          (Run.suggestable (s.scopes.visibleNames scope)) ↔
          (s.scopes.get? scope c).isSome ∧ '.' ∉ c.toList := by
        intro c
        rw [(host.listing.perm _).mem_iff, Run.suggestable, List.mem_filter,
          Scopes.mem_visibleNames_iff, ← Scopes.isSome_get?_iff]
        simp
      have hhints : Text.Hints name _ (Text.suggestion name _) :=
        Text.hints_suggestion hknown
      refine .unbound unbound hhints fun number heq => ?_
      rw [heq] at hhints
      exact hhints.1.2 (dot_mem_hiddenName number)
  | unknown _ _ unfound =>
      exact .method (Kind.operation?_eq_none_iff.mp unfound)
        (Text.hints_suggestion fun c => by rw [Kind.operationNames_eq_methods])
  | undefined notBuiltin notLoaded =>
      refine .function notBuiltin notLoaded (Text.hints_suggestion fun c => ?_)
      rw [(host.listing.perm _).mem_iff, List.mem_append]
      exact or_congr isSome_lookup_iff_mem.symm isSome_lookup_iff_mem.symm
  -- What is left are operations and built-in functions that were found, and failures of
  -- other sorts.
  | @operand op receiver method _ values _ _ t _ _ refused =>
      have hallows := op.plan_allows t.store receiver method values
      rw [refused] at hallows
      exact absurd hsort (hallows.2 trivial)
  | @operands op receiver method _ values _ _ t _ refused =>
      have hallows := op.plan_allows t.store receiver method values host.files
      rw [refused] at hallows
      exact absurd hsort (hallows.2 hjob)
  | builtin _ _ failed =>
      obtain ⟨cause, rfl, hother⟩ := Builtin.call_eq_failed failed
      exact absurd hsort hother
  | @notLambda receiver _ _ other =>
      cases receiver with
      | lambda cell => exact absurd rfl (other cell)
      | int | long | double | bool | text | list | array | iterator | file | void
      | dispatcher | factory => cases hjob
  | onVoid | misfit | arity | overflow | escaped | notBool | outside =>
      simp [Cause.sort, FailureSort.ofNames] at hsort

/-- A failure for an unknown name starts with a job that has looked the name up. -/
theorem exists_misnames (h : job.run host fuel s = .failed f s') (hjob : job.Proper)
    (hsort : f.cause.sort ∈ FailureSort.ofNames) :
    ∃ entered left last t, Active host fuel job s entered left last t ∧
      last.Misnames t f.cause := by
  induction fuel generalizing job s s' f with
  | zero =>
      rw [run_zero] at h
      cases h
  | succ fuel ih =>
      rcases breaks_of_failed h with hraises | ⟨job', t, f', t', hcalls, hfailed, rfl⟩
      · exact ⟨0, fuel + 1, job, s, .here, hraises.misnames hjob hsort⟩
      · obtain ⟨entered, left, last, u, hactive, hmisnames⟩ :=
          ih hfailed (hcalls.proper hjob) hsort
        exact ⟨_, left, last, u, .inside hcalls hactive, hmisnames⟩

end Job

/-- On evaluated arguments, a method is unknown exactly when the receiver's kind does not
have it: an operation that is found fails for other causes only. -/
theorem dispatch_unknown_iff
    (host : Host) (fuel scope : Nat) (s : State) {receiver : Value} {method : String}
    (values : List Value) (hkind : receiver.kind.methods ≠ [])
    (hinvoke : ¬(receiver.kind = .lambda ∧ method = "invoke")) :
    (∃ f s', dispatch host (fuel + 3) scope receiver method
        (.ready values) s = .failed f s' ∧
        f.cause.sort = .unknownMethod) ↔
      method ∉ receiver.kind.methods := by
  constructor
  · rintro ⟨f, s', hfailed, hsort⟩
    have hnames : f.cause.sort ∈ FailureSort.ofNames := by
      rw [hsort]
      decide
    rcases Job.dispatch_breaks hfailed with hraises |
      ⟨job, t, f', t', hcalls, hinside, rfl⟩
    · obtain ⟨cause, span⟩ := f
      cases hraises.misnames trivial hnames with
      | method unknown => exact unknown
    · cases hcalls with
      | named => exact absurd rfl hkind
      | operation _ _ found _ =>
          -- Evaluated arguments cannot fail, so the operation would have to raise the
          -- failure itself.
          rcases Job.operate_breaks hinside with hraises |
            ⟨job', u, g, u', hcalls, hforced, rfl⟩
          · cases hraises.misnames (Kind.serves_of_operation? found) hnames
          · cases hcalls with
            | invokeArgs | operand | operands => cases hforced
            | invoke => exact absurd (Kind.eq_lambda_of_invoke found) hinvoke
  · intro hunknown
    have hvoid : receiver ≠ .void := by
      rintro rfl
      exact hkind rfl
    have hdispatcher : receiver ≠ .dispatcher := by
      rintro rfl
      exact hkind rfl
    rw [← receiver.kind.operationNames_eq_methods] at hunknown
    exact ⟨_, s, dispatch_of_refused (.unknownMethod hvoid hdispatcher hunknown)
      (fuel + 1), rfl⟩

/-- A method on evaluated arguments fails as unknown exactly when the receiver's kind does
not have it. Whenever a run fails for an unknown name, some job has looked the name up in
a state in which it is unknown; the hint is then a known name, no more than a third of the
name's length or one edit away, and no known name is nearer. Hidden names are not hinted
at. -/
theorem unknown_names_are_reported_truthfully (host : Host) (fuel : Nat) (s : State) :
    (∀ (scope : Nat) (receiver : Value) (method : String) (values : List Value),
        receiver.kind.methods ≠ [] →
      ¬(receiver.kind = .lambda ∧ method = "invoke") →
      ((∃ f s', dispatch host (fuel + 3) scope receiver method
          (.ready values) s = .failed f s' ∧
          f.cause.sort = .unknownMethod) ↔
        method ∉ receiver.kind.methods)) ∧
    ∀ (job : Job) (f : Failure) (s' : State), job.Proper →
        job.run host fuel s = .failed f s' →
      f.cause.sort ∈ FailureSort.ofNames →
      ∃ entered left last t, Job.Active host fuel job s entered left last t ∧
        last.Misnames t f.cause :=
  ⟨fun scope _ _ values hkind hinvoke =>
      dispatch_unknown_iff host fuel scope s values hkind hinvoke,
    fun _ _ _ hjob hfailed hsort => Job.exists_misnames hfailed hjob hsort⟩

/-- Of two visible names, the nearer one is hidden. -/
def hiddenAndPlain : State :=
  { State.initial (.ofLines [] none) with
    scopes := (Scopes.initial.define globalScope (hiddenName 10) (.iterator 0)).define
      globalScope "four10" (.int 0) }

theorem unknown_names_are_reported_truthfully_hidden :
    let job : Job :=
      .eval globalScope (.call (.name "for_10" default) ⟨"plus", default⟩ [] default)
    let cause : Cause := .undefinedVariable "for_10" (some "four10")
    (∃ f s', dispatch ⟨0, .empty, .asBound⟩ 5 globalScope (.list 0) "push"
        (.ready [.int 0]) hiddenAndPlain = .failed f s' ∧
      f.cause.sort = .unknownMethod) ∧
    (∃ s', job.run ⟨0, .empty, .asBound⟩ 2 hiddenAndPlain =
      .failed ⟨cause, some default⟩ s') ∧
    ∃ entered left last t, Job.Active ⟨0, .empty, .asBound⟩
      2 job hiddenAndPlain entered left last t ∧ last.Misnames t cause := by
  intro job cause
  obtain ⟨hmethods, hruns⟩ := unknown_names_are_reported_truthfully
    ⟨0, .empty, .asBound⟩ 2 hiddenAndPlain
  have hunbound : hiddenAndPlain.scopes.get? globalScope "for_10" = none := by
    decide +kernel
  have hhint : Text.suggestion "for_10"
      (Listing.asBound.arrange
        (Run.suggestable (hiddenAndPlain.scopes.visibleNames globalScope))) =
        some "four10" := by
    decide +kernel
  have hfailed : ∃ s', job.run ⟨0, .empty, .asBound⟩ 2 hiddenAndPlain =
      .failed ⟨cause, some default⟩ s' := by
    refine Job.failed_iff.mpr ⟨_, _, .within .receiver (.raised (.unbound hunbound)), ?_⟩
    rw [hhint]
    rfl
  refine ⟨(hmethods globalScope (.list 0) "push" [.int 0] nofun nofun).mpr (by decide),
    hfailed, ?_⟩
  obtain ⟨s', hfailed⟩ := hfailed
  exact hruns job ⟨cause, some default⟩ s' trivial hfailed (by decide)

end HandleScript
