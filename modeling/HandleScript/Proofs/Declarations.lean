import HandleScript.Proofs.Inputs

/-!
# The functions of a session

An input that does not compile leaves a session as it was, and neither statements nor a
reset touch the table of functions. So the table is what has been declared: each name
means the last function of that name among those of all inputs that have been loaded. The
proof reads the table after each use off the functions that the use declares, and a
history off the functions that its uses declare one after the other.
-/

namespace HandleScript

namespace Function

/-- The last function of a name in a sequence of declarations. -/
def lastNamed? (name : String) (functions : List Function) : Option Function :=
  (functions.filter fun f => f.name.node = name).getLast?

theorem lastNamed?_append (name : String) (fs gs : List Function) :
    lastNamed? name (fs ++ gs) = (lastNamed? name gs).or (lastNamed? name fs) := by
  rw [lastNamed?, List.filter_append, List.getLast?_append]
  rfl

theorem lastNamed?_singleton (name : String) (f : Function) :
    lastNamed? name [f] = if name = f.name.node then some f else none := by
  by_cases h : name = f.name.node
  · simp [lastNamed?, h]
  · simp [lastNamed?, h, Ne.symm h]

theorem declareAll_append (table : Bindings Function) (fs gs : List Function) :
    declareAll table (fs ++ gs) = declareAll (declareAll table fs) gs :=
  List.foldl_append

/-- A table with further declarations gives the last one of a name, or else what it gave
before. -/
theorem get?_declareAll (table : Bindings Function) (functions : List Function)
    (name : String) :
    (declareAll table functions).get? name = (lastNamed? name functions).or
      (table.get? name) := by
  induction functions generalizing table with
  | nil => rfl
  | cons f fs ih =>
      have hfirst : (table.insert f.name.node f).get? name =
          (lastNamed? name [f]).or (table.get? name) := by
        rw [Bindings.get?_insert, lastNamed?_singleton]
        split <;> rfl
      calc (declareAll (table.insert f.name.node f) fs).get? name
          = (lastNamed? name fs).or ((lastNamed? name [f]).or (table.get? name)) := by
            rw [ih, hfirst]
        _ = (lastNamed? name ([f] ++ fs)).or (table.get? name) := by
          rw [lastNamed?_append, Option.or_assoc]

end Function

namespace Session

variable {session session' : Session}

/-- The functions that a use of a session declares: those of an input that is read as
declarations and accepted. -/
def declares (session : Session) : Use → List Function
  | .reset => []
  | .eval fuel input =>
    match read input with
    | .error _ => []
    | .ok (.statements _) => []
    | .ok (.declarations p) =>
      match session.eval fuel input with
      | .done _ _ => p.functions
      | _ => []

/-- The functions that uses of a session declare, one use after the other. -/
def declaresAll (session : Session) : List Use → List Function
  | [] => []
  | u :: us =>
    session.declares u ++ ((session.use u).state?.map fun next =>
      next.declaresAll us).getD []

theorem declares_of_failed {fuel : Nat} {input : String} {e : Error}
    (h : session.eval fuel input = .failed e session') :
    session.declares (.eval fuel input) = [] := by
  rw [declares, h]
  rcases read input with e | p | stmts <;> rfl

theorem declares_of_loaded
    {fuel : Nat} {input : String} {p : Program} {v : Option Value}
    (hread : read input = .ok (.declarations p))
    (h : session.eval fuel input = .done v session') :
    session.declares (.eval fuel input) = p.functions := by
  simp only [declares, hread, h]

theorem declares_of_statements {fuel : Nat} {input : String} {stmts : List Stmt}
    (h : read input = .ok (.statements stmts)) :
    session.declares (.eval fuel input) = [] := by
  rw [declares, h]

/-- A use changes the table by what it declares, and in no other way. -/
theorem use_functions {u : Use} (h : (session.use u).state? = some session') :
    session'.state.functions = Function.declareAll session.state.functions
      (session.declares u) := by
  have hdoes := session.use_does u
  generalize houtcome : session.use u = outcome at hdoes h
  cases hdoes with
  | reset =>
      cases h
      rfl
  | refused _ =>
      cases h
      rw [declares_of_failed houtcome]
      rfl
  | loaded hread _ =>
      cases h
      rw [declares_of_loaded hread houtcome]
      rfl
  | @ran fuel input stmts hread =>
      rw [declares_of_statements hread]
      rw [Outcome.state?_lift] at h
      obtain ⟨s, hs, rfl⟩ := Option.map_eq_some_iff.mp h
      have hrun := Job.forward session.interpreter.host (fuel + 1)
        (.input session.scope stmts) session.state
      exact (hrun.mono (fun _ _ hd => hd.functions) fun _ _ hf =>
        hf.functions).of_state? hs

/-- After a history, the table is the one before it with everything that the history
declares. -/
theorem after_functions {us : List Use} (h : session.after us = some session') :
    session'.state.functions = Function.declareAll session.state.functions
      (session.declaresAll us) := by
  induction us generalizing session with
  | nil =>
      cases h
      rfl
  | cons u us ih =>
      obtain ⟨next, hnext, hrest⟩ := after_cons_eq_some h
      rw [ih hrest, use_functions hnext, declaresAll, hnext, Function.declareAll_append]
      rfl

/-- An input that does not compile leaves the session as it was. -/
theorem eq_of_compile_error {fuel : Nat} {input : String} {e : CompileError}
    (h : session.eval fuel input = .failed (.compile e) session') :
    session' = session := by
  have hdoes := session.use_does (.eval fuel input)
  rw [use, h] at hdoes
  generalize houtcome : Outcome.failed (Error.compile e) session' = outcome at hdoes
  cases hdoes with
  | refused _ =>
      cases houtcome
      rfl
  | loaded _ _ => cases houtcome
  | @ran fuel input stmts _ =>
      cases hrun : evalStatements session.interpreter.host fuel session.scope
          none stmts session.state <;>
        rw [hrun] at houtcome <;> cases houtcome

/-- A session that is given an input that does not compile is the same session afterwards:
its functions, its scopes, its store and its console. Statements, however they end, and a
reset leave the table of functions. After any history the table gives, for each name, the
last function of that name among the inputs that have been loaded, or else the one from
before the session. It is the map of a program's functions when that program is all that
has been loaded. -/
theorem functions_are_last_declared :
    (∀ session fuel input e session', eval fuel session input =
      .failed (.compile e) session' → session' = session) ∧
    (∀ session u session', (use session u).state? = some session' →
      (u = .reset ∨ ∃ fuel input stmts, u = .eval fuel input ∧
        read input = .ok (.statements stmts)) →
      session'.state.functions = session.state.functions) ∧
    (∀ i us session, (Session.new i).after us = some session → ∀ name,
      session.state.functions.get? name =
        (Function.lastNamed? name ((Session.new i).declaresAll us)).or
          (i.state.functions.get? name)) ∧
    (∀ settings files listing console us session,
        (Session.new (.fresh settings files listing console)).after us = some session →
      ∀ name, session.state.functions.get? name =
        Function.lastNamed? name
          ((Session.new (.fresh settings files listing console)).declaresAll us)) ∧
    (∀ (p : Program) name, p.functionMap.get? name =
      Function.lastNamed? name p.functions) ∧
    (∀ settings files listing console fuel input p session,
        read input = .ok (.declarations p) →
      (Session.new (.fresh settings files listing console)).eval fuel input =
        .done none session →
      session.state.functions = p.functionMap) := by
  have hhistory : ∀ i us session, (Session.new i).after us = some session → ∀ name,
      session.state.functions.get? name =
        (Function.lastNamed? name ((Session.new i).declaresAll us)).or
          (i.state.functions.get? name) := by
    intro i us session hafter name
    rw [after_functions hafter, Function.get?_declareAll]
    rfl
  refine ⟨?_, ?_, hhistory, ?_, ?_, ?_⟩
  · intro session fuel input e session' hfailed
    exact eq_of_compile_error hfailed
  · intro session u session' hended hquiet
    rw [use_functions hended]
    rcases hquiet with rfl | ⟨fuel, input, stmts, rfl, hread⟩
    · rfl
    · rw [declares_of_statements hread]
      rfl
  · intro settings files listing console us session hafter name
    rw [hhistory _ us session hafter name]
    exact Option.or_none
  · intro p name
    rw [Program.functionMap, Function.get?_declareAll]
    exact Option.or_none
  · intro settings files listing console fuel input p session hread hloaded
    have hended : ((Session.new (.fresh settings files listing console)).use
        (.eval fuel input)).state? = some session := by
      rw [use, hloaded]
      rfl
    rw [use_functions hended, declares_of_loaded hread hloaded]
    rfl

/-- Two functions are declared, an input with a good and a bad function is refused, one of
the two is declared again, and a run fails: the table has the first `f`, the second `g`,
and no `h`. -/
theorem functions_are_last_declared_refusal :
    let start := Session.new (.fresh {} .empty .asBound (.ofLines [] none))
    let bad := "fun f(x) \x7b \x7d fun h() \x7b break \x7d"
    let us : List Use := [.eval 9 "fun f() \x7b \x7d fun g(x) \x7b \x7d", .eval 9 bad,
        .eval 9 "fun g() \x7b \x7d", .reset,
      .eval 9 "1.divide(0)"]
    (∃ e session, start.eval 9 bad = .failed (.compile e) session ∧ session = start) ∧
    ∃ session, start.after us = some session ∧
      (∀ name, session.state.functions.get? name = Function.lastNamed? name
        (start.declaresAll us)) ∧
      ["f", "g", "h"].map (fun name => (session.state.functions.get? name).map
          fun f => f.params.length) =
        [some 0, some 0, none] := by
  intro start bad us
  have hrefused : (start.eval 9 bad).compileError?.isSome := by decide +kernel
  have hcounts : (start.after us).map (fun session => ["f", "g", "h"].map fun name =>
      (session.state.functions.get? name).map fun f => f.params.length) =
        some [some 0, some 0, none] := by
    decide +kernel
  obtain ⟨e, he⟩ := Option.isSome_iff_exists.mp hrefused
  obtain ⟨refused, hfailed⟩ := Outcome.eq_failed_of_compileError? he
  obtain ⟨session, hafter, hparams⟩ := Option.map_eq_some_iff.mp hcounts
  refine ⟨⟨e, refused, hfailed, functions_are_last_declared.1 _ _ _ _ _ hfailed⟩,
    session, hafter, ?_, hparams⟩
  exact functions_are_last_declared.2.2.2.1 _ _ _ _ us session hafter

end Session

end HandleScript
