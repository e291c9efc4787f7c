import HandleScript.Proofs.Inputs
import HandleScript.Proofs.Sites

/-!
# Which input an error of a session points into

A session keeps functions and closures from one input to the next, with the places at
which they stood in the inputs that they were read from. An error that keeps an input from
running lies in that input. A failure at run time lies in the input that the failing code
was read from: in the input at hand as long as no body has been entered, but in an earlier
one when it comes up inside of a function or a closure from there.
-/

namespace HandleScript

/-- The place of an error. -/
def Error.span? : Error → Option Span
  | compile e => some e.span
  | runtime f => f.span

namespace Session

variable {session session' : Session} {known : Node → Prop}

/-- The input of a use. -/
def Use.input? : Use → Option String
  | .eval _ input => some input
  | .reset => none

/-- The inputs among uses, in order. -/
def inputs (us : List Use) : List String :=
  us.filterMap Use.input?

/-- A node of what an input asks for. -/
def IsNodeOf (input : String) (n : Node) : Prop :=
  ∃ asked, read input = .ok asked ∧ n ∈ asked.nodes

theorem IsNodeOf.liesIn {input : String} {n : Node} (h : IsNodeOf input n) :
    n.span.LiesIn input := by
  obtain ⟨asked, hread, hn⟩ := h
  have hstands := read_liesIn input
  rw [hread] at hstands
  exact hstands n hn

/-- A compile error lies in the input that is refused. -/
theorem Refuses.liesIn {input : String} {e : CompileError} (h : Refuses input e) :
    e.span.LiesIn input := by
  have hstands := read_liesIn input
  rcases h with hread | ⟨p, hread, hcheck⟩
  · rw [hread] at hstands
    exact hstands
  · rw [hread] at hstands
    exact hstands _ (Program.check_mem_nodes hcheck)

/-- After a use, a session can call what it could call before and what the input is made
of. -/
theorem use_madeOf {u : Use} (hs : session.state.MadeOf known)
    (hu : ∀ input, u.input? = some input → ∀ n, IsNodeOf input n → known n)
    (h : (session.use u).state? = some session') : session'.state.MadeOf known := by
  have hdoes := session.use_does u
  generalize session.use u = outcome at hdoes h
  cases hdoes with
  | reset =>
      cases h
      intro f hf
      cases hf with
      | loaded hloaded => exact hs f (.loaded hloaded)
      | closure cell => exact hs _ (.closure cell)
  | refused _ =>
      cases h
      exact hs
  | @loaded fuel input p hread _ =>
      cases h
      have hall : ∀ name g,
          (Function.declareAll session.state.functions p.functions).get? name = some g →
          ∀ n ∈ g.nodes, known n := by
        refine Function.forall_declareAll (fun name g hg => hs g (.loaded hg))
          fun g hg n hn => ?_
        exact hu input rfl n ⟨_, hread, List.mem_flatMap.mpr ⟨g, hg, hn⟩⟩
      intro f hf
      cases hf with
      | loaded hloaded => exact hall _ f hloaded
      | closure cell => exact hs _ (.closure cell)
  | @ran fuel input stmts hread =>
      rw [Outcome.state?_lift] at h
      obtain ⟨s, hended, rfl⟩ := Option.map_eq_some_iff.mp h
      have hjob : (Job.input session.scope stmts).MadeOf known :=
        fun n hn => hu input rfl n ⟨_, hread, hn⟩
      have hrun : ((Job.input session.scope stmts).run session.interpreter.host
          (fuel + 1) session.state).state? =
          some s := hended
      exact (Job.madeOf_invariant session.interpreter.host known).holds_of_state?
        hjob hs hrun

theorem after_madeOf {us : List Use} (hs : session.state.MadeOf known)
    (hus : ∀ input ∈ inputs us, ∀ n, IsNodeOf input n → known n)
    (h : session.after us = some session') : session'.state.MadeOf known := by
  induction us generalizing session with
  | nil =>
      cases h
      exact hs
  | cons u us ih =>
      obtain ⟨next, hnext, hrest⟩ := after_cons_eq_some h
      refine ih (use_madeOf hs ?_ hnext) ?_ hrest
      · intro input hinput
        exact hus input (List.mem_filterMap.mpr ⟨u, List.mem_cons_self, hinput⟩)
      · intro input hinput
        obtain ⟨u', hmem, hu'⟩ := List.mem_filterMap.mp hinput
        exact hus input (List.mem_filterMap.mpr ⟨u', List.mem_cons_of_mem _ hmem, hu'⟩)

theorem new_madeOf (settings : Settings) (files : Files) (listing : Listing)
    (console : Console) :
    (Session.new (.fresh settings files listing console)).state.MadeOf known := by
  intro f hf
  cases hf with
  | loaded hloaded => cases hloaded
  | closure cell => exact fun n hn => nomatch hn

/-- The span is that of a method, a variable or a condition of the input, and lies in
it. -/
def HasSite (input : String) (span : Span) : Prop :=
  ∃ sort, NodeSort.IsSite sort ∧ IsNodeOf input ⟨sort, span⟩ ∧ span.LiesIn input

/-! ## Failing statements after a history -/

section History

variable {settings : Settings} {files : Files} {listing : Listing} {console : Console}
  {us : List Use} {fuel : Nat} {input : String}
  {stmts : List Stmt} {stack : List Job} {raised f : Failure} {span : Span} {s : State}

/-- The statements of an input do not fail for a loop exit. -/
theorem plain_of_failed
    (hafter : (Session.new (.fresh settings files listing console)).after us =
      some session)
    (hread : read input = .ok (.statements stmts))
    (hfailed : evalStatements session.interpreter.host fuel session.scope none stmts
      session.state = .failed f s) :
    f.cause.Plain := by
  have hreached : Session.Reached (fun _ _ => True) session :=
    holds_after (fun _ _ _ hbefore hnext => .next hbefore hnext)
      (.new (.fresh settings files listing console)) hafter
  have hsound := evalStatements_sound session.interpreter.host fuel session.scope none
      stmts (read_checked hread) _
    hreached.checked
  rw [hfailed] at hsound
  exact hsound.2

/-- The place of a failure is a site of the input that fails or of an earlier one. -/
theorem exists_hasSite
    (hafter : (Session.new (.fresh settings files listing console)).after us =
      some session)
    (hread : read input = .ok (.statements stmts))
    (hfails : Job.Fails session.interpreter.host fuel (.input session.scope stmts)
      session.state stack raised)
    (hplain : raised.cause.Plain)
    (hplace : raised.span.or (Job.innermostCall stack) = some span) :
    ∃ text ∈ input :: inputs us, HasSite text span := by
  have hknown : session.state.MadeOf fun n =>
      ∃ text ∈ input :: inputs us, IsNodeOf text n :=
    after_madeOf (new_madeOf settings files listing console)
      (fun text htext n hn => ⟨text, List.mem_cons_of_mem _ htext, hn⟩) hafter
  have hown : (Job.input session.scope stmts).MadeOf fun n =>
      ∃ text ∈ input :: inputs us, IsNodeOf text n :=
    fun n hn => ⟨input, List.mem_cons_self, _, hread, hn⟩
  obtain ⟨sort, hsite, text, htext, hnode⟩ := hfails.site hown hknown hplain hplace
  exact ⟨text, htext, sort, hsite, hnode, hnode.liesIn⟩

/-- The place of a failure outside of all bodies is a site of the input that fails. -/
theorem hasSite_of_outside
    (hread : read input = .ok (.statements stmts))
    (hfails : Job.Fails session.interpreter.host fuel (.input session.scope stmts)
      session.state stack raised)
    (hplain : raised.cause.Plain)
    (hplace : raised.span.or (Job.innermostCall stack) = some span)
    (houtside : ∀ job ∈ stack.dropLast, job.bodies = 0) : HasSite input span := by
  obtain ⟨sort, hsite, hnode⟩ := hfails.site_outside houtside hplain hplace
  have hnode' : IsNodeOf input ⟨sort, span⟩ := ⟨_, hread, hnode⟩
  exact ⟨sort, hsite, hnode', hnode'.liesIn⟩

end History

/-- An error of an input after a history has a place. The place of a compile error lies in
the input. The place of a failure at run time is a site of the input or of an earlier
input of the history; and of the input itself as long as no body of a function or a
closure has been entered when the failure comes up. -/
theorem errors_point_into_inputs_of_their_code
    {settings : Settings} {files : Files} {listing : Listing} {console : Console}
    {us : List Use} {fuel : Nat} {input : String} {e : Error}
    (hafter : (Session.new (.fresh settings files listing console)).after us =
      some session)
    (hfailed : session.eval fuel input = .failed e session') :
    ∃ span, e.span? = some span ∧
      ((∃ refusal, e = .compile refusal ∧ span.LiesIn input) ∨
        ∃ stmts stack raised, read input = .ok (.statements stmts) ∧
          Job.Fails session.interpreter.host (fuel + 1) (.input session.scope stmts)
            session.state stack raised ∧
          e = .runtime ⟨raised.cause, raised.span.or (Job.innermostCall stack)⟩ ∧
          (∃ text ∈ input :: inputs us, HasSite text span) ∧
          ((∀ job ∈ stack.dropLast, job.bodies = 0) → HasSite input span)) := by
  have hdoes := session.use_does (.eval fuel input)
  rw [use, hfailed] at hdoes
  generalize houtcome : Outcome.failed e session' = outcome at hdoes
  cases hdoes with
  | refused hrefused =>
      cases houtcome
      exact ⟨_, rfl, .inl ⟨_, rfl, hrefused.liesIn⟩⟩
  | loaded => cases houtcome
  | @ran _ _ stmts hread =>
      obtain ⟨f, s, hrun, rfl⟩ := Outcome.eq_failed_of_lift houtcome.symm
      obtain ⟨span, hspan⟩ := Job.evalStatements_failed_place hrun
      have hplain := plain_of_failed hafter hread hrun
      have hinput : (Job.input session.scope stmts).run session.interpreter.host
          (fuel + 1) session.state =
          .failed f s := hrun
      obtain ⟨stack, raised, hfails, rfl⟩ := Job.failed_iff.mp ⟨s, hinput⟩
      refine ⟨span, hspan, .inr ⟨stmts, stack, raised, hread, hfails, rfl, ?_, ?_⟩⟩
      · exact exists_hasSite hafter hread hfails hplain hspan
      · exact hasSite_of_outside hread hfails hplain hspan

/-- A function that one input declares fails when the next one calls it: the place of the
failure is beyond the end of the input at hand, and is a site of the earlier one. An input
that breaks off is refused at a place of its own. -/
theorem errors_point_into_inputs_of_their_code_earlier :
    let start := Session.new (.fresh {} .empty .asBound (.ofLines [] none))
    let first := "fun f(x) \x7b return x.nope() \x7d"
    ∃ session, start.after [.eval 9 first] = some session ∧
      (∃ f session', session.eval 40 "f(1)" = .failed (.runtime f) session' ∧
          f.span = some ⟨20, 24, 1, 21⟩ ∧
        ¬ Span.LiesIn "f(1)" ⟨20, 24, 1, 21⟩ ∧ HasSite first ⟨20, 24, 1, 21⟩) ∧
      ∃ e session', session.eval 40 "var y =" = .failed (.compile e) session' ∧
        e.span.LiesIn "var y =" := by
  intro start first
  have hends : (start.after [.eval 9 first]).isSome := by decide +kernel
  obtain ⟨session, hafter⟩ := Option.isSome_iff_exists.mp hends
  have hcalled : ((start.after [.eval 9 first]).map fun session =>
      (session.eval 40 "f(1)").runtimeFailure?) =
      some (some ⟨.unknownMethod .int "nope" none, some ⟨20, 24, 1, 21⟩⟩) := by
        decide +kernel
  have hrefused : ((start.after [.eval 9 first]).map fun session =>
      (session.eval 40 "var y =").compileError?.isSome) = some true := by decide +kernel
  rw [hafter, Option.map_some, Option.some_inj] at hcalled hrefused
  obtain ⟨session₁, hfailed⟩ := Outcome.eq_failed_of_runtimeFailure? hcalled
  obtain ⟨e, he⟩ := Option.isSome_iff_exists.mp hrefused
  obtain ⟨session₂, hbad⟩ := Outcome.eq_failed_of_compileError? he
  have houtside : ¬ Span.LiesIn "f(1)" ⟨20, 24, 1, 21⟩ := by
    intro hlies
    have hstop := hlies.bounds.2.1
    revert hstop
    decide
  refine ⟨session, hafter, ⟨_, session₁, hfailed, rfl, houtside, ?_⟩, e,
    session₂, hbad, ?_⟩
  · obtain ⟨span, hspan, ⟨refusal, hrefusal, -⟩ |
        ⟨_, _, _, -, -, -, ⟨text, htext, hsite⟩, -⟩⟩ :=
      errors_point_into_inputs_of_their_code hafter hfailed
    · cases hrefusal
    · cases hspan
      rcases List.mem_cons.mp htext with rfl | hearlier
      · obtain ⟨_, -, -, hlies⟩ := hsite
        exact absurd hlies houtside
      · cases List.mem_singleton.mp hearlier
        exact hsite
  · obtain ⟨span, hspan, ⟨refusal, hrefusal, hlies⟩ | ⟨_, _, _, -, -, hruntime, -⟩⟩ :=
      errors_point_into_inputs_of_their_code hafter hbad
    · cases hspan
      exact hlies
    · cases hruntime

end Session

end HandleScript
