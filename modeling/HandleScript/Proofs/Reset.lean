import HandleScript.Proofs.Alike
import HandleScript.Proofs.ControlFlow
import HandleScript.Proofs.Declarations
import HandleScript.Proofs.Resolution

/-!
# Resetting a session

A reset opens a new scope inside the outermost one. The values and scopes of before are
out of reach from there, all but what the outermost scope itself binds: the dispatcher and
the factory, unless an input has rebound their names. As long as none has, a session that
has been reset cannot be told from a new session on a fresh interpreter with the same
functions and the rest of the console, but for hints where candidates are listed
differently; and if one has, the rebound name alone tells them apart.
-/

namespace HandleScript

/-! ## What a session keeps -/

/-- A state between two uses of a session: the outermost scope binds two names, no call is
unfinished, and no more has been written than can be. -/
structure State.Orderly (s : State) : Prop where
  sane : s.Sane
  outermost : ∃ sc, s.scopes.scopes[globalScope]? = some sc ∧ sc.parent = none ∧
    sc.bindings.names = [dispatcherName, factoryName]
  depth : s.depth = 0
  console : s.console.WithinLimit

theorem State.initial_orderly {console : Console} (h : console.WithinLimit) :
    (State.initial console).Orderly :=
  ⟨State.initial_sane console, ⟨.initial, rfl, rfl, rfl⟩, rfl, h⟩

/-- Code that runs inside the outermost scope leaves an orderly state, if it leaves a sane
one on a console within its limit. -/
theorem State.Orderly.evolves
    {s s' : State} {free : Nat → Prop} (h : s.Orderly) (hevolves : s.Evolves free s')
    (hfree : ¬free globalScope) (hsane : s'.Sane) (hconsole : s'.console.WithinLimit) :
    s'.Orderly := by
  obtain ⟨sc, hsc, hparent, hnames⟩ := h.outermost
  obtain ⟨sc', hsc', hparent', hnames'⟩ := hevolves.scopes globalScope sc hsc
  refine ⟨hsane, ⟨sc', hsc', hparent'.trans hparent, ?_⟩,
    hevolves.depth.trans h.depth, hconsole⟩
  exact (hnames' hfree).trans hnames

namespace Session

variable {session session' : Session}

/-- A session in an orderly state, with a scope of its own. -/
structure Orderly (session : Session) : Prop where
  state : session.state.Orderly
  exists_scope : session.scope < session.state.scopes.size
  inside : session.scope ≠ globalScope

theorem new_orderly {i : Interpreter} (h : i.state.Orderly) :
    (Session.new i).Orderly := by
  obtain ⟨hsane, hscope⟩ := new_sane h.sane
  refine ⟨h.evolves (.of_scopes (.child nowhere _ globalScope))
    (fun hin => hin) hsane h.console, hscope, ?_⟩
  exact Nat.ne_of_gt h.sane.2

theorem use_orderly (h : session.Orderly) {u : Use}
    (hended : (session.use u).state? = some session') : session'.Orderly := by
  obtain ⟨hsane, hscope⟩ := (use_sane ⟨h.state.sane, h.exists_scope⟩ u).of_state? hended
  have hdoes := session.use_does u
  generalize session.use u = reply at hdoes hended
  cases hdoes with
  | reset =>
      cases hended
      exact new_orderly h.state
  | refused _ =>
      cases hended
      exact h
  | loaded _ _ =>
      cases hended
      exact ⟨⟨hsane, h.state.outermost, h.state.depth, h.state.console⟩, hscope, h.inside⟩
  | @ran fuel input stmts _ =>
      rw [Outcome.state?_lift] at hended
      obtain ⟨s, hs, rfl⟩ := Option.map_eq_some_iff.mp hended
      have hran : ((Job.input session.scope stmts).run session.interpreter.host
          (fuel + 1) session.state).state? =
          some s := hs
      have hevolves :=
        (Job.forward session.interpreter.host (fuel + 1)
        (.input session.scope stmts) _).of_state? hran
      have hconsole :=
        (Job.withinLimit_invariant _).holds_of_state? trivial h.state.console hran
      exact ⟨h.state.evolves hevolves h.inside.symm hsane hconsole, hscope, h.inside⟩

theorem after_orderly (h : session.Orderly) {us : List Use}
    (hafter : session.after us = some session') : session'.Orderly :=
  holds_after (fun _ _ _ hs hended => use_orderly hs hended) h hafter

end Session

/-! ## Names of the outermost scope -/

section Outermost

variable {t : Scopes Value} {sc : Scope Value}

theorem Scopes.get?_outermost (h : t.scopes[globalScope]? = some sc)
    (hparent : sc.parent = none) (name : String) :
    t.get? globalScope name = sc.bindings.get? name := by
  rw [get?_eq_findSome?, chain_of_some h, hparent]
  simp [bindings, h]

/-- A new scope inside the outermost one sees what that one binds. -/
theorem Scopes.get?_child_outermost
    (h : t.scopes[globalScope]? = some sc) (hparent : sc.parent = none) (name : String) :
    (t.child globalScope).2.get? t.size name = sc.bindings.get? name := by
  have hsize : globalScope < t.size := (Array.getElem?_eq_some_iff.mp h).1
  have hnew : (t.child globalScope).2.scopes[t.size]? =
      some ⟨.empty, some globalScope, t.rootOf globalScope⟩ := by
    simp [child, size]
  have hold : (t.child globalScope).2.scopes[globalScope]? = some sc := by
    have hne : globalScope ≠ t.scopes.size := Nat.ne_of_lt hsize
    simp [child, Array.getElem?_push, hne, h]
  rw [get?_eq_findSome?, chain_of_some hnew]
  simp only [Option.elim_some, if_pos hsize]
  rw [chain_of_some hold, hparent]
  simp [bindings, hnew, hold, Bindings.get?, Bindings.empty]

end Outermost

namespace State.Orderly

variable {s : State}

theorem get?_child (h : s.Orderly) (name : String) :
    (s.scopes.child globalScope).2.get? s.scopes.size name =
      s.scopes.get? globalScope name := by
  obtain ⟨sc, hsc, hparent, -⟩ := h.outermost
  rw [Scopes.get?_child_outermost hsc hparent, Scopes.get?_outermost hsc hparent]

/-- The two names have a value. -/
theorem exists_value (h : s.Orderly) {name : String}
    (hname : name ∈ [dispatcherName, factoryName]) :
    ∃ v, s.scopes.get? globalScope name = some v := by
  obtain ⟨sc, hsc, hparent, hnames⟩ := h.outermost
  rw [← hnames, ← Bindings.contains_iff_mem_names] at hname
  rw [Scopes.get?_outermost hsc hparent]
  exact Option.isSome_iff_exists.mp hname

end State.Orderly

/-- The names of the outermost scope mean what they meant before anything ran. -/
def Interpreter.Intact (i : Interpreter) : Prop :=
  i.global? dispatcherName = some .dispatcher ∧ i.global? factoryName = some .factory

/-- Then the outermost scope is what it was before anything ran. -/
theorem Interpreter.Intact.outermost_eq {i : Interpreter} (h : i.Intact)
    (hi : i.state.Orderly) :
    i.state.scopes.scopes[globalScope]? = some Scope.initial := by
  obtain ⟨⟨⟨entries⟩, parent, root⟩, hsc, hparent, hnames⟩ := hi.outermost
  obtain ⟨hthis, hnew⟩ := h
  rw [Interpreter.global?, Scopes.get?_outermost hsc hparent] at hthis hnew
  obtain rfl : parent = none := hparent
  obtain rfl : root = globalScope := by
    rcases hi.sane.1.linked globalScope _ hsc with ⟨-, hroot⟩ | ⟨outer, houter, -⟩
    · exact hroot
    · cases houter
  match entries, hnames with
  | [(_, v), (_, w)], hnames =>
    cases hnames
    obtain rfl : v = .dispatcher := Option.some.inj hthis
    obtain rfl : w = .factory := Option.some.inj hnew
    exact hsc

/-! ## Out of reach -/

/-- The outermost scope leads nowhere else. -/
theorem State.closed_outermost {s : State}
    (h : s.scopes.scopes[globalScope]? = some Scope.initial) :
    s.Closed (· = ⟨.scope, globalScope⟩) := by
  have hitem : s.item? ⟨.scope, globalScope⟩ = some (.scope .initial) := by
    rw [State.item?_scope, h]
    rfl
  refine ⟨?_, ?_, ?_⟩
  · rintro loc rfl
    exact Option.isSome_iff_exists.mpr ⟨_, hitem⟩
  · rintro a b rfl ⟨x, hx, hrefers⟩
    rw [hitem] at hx
    cases hx
    rcases hrefers with ⟨parent, hparent, -⟩ | ⟨name, v, hv, hloc⟩
    · cases hparent
    · rcases Scope.get?_initial hv with rfl | rfl <;> cases hloc
  · rintro id hid
    cases hid
    simp [Scopes.rootOf, h, Scope.initial]

namespace Interpreter

variable {i : Interpreter}

/-- A fresh interpreter with the functions and the rest of the console of the given
one. -/
def renewed (i : Interpreter) (listing : Listing) : Interpreter :=
  ⟨i.settings, i.files, listing,
    { State.initial i.state.console.rest with functions := i.state.functions }⟩

theorem renewed_orderly (i : Interpreter) (listing : Listing) :
    (i.renewed listing).state.Orderly :=
  ⟨(State.initial_sane i.state.console.rest).of_eq rfl rfl,
      ⟨.initial, rfl, rfl, rfl⟩, rfl,
    Console.withinLimit_ofLines _ _⟩

theorem renewed_intact (i : Interpreter) (listing : Listing) :
    (i.renewed listing).Intact := by
  have hscope : (i.renewed listing).state.scopes.scopes[globalScope]? = some .initial :=
    rfl
  exact ⟨Scopes.get?_outermost hscope rfl dispatcherName,
    Scopes.get?_outermost hscope rfl factoryName⟩

/-- An interpreter whose outermost scope is intact matches the renewed one. -/
theorem Intact.matches_renewed (h : i.Intact) (hi : i.state.Orderly) (listing : Listing) :
    i.Matches i.state.console.output (.identity (· = ⟨.scope, globalScope⟩))
      (i.renewed listing) where
  settings := rfl
  files := rfl
  plain _ hhidden := hhidden
  outermost := ⟨rfl, rfl⟩
  related := by
    have houtermost := h.outermost_eq hi
    have hlinked := (State.initial_sane i.state.console.rest).1.linked
    refine (State.closed_outermost houtermost).related hi.sane.1.linked hlinked ?_ rfl
      (Console.continuing_rest hi.console).symm hi.depth
    rintro loc rfl
    rw [State.item?_scope i.state, houtermost]
    rfl

end Interpreter

/-! ## What tells sessions apart -/

namespace Session

/-- The name that an input consists of. -/
def Input.name? : Input → Option String
  | .statements [.expr (.name name _) _] => some name
  | _ => none

theorem read_of_name? {name : String}
    (h : (read name).toOption.bind Input.name? = some name) :
    ∃ span span', read name = .ok (.statements [.expr (.name name span) span']) := by
  obtain ⟨asked, hread, hname⟩ := Option.bind_eq_some_iff.mp h
  unfold Input.name? at hname
  split at hname
  next span span' =>
    cases hname
    exact ⟨span, span', except_eq_ok_of_toOption hread⟩
  next => cases hname

/-- A new session shows what a name of the outermost scope means. -/
theorem transcript_name
    {i : Interpreter} (hi : i.state.Orderly) {name : String} {v : Value}
    (hinput : (read name).toOption.bind Input.name? = some name)
    (hv : i.global? name = some v) (listing : Listing) :
    (Session.new i).transcript [(listing, .eval 1 name)] =
      [some ⟨.value (some (v.kind, i.state.store.render v)),
        i.state.console.since i.state.console⟩] := by
  obtain ⟨span, span', hread⟩ := read_of_name? hinput
  have hlookup : Run.lookup listing i.state.scopes.size name (opened i.state) =
      .done v (opened i.state) := by
    have hget : (opened i.state).scopes.get? i.state.scopes.size name = some v :=
      (hi.get?_child name).trans hv
    simp only [Run.lookup, hget]
  have heval : HandleScript.eval (i.relisted listing).host 1 i.state.scopes.size
      (.name name span) (opened i.state) =
      .done v (opened i.state) := by
    simp only [HandleScript.eval, Run.located, Computation.adjustFailure,
      Interpreter.host, Interpreter.relisted, hlookup]
  have hran : evalStatements (i.relisted listing).host 1 i.state.scopes.size none
      [.expr (.name name span) span']
      (opened i.state) = .done (some v) (opened i.state) :=
    Computation.bind_of_done heval _
  have huse : ((Session.new i).relisted listing).use (.eval 1 name) =
      .done (some v) ((Session.new i).relisted listing) :=
    (Does.use_eq (.ran hread)).trans (congrArg (Outcome.lift _ _) hran)
  simp only [transcript, huse]
  rfl

/-- The dispatcher is the only value of its kind, and so is the factory. -/
theorem eq_of_kind_eq {v w : Value} (hw : w = .dispatcher ∨ w = .factory)
    (h : v.kind = w.kind) : v = w := by
  rcases hw with rfl | rfl <;> cases v <;> first | rfl | cases h

/-- New sessions that show the same when they are asked for a name have the same
dispatcher or factory there. -/
theorem global?_eq_of_transcript_eq
    {i j : Interpreter} (hi : i.state.Orderly) (hj : j.state.Orderly) {name : String}
    {w : Value} (hinput : (read name).toOption.bind Input.name? = some name)
    (hname : name ∈ [dispatcherName, factoryName]) (hw : w = .dispatcher ∨ w = .factory)
    (hglobal : j.global? name = some w)
    (h : ∀ us, (Session.new i).transcript us = (Session.new j).transcript us) :
    i.global? name = some w := by
  obtain ⟨v, hv⟩ := hi.exists_value hname
  have hsame := h [(.asBound, .eval 1 name)]
  rw [transcript_name hi hinput hv, transcript_name hj hinput hglobal] at hsame
  simp only [List.cons.injEq, Option.some.injEq, Answer.mk.injEq,
    Ending.value.injEq, Prod.mk.injEq] at hsame
  obtain rfl := eq_of_kind_eq hw hsame.1.1.1
  exact hv

end Session

/-! ## Fresh interpreters with the same functions -/

theorem ControlFlow.checkFunctions_append
    {fs gs : List Function} (hf : checkFunctions fs = .ok ())
    (hg : checkFunctions gs = .ok ()) : checkFunctions (fs ++ gs) = .ok () := by
  induction fs with
  | nil => exact hg
  | cons f fs ih =>
      obtain ⟨hfirst, hrest⟩ := verdict_bind_eq_ok hf
      rw [List.cons_append, checkFunctions, hfirst]
      exact ih hrest

namespace Session

variable {session session' : Session}

/-- What a use declares passes the check. -/
theorem declares_checked (session : Session) (u : Use) :
    ControlFlow.checkFunctions (session.declares u) = .ok () := by
  have hdoes := session.use_does u
  generalize houtcome : session.use u = outcome at hdoes
  cases hdoes with
  | reset => rfl
  | refused _ =>
      rw [declares_of_failed houtcome]
      rfl
  | loaded hread hchecked =>
      rw [declares_of_loaded hread houtcome]
      exact except_mapError_eq_ok hchecked
  | ran hread =>
      rw [declares_of_statements hread]
      rfl

theorem declaresAll_checked (session : Session) (us : List Use) :
    ControlFlow.checkFunctions (session.declaresAll us) = .ok () := by
  induction us generalizing session with
  | nil => rfl
  | cons u us ih =>
      rw [declaresAll]
      refine ControlFlow.checkFunctions_append (session.declares_checked u) ?_
      cases (session.use u).state? with
      | none => rfl
      | some next => exact ih next

/-- A use leaves the settings and the files. -/
theorem use_settings {u : Use} (h : (session.use u).state? = some session') :
    session'.interpreter.settings = session.interpreter.settings ∧
      session'.interpreter.files = session.interpreter.files := by
  have hdoes := session.use_does u
  generalize session.use u = reply at hdoes h
  cases hdoes with
  | reset | refused _ | loaded _ _ =>
      cases h
      exact ⟨rfl, rfl⟩
  | ran _ =>
      rw [Outcome.state?_lift] at h
      obtain ⟨s, -, rfl⟩ := Option.map_eq_some_iff.mp h
      exact ⟨rfl, rfl⟩

theorem after_settings {us : List Use} (h : session.after us = some session') :
    session'.interpreter.settings = session.interpreter.settings ∧
      session'.interpreter.files = session.interpreter.files := by
  let same (next : Session) : Prop :=
    next.interpreter.settings = session.interpreter.settings ∧
      next.interpreter.files = session.interpreter.files
  have hkept : ∀ next u next', same next → (next.use u).state? = some next' →
      same next' := by
    intro next u next' hnext hended
    obtain ⟨hsettings, hfiles⟩ := use_settings hended
    exact ⟨hsettings.trans hnext.1, hfiles.trans hnext.2⟩
  exact holds_after hkept ⟨rfl, rfl⟩ h

/-- What a history on a fresh interpreter has declared can be loaded on another one. -/
theorem load_renewed
    {settings : Settings} {files : Files} {listing : Listing} {console : Console}
    {us : List Use}
    (h : (Session.new (.fresh settings files listing console)).after us = some session)
    (listing' : Listing) :
    (Interpreter.fresh settings files listing' session.state.console.rest).load
      ⟨(Session.new (.fresh settings files listing console)).declaresAll us⟩ =
        .done () (session.interpreter.renewed listing') := by
  obtain ⟨hsettings, hfiles⟩ := after_settings h
  have hcheck : Program.check
      ⟨(Session.new (.fresh settings files listing console)).declaresAll us⟩ =
      .ok () := by
    rw [Program.check, declaresAll_checked]
    rfl
  rw [Interpreter.load_of_ok hcheck, Interpreter.renewed,
    after_functions h, hsettings, hfiles]
  rfl

/-! ## Histories -/

/-- The session after some uses, each with the candidates listed in its own way, if all of
them end. -/
def afterListed (session : Session) : List (Listing × Use) → Option Session
  | [] => some session
  | (listing, u) :: us =>
    ((session.relisted listing).use u).state?.bind fun next => next.afterListed us

theorem after_relisted (session : Session) (listing : Listing) (us : List Use) :
    (session.relisted listing).after us = (session.after us).map fun next =>
      next.relisted listing := by
  induction us generalizing session with
  | nil => rfl
  | cons u us ih =>
      rw [after, after, (session.use_relists listing u).state?_eq]
      cases (session.use u).state? with
      | none => rfl
      | some next => exact ih next

/-- A history leads to the same session however candidates are listed, but for how they
are listed then. -/
theorem exists_after_of_afterListed {us : List (Listing × Use)}
    (h : session.afterListed us = some session') :
    ∃ next listing, session.after (us.map Prod.snd) = some next ∧
      session' = next.relisted listing := by
  induction us generalizing session with
  | nil =>
      cases h
      exact ⟨_, session'.interpreter.listing, rfl, rfl⟩
  | cons step us ih =>
      obtain ⟨listing, u⟩ := step
      obtain ⟨_, hmid, hrest⟩ := Option.bind_eq_some_iff.mp h
      rw [(session.use_relists listing u).state?_eq] at hmid
      obtain ⟨mid, hused, rfl⟩ := Option.map_eq_some_iff.mp hmid
      obtain ⟨_, listing', hafter, rfl⟩ := ih hrest
      rw [after_relisted] at hafter
      obtain ⟨next, hnext, rfl⟩ := Option.map_eq_some_iff.mp hafter
      exact ⟨next, listing', Option.bind_eq_some_iff.mpr ⟨mid, hused, hnext⟩, rfl⟩

/-- After any history of a session on a fresh interpreter, take another fresh interpreter
with the rest of the console and load the functions that the history has declared. Once
the session is reset, any further inputs and resets show the same on it as on a new
session on that interpreter, step by step: the same values, errors and output. This is so
exactly if the history has left the dispatcher and the factory under their names.
Candidates for hints may be listed in any way, and in another one with every use; where
the two sessions list them differently, their errors may differ in the hint for an unknown
name, and in nothing else. -/
theorem reset_is_fresh_iff_globals_kept
    (settings : Settings) (files : Files) (listing listing' : Listing)
    (lines : List InputLine) (limit : Option Nat) (us : List (Listing × Use))
    (session : Session)
    (h : (Session.new (.fresh settings files listing (.ofLines lines limit))).afterListed
      us = some session) :
    ∃ i, (Interpreter.fresh settings files listing' session.state.console.rest).load
        ⟨(Session.new (.fresh settings files listing (.ofLines lines limit))).declaresAll
            (us.map Prod.snd)⟩ =
          .done () i ∧
      i.state.functions = session.state.functions ∧
      ((∀ later, session.reset.transcript later = (Session.new i).transcript later) ↔
        session.interpreter.global? dispatcherName = some .dispatcher ∧
          session.interpreter.global? factoryName = some .factory) ∧
      (session.interpreter.global? dispatcherName = some .dispatcher ∧
          session.interpreter.global? factoryName = some .factory →
        ∀ later later', later.map Prod.snd = later'.map Prod.snd →
          List.Forall₂ (Option.Rel Answer.Rehinted) (session.reset.transcript later)
            ((Session.new i).transcript later')) := by
  obtain ⟨next, last, hafter, rfl⟩ := exists_after_of_afterListed h
  have hnext : next.Orderly :=
    after_orderly (new_orderly
      (State.initial_orderly (Console.withinLimit_ofLines lines limit))) hafter
  have hrelisted : ∀ later, (next.relisted last).reset.transcript later =
      next.reset.transcript later :=
    next.reset.transcript_relisted last
  have hsame : next.interpreter.Intact →
      ∀ later, next.reset.transcript later =
        (Session.new (next.interpreter.renewed listing')).transcript later :=
    fun hintact =>
      (alike_new (hintact.matches_renewed hnext.state listing')).transcript_eq
  refine ⟨next.interpreter.renewed listing', load_renewed hafter listing', rfl,
    ⟨?_, ?_⟩, ?_⟩
  · -- Asked for either name, the two sessions show the same kind of value.
    intro hshown
    simp only [hrelisted] at hshown
    have hrenewed := next.interpreter.renewed_intact listing'
    have horderly := next.interpreter.renewed_orderly listing'
    constructor
    · exact global?_eq_of_transcript_eq hnext.state horderly
          (by decide +kernel) (by decide)
        (.inl rfl) hrenewed.1 hshown
    · exact global?_eq_of_transcript_eq hnext.state horderly
          (by decide +kernel) (by decide)
        (.inr rfl) hrenewed.2 hshown
  · intro hintact later
    rw [hrelisted]
    exact hsame hintact later
  · intro hintact later later' huses
    rw [hrelisted, hsame hintact]
    exact transcript_rehinted _ huses

/-- A function is declared, a variable and output are made, an input fails and one is
read: nothing of this is left, and the function and the second line of input are. -/
theorem reset_is_fresh_iff_globals_kept_variables :
    let start := Session.new
      (.fresh {} .empty .asBound (.ofLines (Console.linesOfText "a\nb\n") (some 9)))
    let turned : Listing := ⟨List.reverse, List.reverse_perm⟩
    let us : List (Listing × Use) :=
        [(.asBound, .eval 9 "fun f() \x7b return 2 \x7d"), (turned, .eval 9 "x = f()"),
      (.asBound, .eval 9 "print(x)"), (turned, .eval 9 "y"), (turned, .eval 9 "readln()")]
    ∃ session i, start.afterListed us = some session ∧
      (Interpreter.fresh {} .empty turned session.state.console.rest).load
          ⟨start.declaresAll (us.map Prod.snd)⟩ =
        .done () i ∧
      i.state.functions = session.state.functions ∧
      ∀ later, session.reset.transcript later = (Session.new i).transcript later := by
  intro start turned us
  have hkept : (start.afterListed us).map (fun session =>
      (session.interpreter.global? dispatcherName,
          session.interpreter.global? factoryName)) =
        some (some .dispatcher, some .factory) := by
    decide +kernel
  obtain ⟨session, hafter, hglobals⟩ := Option.map_eq_some_iff.mp hkept
  obtain ⟨hthis, hnew⟩ := Prod.mk.inj hglobals
  obtain ⟨i, hload, hfunctions, hsame, -⟩ :=
    reset_is_fresh_iff_globals_kept {} .empty .asBound turned _ _ us session hafter
  exact ⟨session, i, hafter, hload, hfunctions, hsame.mpr ⟨hthis, hnew⟩⟩

/-- What the value of an answer shows, if it has one. -/
def Answer.value? (answer : Answer) : Option (Kind × String) :=
  match answer.ending with
  | .value shown => shown
  | _ => none

/-- An assignment to `new` reaches the outermost scope and outlives a reset: after it, the
session shows a number where a new session shows the factory. -/
theorem reset_keeps_rebound_factory :
    let start := Session.new (.fresh {} .empty .asBound (.ofLines [] none))
    let us : List Use := [.eval 9 "new = 1"]
    let asked : List (Listing × Use) := [(.asBound, .eval 9 "new")]
    ∃ session i, start.after us = some session ∧
      (Interpreter.fresh {} .empty .asBound session.state.console.rest).load
        ⟨start.declaresAll us⟩ = .done () i ∧
      session.reset.transcript asked ≠ (Session.new i).transcript asked := by
  intro start us asked
  let shown (session : Session) : List (Option (Kind × String)) :=
    (session.transcript asked).map fun answer => answer.bind Answer.value?
  have hdiffer : (start.after us).map (fun session =>
      decide (shown session.reset = shown
        (Session.new (session.interpreter.renewed .asBound)))) = some false := by
    decide +kernel
  obtain ⟨session, hafter, hshown⟩ := Option.map_eq_some_iff.mp hdiffer
  refine ⟨session, _, hafter, load_renewed hafter .asBound, fun hsame => ?_⟩
  exact of_decide_eq_false hshown (congrArg (List.map _) hsame)

end Session

end HandleScript
