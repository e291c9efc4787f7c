import HandleScript.Proofs.Parser.Nesting

/-!
# Loop exits that stand in no loop

The control-flow check goes through the code and knows no more of its surroundings than
whether a loop of the same function stands around. Here the surroundings are a path
through the code, from an exit outwards, and an exit strays when the path meets a function
before it meets a loop, or no loop at all. The code has its exits in the order of its
parts, and the check reports the first one that strays. In parsed code this is also the
order of the source text: the exits are the words `break` and `continue` among the tokens,
one by one, whatever `for` loops are made into.
-/

namespace HandleScript

/-- The statement that an exit is. -/
def LoopExit.stmt : LoopExit → Span → Stmt
  | leave, span => .leave span
  | skip, span => .skip span

/-! ## Surroundings -/

namespace Code

/-- A `while`. -/
def IsLoop : Code → Prop
  | stmt (.loop _ _ _) => True
  | _ => False

/-- A function declaration or a function literal. -/
def IsFunction : Code → Prop
  | function _ => True
  | expr (.lambda _) => True
  | _ => False

/-- What stands around a part of the code, from the inside out. -/
inductive Surrounds : (path : List Code) → (part whole : Code) → Prop
  | self (c : Code) : Surrounds [] c c
  | inside {path : List Code} {part c d : Code} (h : Surrounds path part d)
      (hd : d ∈ c.parts) :
      Surrounds (path ++ [c]) part c

/-- A loop stands on the path, and no function between it and the start of the path. -/
def MeetsLoop (path : List Code) : Prop :=
  ∃ inner loop outer, path = inner ++ loop :: outer ∧ loop.IsLoop ∧
    ∀ c ∈ inner, ¬ c.IsFunction

/-- The exit stands in the code, and in no loop of its own function. -/
def Strays (codes : List Code) (exit : Located LoopExit) : Prop :=
  ∃ c ∈ codes, ∃ path, Surrounds path (.stmt (exit.node.stmt exit.span)) c ∧
    ¬ MeetsLoop path

end Code

/-- The verdict on the code is that every exit stands in a loop of its own function; or
else it names the exit of those that do not which starts first in the source. -/
structure ExactVerdict (codes : List Code) (verdict : Except CompileError Unit) :
    Prop where
  accepts : verdict = .ok () ↔ ∀ c ∈ codes, ∀ path exit span,
    Code.Surrounds path (.stmt (LoopExit.stmt exit span)) c → Code.MeetsLoop path
  reports : ∀ e, verdict = .error e ↔ ∃ exit, e = .controlFlow exit ∧
      Code.Strays codes exit ∧
    ∀ other, Code.Strays codes other → other = exit ∨ exit.span.start < other.span.start

/-! ## The exits of the code in order -/

/-- An exit, and whether a loop of its own function stands around it. -/
structure PlacedExit where
  exit : Located LoopExit
  covered : Bool

namespace Code

theorem sizeOf_lt_of_mem_map
    {α : Type} [SizeOf α] {wrap : α → Code} (hwrap : ∀ a, sizeOf (wrap a) = 1 + sizeOf a)
    {xs : List α} {d : Code} (h : d ∈ xs.map wrap) : sizeOf d < sizeOf xs + 1 := by
  obtain ⟨x, hx, rfl⟩ := List.mem_map.mp h
  have hlt := List.sizeOf_lt_of_mem hx
  rw [hwrap]
  omega

theorem sizeOf_lt_of_mem_arms {arms : Arms} {d : Code} (h : d ∈ arms.parts) :
    sizeOf d < sizeOf arms + 1 := by
  have hbody {body : List Stmt} := @sizeOf_lt_of_mem_map _ _ _ stmt.sizeOf_spec body d
  match arms, h with
  | .otherwise body, h => grind [Arms.parts]
  | .test condition body rest, h =>
      have hrest := @sizeOf_lt_of_mem_arms rest d
      grind [Arms.parts]

theorem sizeOf_lt_of_mem_parts {c d : Code} (h : d ∈ c.parts) : sizeOf d < sizeOf c := by
  have hnames {ws : List (Located String)} :=
    @sizeOf_lt_of_mem_map _ _ _ name.sizeOf_spec ws d
  have hexprs {es : List Expr} := @sizeOf_lt_of_mem_map _ _ _ expr.sizeOf_spec es d
  have hstmts {body : List Stmt} := @sizeOf_lt_of_mem_map _ _ _ stmt.sizeOf_spec body d
  have harms {arms : Arms} := @sizeOf_lt_of_mem_arms arms d
  have hfunction {f : Function} (h : d ∈ f.parts) : sizeOf d < sizeOf f + 1 := by
    cases f
    grind [Function.parts]
  cases c with
  | name w => cases h
  | function f => grind [parts]
  | expr e => cases e <;> grind [parts]
  | stmt s =>
      cases s with
      | giveBack value span => cases value <;> grind [parts]
      | _ => grind [parts]

/-- The exit that a piece of code is itself. -/
def ownExits (covered : Bool) : Code → List PlacedExit
  | stmt (.leave span) => [⟨⟨.leave, span⟩, covered⟩]
  | stmt (.skip span) => [⟨⟨.skip, span⟩, covered⟩]
  | _ => []

/-- Whether a loop of their own function stands around the parts of the code, when
`covered` tells it of the code. -/
def coversParts (covered : Bool) : Code → Bool
  | stmt (.loop _ _ _) => true
  | function _ => false
  | expr (.lambda _) => false
  | _ => covered

/-- The exits of the code in the order of its parts. -/
def exits (covered : Bool) (c : Code) : List PlacedExit :=
  c.ownExits covered ++ c.parts.attach.flatMap fun d => d.1.exits (c.coversParts covered)
termination_by c
decreasing_by exact sizeOf_lt_of_mem_parts d.2

/-- The exits of code that stands side by side. -/
def exitsAll (covered : Bool) (codes : List Code) : List PlacedExit :=
  codes.flatMap (exits covered)

theorem exits_eq (covered : Bool) (c : Code) :
    c.exits covered = c.ownExits covered ++ exitsAll (c.coversParts covered) c.parts := by
  rw [exits, exitsAll, List.flatMap_subtype fun _ _ => rfl, List.unattach_attach]

@[simp] theorem exitsAll_nil (covered : Bool) : exitsAll covered [] = [] :=
  rfl

@[simp] theorem exitsAll_cons (covered : Bool) (c : Code) (codes : List Code) :
    exitsAll covered (c :: codes) = c.exits covered ++ exitsAll covered codes :=
  rfl

@[simp] theorem exitsAll_append (covered : Bool) (codes codes' : List Code) :
    exitsAll covered (codes ++ codes') = exitsAll covered codes ++
      exitsAll covered codes' :=
  List.flatMap_append

@[simp] theorem exits_name (covered : Bool) (w : Located String) :
    (name w).exits covered = [] := by
  rw [exits_eq]
  rfl

@[simp] theorem exitsAll_names (covered : Bool) (ws : List (Located String)) :
    exitsAll covered (ws.map name) = [] := by
  induction ws with
  | nil => rfl
  | cons w ws ih => simp [ih]

/-! ## Exits and their surroundings -/

/-- Whether a loop covers what stands inside of the path. -/
def covers (covered : Bool) (path : List Code) : Bool :=
  path.foldr (fun c covered => c.coversParts covered) covered

theorem meetsLoop_cons {c : Code} {path : List Code} :
    MeetsLoop (c :: path) ↔ c.IsLoop ∨ ¬ c.IsFunction ∧ MeetsLoop path := by
  constructor
  · rintro ⟨inner, loop, outer, hpath, hloop, hinner⟩
    cases inner with
    | nil =>
        cases hpath
        exact .inl hloop
    | cons d inner =>
        cases hpath
        obtain ⟨hfirst, hrest⟩ := List.forall_mem_cons.mp hinner
        exact .inr ⟨hfirst, inner, loop, outer, rfl, hloop, hrest⟩
  · rintro (hloop | ⟨hfirst, inner, loop, outer, rfl, hloop, hinner⟩)
    · exact ⟨[], c, path, rfl, hloop, fun _ hd => nomatch hd⟩
    · exact ⟨c :: inner, loop, outer, rfl, hloop,
        List.forall_mem_cons.mpr ⟨hfirst, hinner⟩⟩

theorem coversParts_eq_true {covered : Bool} {c : Code} :
    c.coversParts covered = true ↔ c.IsLoop ∨ ¬ c.IsFunction ∧ covered = true := by
  fun_cases coversParts covered c <;> simp_all [IsLoop, IsFunction]

theorem covers_eq_true {path : List Code} :
    covers false path = true ↔ MeetsLoop path := by
  induction path with
  | nil => simp [covers, MeetsLoop]
  | cons c path ih =>
      rw [covers, List.foldr_cons, coversParts_eq_true, meetsLoop_cons, ← ih, covers]

theorem covers_append_singleton (covered : Bool) (path : List Code) (c : Code) :
    covers covered (path ++ [c]) = covers (c.coversParts covered) path := by
  rw [covers, List.foldr_append]
  rfl

theorem mem_ownExits_iff {covered : Bool} {c : Code} {p : PlacedExit} :
    p ∈ c.ownExits covered ↔ c = .stmt (p.exit.node.stmt p.exit.span) ∧
      p.covered = covered := by
  obtain ⟨⟨exit, span⟩, b⟩ := p
  cases exit <;> fun_cases ownExits covered c <;> simp_all [LoopExit.stmt, eq_comm]

theorem Surrounds.mem_exits
    {path : List Code} {part c : Code} {exit : LoopExit} {span : Span}
    (h : Surrounds path part c) (hpart : part = .stmt (exit.stmt span)) (covered : Bool) :
    ⟨⟨exit, span⟩, covers covered path⟩ ∈ c.exits covered := by
  induction h generalizing covered with
  | self c =>
      rw [exits_eq, List.mem_append]
      exact .inl (mem_ownExits_iff.mpr ⟨hpart, rfl⟩)
  | @inside path part c d h hd ih =>
      rw [exits_eq, List.mem_append, covers_append_singleton]
      exact .inr (List.mem_flatMap.mpr ⟨d, hd, ih hpart _⟩)

theorem exists_surrounds_of_mem_exits
    {covered : Bool} {c : Code} {p : PlacedExit} (h : p ∈ c.exits covered) :
    ∃ path, Surrounds path (.stmt (p.exit.node.stmt p.exit.span)) c ∧
      p.covered = covers covered path := by
  rw [exits_eq, List.mem_append] at h
  rcases h with hown | hparts
  · obtain ⟨rfl, hcovered⟩ := mem_ownExits_iff.mp hown
    exact ⟨[], .self _, hcovered⟩
  · obtain ⟨d, hd, hp⟩ := List.mem_flatMap.mp hparts
    obtain ⟨path, hpath, hcovered⟩ := exists_surrounds_of_mem_exits hp
    exact ⟨path ++ [c], .inside hpath hd, by rw [covers_append_singleton, hcovered]⟩
termination_by c
decreasing_by exact sizeOf_lt_of_mem_parts hd

/-- The exits of the code that no loop covers are those that stray. -/
theorem strays_iff {codes : List Code} {exit : Located LoopExit} :
    Strays codes exit ↔ ⟨exit, false⟩ ∈ exitsAll false codes := by
  constructor
  · rintro ⟨c, hc, path, hpath, hstray⟩
    refine List.mem_flatMap.mpr ⟨c, hc, ?_⟩
    have hmem := hpath.mem_exits rfl false
    rwa [Bool.eq_false_iff.mpr (mt covers_eq_true.mp hstray)] at hmem
  · intro hmem
    obtain ⟨c, hc, hexit⟩ := List.mem_flatMap.mp hmem
    obtain ⟨path, hpath, hcovered⟩ := exists_surrounds_of_mem_exits hexit
    exact ⟨c, hc, path, hpath, fun hmeets => nomatch hcovered.trans
      (covers_eq_true.mpr hmeets)⟩

end Code

/-! ## What the check reports -/

namespace ControlFlow

/-- The verdict on exits in order: the first one that no loop covers is reported. -/
def firstStray : List PlacedExit → Verdict
  | [] => .ok ()
  | p :: ps => if p.covered then firstStray ps else .error p.exit

@[simp] theorem firstStray_append (ps qs : List PlacedExit) :
    firstStray (ps ++ qs) = (do firstStray ps; firstStray qs) := by
  induction ps with
  | nil => rfl
  | cons p ps ih =>
      rw [List.cons_append, firstStray, firstStray, ih]
      split <;> rfl

theorem firstStray_eq_ok {ps : List PlacedExit} :
    firstStray ps = .ok () ↔ ∀ p ∈ ps, p.covered = true := by
  induction ps with
  | nil => simp [firstStray]
  | cons p ps ih =>
      rw [firstStray, List.forall_mem_cons, ← ih]
      split <;> simp_all

/-- When exits stand in the order of the source, the one that is reported starts first. -/
theorem firstStray_eq_error
    {ps : List PlacedExit}
    (hps : ps.Pairwise fun p q => p.exit.span.start < q.exit.span.start)
    {exit : Located LoopExit} :
    firstStray ps = .error exit ↔ ⟨exit, false⟩ ∈ ps ∧
      ∀ other, ⟨other, false⟩ ∈ ps → other = exit ∨
        exit.span.start < other.span.start := by
  induction ps with
  | nil => simp [firstStray]
  | cons p ps ih =>
      obtain ⟨hfirst, hrest⟩ := List.pairwise_cons.mp hps
      obtain ⟨here, covered⟩ := p
      cases covered with
      | true => simpa [firstStray] using ih hrest
      | false =>
          have herror : firstStray (⟨here, false⟩ :: ps) = .error here := rfl
          rw [herror]
          constructor
          · rintro ⟨⟩
            refine ⟨List.mem_cons_self, fun other hother => ?_⟩
            rcases List.mem_cons.mp hother with heq | hlater
            · exact .inl (congrArg PlacedExit.exit heq)
            · exact .inr (hfirst _ hlater)
          · rintro ⟨hmem, hleast⟩
            rcases List.mem_cons.mp hmem with heq | hlater
            · cases heq
              rfl
            · have hbefore := hfirst _ hlater
              rcases hleast here List.mem_cons_self with rfl | hafter
              · exact absurd hbefore (Nat.lt_irrefl _)
              · exact absurd hbefore (Nat.lt_asymm hafter)

mutual

theorem checkExpr_eq (covered : Bool) (e : Expr) :
    checkExpr e = firstStray ((Code.expr e).exits covered) := by
  rw [Code.exits_eq]
  match e with
  | .call receiver method args span =>
      rw [checkExpr, checkExpr_eq covered receiver,
        checkExprs_eq covered args, ← firstStray_append]
      rfl
  | .lambda ⟨w, params, body, span⟩ =>
      rw [checkExpr, checkStmts_eq]
      simp [Code.ownExits, Code.coversParts, Code.parts, Function.parts]
  | .name text span => rfl
  | .literal value span => rfl
termination_by structural e

theorem checkExprs_eq (covered : Bool) (es : List Expr) :
    checkExprs es = firstStray (Code.exitsAll covered (es.map .expr)) := by
  match es with
  | [] => rfl
  | e :: es =>
      rw [checkExprs, checkExpr_eq covered e,
        checkExprs_eq covered es, ← firstStray_append]
      rfl
termination_by structural es

theorem checkStmt_eq (covered : Bool) (s : Stmt) :
    checkStmt covered s = firstStray ((Code.stmt s).exits covered) := by
  rw [Code.exits_eq]
  match s with
  | .leave span => rfl
  | .skip span => rfl
  | .branch arms span => exact checkArms_eq covered arms
  | .loop test body span =>
      rw [checkStmt, checkExpr_eq true test, checkStmts_eq true body, ← firstStray_append]
      rfl
  | .declare x value span | .assign x value span | .expr value span |
      .giveBack (some value) span =>
      rw [checkStmt, checkExpr_eq covered value]
      simp [Code.ownExits, Code.coversParts, Code.parts]
  | .giveBack none span => rfl
  | .block body span => exact checkStmts_eq covered body
termination_by structural s

theorem checkStmts_eq (covered : Bool) (stmts : List Stmt) :
    checkStmts covered stmts = firstStray (Code.exitsAll covered (stmts.map .stmt)) := by
  match stmts with
  | [] => rfl
  | s :: rest =>
      rw [checkStmts, checkStmt_eq covered s,
        checkStmts_eq covered rest, ← firstStray_append]
      rfl
termination_by structural stmts

theorem checkArms_eq (covered : Bool) (arms : Arms) :
    checkArms covered arms = firstStray (Code.exitsAll covered arms.parts) := by
  match arms with
  | .done => rfl
  | .otherwise body => exact checkStmts_eq covered body
  | .test test body rest =>
      rw [checkArms, checkExpr_eq covered test, checkStmts_eq covered body,
        checkArms_eq covered rest]
      simp [Arms.parts]
termination_by structural arms

end

theorem checkFunctions_eq (fs : List Function) :
    checkFunctions fs = firstStray (Code.exitsAll false (fs.map .function)) := by
  induction fs with
  | nil => rfl
  | cons f fs ih =>
      rw [checkFunctions, ih, checkStmts_eq, List.map_cons, Code.exitsAll_cons,
        firstStray_append, Code.exits_eq]
      simp [Code.ownExits, Code.coversParts, Code.parts, Function.parts]

end ControlFlow

/-! ## Exits among the tokens -/

/-- The exit that a token is. -/
def exitOf? (t : Located Token) : Option (Located LoopExit) :=
  match t.node with
  | .keyword .leave => some ⟨.leave, t.span⟩
  | .keyword .skip => some ⟨.skip, t.span⟩
  | _ => none

/-- The exits of the code are those among the tokens, in the same order. -/
def ExitsAmong (codes : List Code) (ts : List (Located Token)) : Prop :=
  ∀ covered, (Code.exitsAll covered codes).map PlacedExit.exit = ts.filterMap exitOf?

namespace ExitsAmong

variable {source : String} {codes codes' : List Code} {ts ts' : List (Located Token)}

theorem nil (h : ts.filterMap exitOf? = []) : ExitsAmong [] ts :=
  fun _ => h.symm

theorem append (h : ExitsAmong codes ts) (h' : ExitsAmong codes' ts') :
    ExitsAmong (codes ++ codes') (ts ++ ts') := by
  intro covered
  rw [Code.exitsAll_append, List.map_append, List.filterMap_append, h covered, h' covered]

theorem after (h : ExitsAmong codes ts) (gap : List (Located Token))
    (hgap : gap.filterMap exitOf? = []) : ExitsAmong codes (gap ++ ts) :=
  (nil hgap).append h

theorem enclosed (h : ExitsAmong codes ts) (a b : Located Token) (ha : exitOf? a = none)
    (hb : exitOf? b = none) : ExitsAmong codes (a :: (ts ++ [b])) := by
  intro covered
  simp [h covered, ha, hb]

/-- Code that is no exit itself has the exits of its parts. -/
theorem single {c : Code} (h : ExitsAmong c.parts ts)
    (hown : ∀ covered, c.ownExits covered = []) : ExitsAmong [c] ts := by
  intro covered
  rw [Code.exitsAll_cons, Code.exitsAll_nil, List.append_nil,
    Code.exits_eq, hown, List.nil_append]
  exact h _

theorem exit (e : LoopExit) {span : Span} {t : Located Token}
    (ht : exitOf? t = some ⟨e, span⟩) : ExitsAmong [.stmt (e.stmt span)] [t] := by
  intro covered
  rw [List.filterMap_cons_some ht, Code.exitsAll_cons, Code.exits_eq]
  cases e <;> rfl

/-- An expression is no exit itself. -/
theorem expr {e : Expr} (h : ExitsAmong (Code.expr e).parts ts) :
    ExitsAmong [.expr e] ts :=
  h.single fun _ => rfl

theorem name (w : String) (span : Span) {t : Located Token} (ht : exitOf? t = none) :
    ExitsAmong [.expr (.name w span)] [t] :=
  expr (nil (List.filterMap_cons_none ht))

/-- A loop over elements has the exits of what it goes through and of its body. -/
theorem forBlock {hidden : String} {start : Span} {x : Located String} {iterable : Expr}
    {body : List Stmt} (h : ExitsAmong [.expr iterable] ts)
    (h' : ExitsAmong (body.map .stmt) ts') :
    ExitsAmong ((Parser.forBlock hidden start x iterable body).map .stmt)
      (ts ++ ts') := by
  have hcall (receiver : Expr) (method : String) (span : Span) (covered : Bool) :
      (Code.expr (Parser.impliedCall receiver method span)).exits covered =
        (Code.expr receiver).exits covered := by
    rw [Code.exits_eq]
    exact List.append_nil _
  have hiterator (covered : Bool) :
      (Code.expr (.name hidden start)).exits covered = [] := by
    rw [Code.exits_eq]
    rfl
  have hdeclare (y : Located String) (value : Expr) (span : Span) (covered : Bool) :
      (Code.stmt (.declare y value span)).exits covered =
        (Code.expr value).exits covered := by
    rw [Code.exits_eq]
    simp [Code.ownExits, Code.coversParts, Code.parts]
  intro covered
  rw [List.filterMap_append, ← h covered, ← h' true, ← List.map_append, Parser.forBlock]
  simp only [List.map_cons, List.map_nil, Code.exitsAll_cons, Code.exitsAll_nil,
    List.append_nil, hdeclare, hcall]
  rw [Code.exits_eq _ (.stmt (.loop _ _ _))]
  simp [Code.ownExits, Code.coversParts, Code.parts, hcall, hiterator, hdeclare]

theorem names (ws : List (Located String)) (h : ts.filterMap exitOf? = []) :
    ExitsAmong (ws.map .name) ts := by
  intro covered
  rw [Code.exitsAll_names, h, List.map_nil]

theorem word (w : Located String) {t : Located Token} (ht : exitOf? t = none) :
    ExitsAmong [.name w] [t] :=
  names [w] (List.filterMap_cons_none ht)

end ExitsAmong

theorem Span.Covers.eq {source : String} {span : Span} {t : Located Token}
    (h : span.Covers source [t]) (ht : t.span.LiesIn source) : span = t.span := by
  obtain ⟨first, last, hfirst, hlast, hstart, hstop, hposition⟩ := h
  cases hfirst
  cases hlast
  obtain ⟨-, -, hposition'⟩ := ht.bounds
  rw [hstart, ← hposition'] at hposition
  obtain ⟨hline, hcolumn⟩ := Prod.mk.inj hposition
  cases span
  cases t with
  | mk node place =>
      cases place
      simp_all

section Reading

variable {source : String}

theorem MoreWords.exits {ws : List (Located String)} {ts : List (Located Token)}
    (h : MoreWords ws ts) : ts.filterMap exitOf? = [] := by
  induction h with
  | done => rfl
  | next rest ih => exact ih

theorem Words.exits {ws : List (Located String)} {ts : List (Located Token)}
    (h : Words ws ts) : ts.filterMap exitOf? = [] := by
  cases h with
  | empty => rfl
  | list rest => exact rest.exits

mutual

theorem Expr.ReadOf.exits {e : Expr} {ts : List (Located Token)} :
    e.ReadOf source ts → Laid source ts → ExitsAmong [.expr e] ts
  | .intro rule _, hts => .expr (rule.exits hts)

theorem Expr.Rule.exits {e : Expr} {ts : List (Located Token)} :
    e.Rule source ts → Laid source ts → ExitsAmong (Code.expr e).parts ts
  | .literal value span place, hts =>
      .nil (by cases value with | bool b => cases b <;> rfl | _ => rfl)
  | .name w span place, hts => .nil rfl
  | .bareCall hargs, hts =>
    (ExitsAmong.name dispatcherName _ rfl).append
      ((hargs.exits hts.tail.tail.left).enclosed _ _ rfl rfl)
  | .call hreceiver hargs, hts =>
    (hreceiver.exits hts.left).append
      (((hargs.exits hts.right.tail.tail.tail.left).enclosed _ _ rfl rfl).after
        [_, _] rfl)
  | .lambda rest, hts => (ExitsAmong.word _ rfl).append (rest.exits hts.tail)

theorem Expr.ReadAllOf.exits {args : List Expr} {ts : List (Located Token)} :
    Expr.ReadAllOf source args ts → Laid source ts → ExitsAmong (args.map .expr) ts
  | .empty, _ => .nil rfl
  | .list first rest, hts => (first.exits hts.left).append (rest.exits hts.right)

theorem Expr.MoreReadOf.exits {args : List Expr} {ts : List (Located Token)} :
    Expr.MoreReadOf source args ts → Laid source ts → ExitsAmong (args.map .expr) ts
  | .done, _ => .nil rfl
  | .next first rest, hts =>
      ((first.exits hts.tail.left).append (rest.exits hts.tail.right)).after [_] rfl

theorem Function.RestRule.exits {params : List (Located String)} {body : List Stmt}
    {ts : List (Located Token)} :
    Function.RestRule source params body ts → Laid source ts →
      ExitsAmong (params.map .name ++ body.map .stmt) ts
  | .intro hparams hbody, hts =>
    ((ExitsAmong.names _ hparams.exits).enclosed _ _ rfl rfl).append
      ((hbody.exits hts.right.tail.left).enclosed _ _ rfl rfl)

theorem Stmt.ReadOf.exits {stmt : Stmt} {ts : List (Located Token)} :
    stmt.ReadOf source ts → Laid source ts → ExitsAmong [.stmt stmt] ts
  | .intro rule covers, hts => rule.exits covers hts

theorem Stmt.Rule.exits {stmt : Stmt} {ts : List (Located Token)} :
    stmt.Rule source ts → stmt.span.Covers source ts → Laid source ts →
      ExitsAmong [.stmt stmt] ts
  | .branch harms, _, hts => .single ((harms.exits hts.tail).after [_] rfl) fun _ => rfl
  | .loop htest hbody, _, hts =>
    .single ((((htest.exits hts.tail.left.tail.left).enclosed _ _ rfl rfl).append
      ((hbody.exits hts.tail.right.tail.left).enclosed _ _ rfl rfl)).after [_] rfl)
        fun _ => rfl
  | .each hiterable hbody, _, hts =>
    .single ((ExitsAmong.forBlock
      (((hiterable.exits hts.tail.left.tail.left.tail.tail).after [_, _] rfl).enclosed
        _ _ rfl rfl)
      ((hbody.exits hts.tail.right.tail.left).enclosed _ _ rfl rfl)).after [_] rfl)
        fun _ => rfl
  | .declare hinit, _, hts =>
    .single
      (((ExitsAmong.word _ rfl).append
      ((hinit.exits hts.tail.tail.tail).after [_] rfl)).after [_] rfl) fun _ => rfl
  | .assign hvalue, _, hts =>
    .single ((ExitsAmong.word _ rfl).append ((hvalue.exits hts.tail.tail).after [_] rfl))
      fun _ => rfl
  | .giveBackNothing span place, _, hts => .single (.nil rfl) fun _ => rfl
  | .giveBack hvalue, _, hts =>
      .single ((hvalue.exits hts.tail).after [_] rfl) fun _ => rfl
  | .leave span place, covers, hts =>
    have hspan : span = place := covers.eq (hts.within _ List.mem_cons_self)
    .exit .leave (hspan ▸ rfl)
  | .skip span place, covers, hts =>
    have hspan : span = place := covers.eq (hts.within _ List.mem_cons_self)
    .exit .skip (hspan ▸ rfl)
  | .block hbody, _, hts =>
      .single ((hbody.exits hts.tail.left).enclosed _ _ rfl rfl) fun _ => rfl
  | .expr hvalue, _, hts => .single (hvalue.exits hts) fun _ => rfl

theorem Arms.ReadOf.exits {arms : Arms} {ts : List (Located Token)} :
    arms.ReadOf source ts → Laid source ts → ExitsAmong arms.parts ts
  | .test htest hbody hrest, hts =>
    ((htest.exits hts.left.tail.left).enclosed _ _ rfl rfl).append
      (((hbody.exits hts.right.left.tail.left).enclosed _ _ rfl rfl).append
        (hrest.exits hts.right.right))

theorem Arms.MoreReadOf.exits {arms : Arms} {ts : List (Located Token)} :
    arms.MoreReadOf source ts → Laid source ts → ExitsAmong arms.parts ts
  | .done, _ => .nil rfl
  | .otherwise hbody, hts =>
      ((hbody.exits hts.tail.tail.left).enclosed _ _ rfl rfl).after [_] rfl
  | .elseIf harms, hts => (harms.exits hts.tail.tail).after [_, _] rfl

theorem Stmt.ReadAllOf.exits {stmts : List Stmt} {ts : List (Located Token)} :
    Stmt.ReadAllOf source stmts ts → Laid source ts → ExitsAmong (stmts.map .stmt) ts
  | .nil, _ => .nil rfl
  | .cons first rest, hts => (first.exits hts.left).append (rest.exits hts.right)

end

theorem Function.ReadAllOf.exits {fs : List Function} {ts : List (Located Token)}
    (h : Function.ReadAllOf source fs ts) (hts : Laid source ts) :
    ExitsAmong (fs.map .function) ts := by
  induction h with
  | nil => exact .nil rfl
  | cons rule covers rest ih =>
      cases rule with
      | @intro w params body span place wPlace ts tail =>
          have hparts : ExitsAmong (Code.function ⟨⟨w, wPlace⟩, params, body, span⟩).parts
              ([⟨.keyword .function, place⟩] ++ (⟨.word w, wPlace⟩ :: ts)) :=
            ((ExitsAmong.word _ rfl).append (tail.exits hts.left.tail.tail)).after _ rfl
          exact (hparts.single fun _ => rfl).append (ih hts.right)

end Reading

theorem pairwise_exits {source : String} {tokens : List (Located Token)}
    (h : tokenize source = .ok tokens) :
    (tokens.filterMap exitOf?).Pairwise fun a b => a.span.start < b.span.start := by
  obtain ⟨segments, hpieces, rfl⟩ := Lexer.tokenize_eq_ok_iff.mp h
  have hcovers := hpieces.covers
  have hspan : ∀ {t : Located Token} {exit}, exitOf? t = some exit →
      exit.span = t.span := by
    intro t exit ht
    unfold exitOf? at ht
    split at ht
    · cases ht
      rfl
    · cases ht
      rfl
    · cases ht
  rw [List.pairwise_filterMap]
  refine hcovers.increasing.imp_of_mem ?_
  intro t u ht hu hle a ha b hb
  have hpos := hcovers.nonempty t ht
  rw [hspan ha, hspan hb]
  omega

theorem except_mapError_eq_error {ε δ α : Type} {r : Except ε α} {wrap : ε → δ} {e : δ} :
    r.mapError wrap = .error e ↔ ∃ x, r = .error x ∧ wrap x = e := by
  cases r <;> simp [Except.mapError]

/-- Code whose exits are those of the source text gets a verdict that is exact. -/
theorem exactVerdict_firstStray
    {codes : List Code} {tokens : List (Located Token)} (h : ExitsAmong codes tokens)
    (hordered : (tokens.filterMap exitOf?).Pairwise fun a b =>
      a.span.start < b.span.start) :
    ExactVerdict codes
      ((ControlFlow.firstStray (Code.exitsAll false codes)).mapError .controlFlow) := by
  have hsorted : (Code.exitsAll false codes).Pairwise fun p q =>
      p.exit.span.start < q.exit.span.start := by
    rw [← h false] at hordered
    exact hordered.of_map PlacedExit.exit fun _ _ hlt => hlt
  have haccepts : (ControlFlow.firstStray (Code.exitsAll false codes)).mapError
      CompileError.controlFlow = .ok () ↔
      ControlFlow.firstStray (Code.exitsAll false codes) = .ok () :=
    ⟨except_mapError_eq_ok, fun hok => by rw [hok]; rfl⟩
  constructor
  · rw [haccepts, ControlFlow.firstStray_eq_ok]
    constructor
    · intro hcovered c hc path exit span hpath
      have hmem := List.mem_flatMap.mpr ⟨c, hc, hpath.mem_exits rfl false⟩
      exact Code.covers_eq_true.mp (hcovered _ hmem)
    · intro hmeets p hp
      obtain ⟨c, hc, hmem⟩ := List.mem_flatMap.mp hp
      obtain ⟨path, hpath, hcovered⟩ := Code.exists_surrounds_of_mem_exits hmem
      exact hcovered.trans (Code.covers_eq_true.mpr (hmeets c hc path _ _ hpath))
  · intro e
    rw [except_mapError_eq_error]
    simp only [ControlFlow.firstStray_eq_error hsorted, Code.strays_iff]
    grind

/-- For code that the parser makes of a source text, the control-flow check accepts just
when every exit stands in a loop of its own function; otherwise it reports the one that
strays and starts first in the source, by its word and its span. -/
theorem control_flow_check_is_exact {source : String} {tokens : List (Located Token)}
    (h : tokenize source = .ok tokens) :
    (∀ program, parseProgram source tokens = .ok program →
      ExactVerdict (program.functions.map .function) program.check) ∧
    (∀ stmts, parseStatements source tokens = .ok stmts →
      ExactVerdict (stmts.map .stmt) (Stmt.checkAll stmts)) := by
  have hlaid := Lexer.laid_of_tokenize h
  have hordered := pairwise_exits h
  constructor
  · intro program hparse
    have hexits := (parseProgram_readAllOf hlaid hparse).exits hlaid
    rw [Program.check, ControlFlow.checkFunctions_eq]
    exact exactVerdict_firstStray hexits hordered
  · intro stmts hparse
    have hexits := (parseStatements_readAllOf hlaid hparse).exits hlaid
    rw [Stmt.checkAll, ControlFlow.checkStmts_eq]
    exact exactVerdict_firstStray hexits hordered

/-- The exit that the check reports for the program of a source text, and its place. -/
def reportedExit? (source : String) (tokens : List (Located Token)) :
    Option (LoopExit × Span) :=
  match parseProgram source tokens with
  | .ok program =>
    match program.check with
    | .error (.controlFlow exit) => some (exit.node, exit.span)
    | _ => none
  | .error _ => none

/-- An exit in a function literal within the condition of a loop strays, although a later
one in the body of that loop does not; the one that strays in a second function comes
after it. -/
theorem control_flow_check_is_exact_condition :
    let source :=
      "fun f() { while (g(fun () { break })) { for (x in y) { continue } } } " ++
      "fun g(h) { continue }"
    let first : Located LoopExit := ⟨.leave, 28, 33, 1, 29⟩
    ∃ tokens program, tokenize source = .ok tokens ∧
        parseProgram source tokens = .ok program ∧
      program.check = .error (.controlFlow first) ∧
        Code.Strays (program.functions.map .function) first ∧
      ∀ other, Code.Strays (program.functions.map .function) other → other = first ∨
        28 < other.span.start := by
  intro source first
  have hplaces : (tokenize source).toOption.bind (reportedExit? source) =
      some (.leave, ⟨28, 33, 1, 29⟩) := by
    decide +kernel
  obtain ⟨tokens, htokens, hplace⟩ := Option.bind_eq_some_iff.mp hplaces
  replace htokens := except_eq_ok_of_toOption htokens
  obtain ⟨program, hparse⟩ : ∃ program, parseProgram source tokens = .ok program := by
    cases hparse : parseProgram source tokens with
    | ok program => exact ⟨program, rfl⟩
    | error e => simp [reportedExit?, hparse] at hplace
  have hcheck : program.check = .error (.controlFlow first) := by
    simp only [reportedExit?, hparse] at hplace
    split at hplace
    next exit h =>
      obtain ⟨node, span⟩ := exit
      cases hplace
      exact h
    · cases hplace
  have hexact := (control_flow_check_is_exact htokens).1 program hparse
  obtain ⟨exit, heq, hstrays, hleast⟩ := (hexact.reports _).mp hcheck
  cases heq
  exact ⟨tokens, program, htokens, hparse, hcheck, hstrays, hleast⟩

end HandleScript
