import HandleScript.Proofs.Ensures
import HandleScript.Proofs.Lexer.Coverage
import HandleScript.Proofs.Nodes
import HandleScript.Proofs.Parser.Soundness
import HandleScript.Session

/-!
# Where parsed code stands

A span lies in a source when it is the span of a slice of it: its ends are those of the
slice, and its line and column are those of the first byte. The tokens of a source lie in
it, and so does the span that covers two that do. A tree has the spans of its tokens and
of what covers them, and an error is reported at a token or at the end. So every node of
what is read lies in the source, and so do the errors of the lexer, the parser and the
check.
-/

namespace HandleScript

/-! ## Spans of slices -/

/-- The span is that of a slice of the source. -/
def Span.LiesIn (source : String) (span : Span) : Prop :=
  ∃ before slice after, source.toList = before ++ (slice ++ after) ∧
    span = Lexer.spanAfter before slice

/-- Of two beginnings of a text, the one with fewer bytes begins the other. -/
theorem Lexer.isPrefix_of_byteSize_le {cs before upto : List Char} (h : before <+: cs)
    (h' : upto <+: cs) (hle : byteSize before ≤ byteSize upto) : before <+: upto := by
  rcases List.prefix_or_prefix_of_prefix h h' with hshorter | ⟨rest, rfl⟩
  · exact hshorter
  · have hrest : rest = [] := by
      by_contra hne
      have hpos := byteSize_pos hne
      rw [byteSize_append] at hle
      omega
    simp [hrest]

theorem Span.merge_eq (a b : Span) :
    a.merge b =
      { (if a.start ≤ b.start then a else b) with stop := max a.stop b.stop } := by
  by_cases h : a.start ≤ b.start
  · simp only [merge, h, if_true, Nat.min_eq_left]
  · simp only [merge, h, if_false, Nat.min_eq_right (Nat.le_of_not_le h)]

namespace Span.LiesIn

variable {source : String} {a b span : Span}

/-- The span ends inside of the source and not before it begins, and its line and column
are those of its start. -/
theorem bounds (h : span.LiesIn source) :
    span.start ≤ span.stop ∧ span.stop ≤ source.utf8ByteSize ∧
      (span.line, span.column) = (LineIndex.ofSource source).position span.start := by
  obtain ⟨before, slice, after, htext, rfl⟩ := h
  refine ⟨Nat.le_add_right _ _, ?_, (LineIndex.position_of_append htext).symm⟩
  rw [← Lexer.byteSize_toList, htext, Lexer.byteSize_append, Lexer.byteSize_append]
  simp only [Lexer.spanAfter]
  omega

theorem of_prefix {before upto : List Char} (h : before <+: upto)
    (h' : upto <+: source.toList) :
    LiesIn source { Lexer.spanAfter before [] with stop := Lexer.byteSize upto } := by
  obtain ⟨slice, rfl⟩ := h
  obtain ⟨after, htext⟩ := h'
  refine ⟨before, slice, after, ?_, ?_⟩
  · rw [← htext, List.append_assoc]
  · rw [Lexer.byteSize_append, Lexer.spanAfter, Lexer.spanAfter]

/-- The span that covers two spans in a source lies in it. -/
theorem merge (ha : a.LiesIn source) (hb : b.LiesIn source) :
    (a.merge b).LiesIn source := by
  obtain ⟨before, slice, after, htext, rfl⟩ := ha
  obtain ⟨before', slice', after', htext', rfl⟩ := hb
  have hupto : before ++ slice <+: source.toList :=
    ⟨after, by rw [htext, List.append_assoc]⟩
  have hupto' : before' ++ slice' <+: source.toList :=
    ⟨after', by rw [htext', List.append_assoc]⟩
  have hbefore := (List.prefix_append before slice).trans hupto
  have hbefore' := (List.prefix_append before' slice').trans hupto'
  -- The merged span ends where the longer of the two beginnings of the text ends.
  obtain ⟨last, hlast, hcovers, hstop⟩ : ∃ last, last <+: source.toList ∧
      before ++ slice <+: last ∧
      max (Lexer.spanAfter before slice).stop (Lexer.spanAfter before' slice').stop =
        Lexer.byteSize last := by
    simp only [Lexer.spanAfter, ← Lexer.byteSize_append]
    rcases Nat.le_total (Lexer.byteSize (before ++ slice))
      (Lexer.byteSize (before' ++ slice')) with hle | hle
    · exact ⟨_, hupto', Lexer.isPrefix_of_byteSize_le hupto hupto' hle,
        Nat.max_eq_right hle⟩
    · exact ⟨_, hupto, List.prefix_rfl, Nat.max_eq_left hle⟩
  have hreaches : before <+: last := (List.prefix_append before slice).trans hcovers
  rw [merge_eq, hstop]
  split
  · exact of_prefix hreaches hlast
  next hlater =>
    have hfirst := Lexer.isPrefix_of_byteSize_le hbefore' hbefore
      (Nat.le_of_not_le hlater)
    exact of_prefix (hfirst.trans hreaches) hlast

end Span.LiesIn

/-- The nodes stand in the source. -/
def StandIn (source : String) (nodes : List Node) : Prop :=
  ∀ n ∈ nodes, n.span.LiesIn source

section StandIn

variable {source : String} {n : Node} {nodes nodes' : List Node}

@[simp] theorem standIn_nil : StandIn source [] := fun _ hn => nomatch hn

@[simp] theorem standIn_cons :
    StandIn source (n :: nodes) ↔ n.span.LiesIn source ∧ StandIn source nodes :=
  List.forall_mem_cons

@[simp] theorem standIn_append :
    StandIn source (nodes ++ nodes') ↔ StandIn source nodes ∧ StandIn source nodes' :=
  List.forall_mem_append

theorem Expr.standIn_span {e : Expr} (h : StandIn source e.nodes) :
    e.span.LiesIn source := by
  cases e with
  | call receiver method args span => exact h _ List.mem_cons_self
  | name text span => exact h _ List.mem_cons_self
  | literal value span => exact h _ List.mem_cons_self
  | lambda f =>
      obtain ⟨name, params, body, span⟩ := f
      rw [Expr.nodes] at h
      exact h _ List.mem_cons_self

end StandIn

/-! ## Tokens in a source -/

/-- The tokens have places in the source. -/
def Places.LieIn (spans : Places) (source : String) (ts : List Token) : Prop :=
  ∀ i, i < ts.length → (spans i).LiesIn source

section Places

variable {source : String} {spans : Places} {ts us : List Token}

/-- The tokens between some of them have places in the source too. -/
theorem Places.LieIn.part {inside : List Token} (h : spans.LieIn source ts)
    (before after : List Token) (hts : ts = before ++ (inside ++ after)) :
    (spans.past before).LieIn source inside := by
  intro i hi
  refine h (before.length + i) ?_
  rw [hts, List.length_append, List.length_append]
  omega

theorem Places.LieIn.left (h : spans.LieIn source (ts ++ us)) :
    spans.LieIn source ts := by
  have hpart := h.part [] us rfl
  rwa [Places.past_nil] at hpart

theorem Places.LieIn.right (h : spans.LieIn source (ts ++ us)) :
    (spans.past ts).LieIn source us :=
  h.part ts [] (by rw [List.append_nil])

theorem Places.LieIn.last (h : spans.LieIn source ts) {previous : Span}
    (hprevious : previous.LiesIn source) : (spans.last previous ts).LiesIn source := by
  cases ts with
  | nil => exact hprevious
  | cons t ts => exact h ts.length (Nat.lt_succ_self _)

theorem Places.LieIn.cover (h : spans.LieIn source ts) (hne : ts ≠ []) :
    (spans.cover ts).LiesIn source := by
  have hfirst := h 0 (List.length_pos_iff.2 hne)
  exact hfirst.merge (h.last hfirst)

end Places

/-! ## What trees denote -/

@[simp] theorem Parser.nodes_impliedCall (receiver : Expr) (method : String)
    (span : Span) :
    (impliedCall receiver method span).nodes =
      ⟨.expression, span⟩ :: ⟨.method, span⟩ :: receiver.nodes := by
  simp [impliedCall, Expr.nodes, Expr.nodesAll]

@[simp] theorem Parser.span_impliedCall (receiver : Expr) (method : String)
    (span : Span) : (impliedCall receiver method span).span = span := rfl

namespace Grammar

variable {source : String}

mutual

/-- What an expression denotes at places in the source stands in it. -/
theorem Expr.standIn_place (tree : Expr) {spans : Places}
    (h : spans.LieIn source tree.yield) (n : Nat) :
    StandIn source (tree.place spans n).1.nodes := by
  match tree with
  | .chain head calls =>
      exact calls.standIn_place h.right (head.standIn_place h.left n) _
termination_by structural tree

theorem Primary.standIn_place (tree : Primary) {spans : Places}
    (h : spans.LieIn source tree.yield) (n : Nat) :
    StandIn source (tree.place spans n).1.nodes := by
  have hfirst := h 0 (List.length_pos_iff.2 tree.yield_ne_nil)
  have hcover := h.cover tree.yield_ne_nil
  match tree with
  | .literal value => simp [Primary.place, Expr.nodes, hfirst]
  | .name w => simp [Primary.place, Expr.nodes, hfirst]
  | .call w args =>
      have hargs := args.standIn_place
        (h.part [.word w, .mark .openParen] [.mark .closeParen] rfl) n
      simp [Primary.place, Expr.nodes, hfirst, hcover, hargs]
  | .lambda params body =>
      have hbody := body.standIn_place (h.part
        (.keyword .function :: (parens (words params) ++ [.mark .openBrace]))
          [.mark .closeBrace]
        (by simp [Primary.yield, braces])) n
      simp [Primary.place, Expr.nodes, hcover, hbody]
termination_by structural tree

theorem Calls.standIn_place (tree : Calls) {spans : Places}
    (h : spans.LieIn source tree.yield) {receiver : HandleScript.Expr}
    (hreceiver : StandIn source receiver.nodes) (n : Nat) :
    StandIn source (tree.place receiver spans n).1.nodes := by
  match tree with
  | .done => exact hreceiver
  | .next method args rest =>
      let call : List Token := .mark .dot :: .word method :: parens args.yield
      have hcalls : spans.LieIn source (call ++ rest.yield) := h
      have hargs := args.standIn_place (hcalls.left.part
        [.mark .dot, .word method, .mark .openParen] [.mark .closeParen] rfl) n
      have hspan := HandleScript.Expr.standIn_span hreceiver
      refine rest.standIn_place hcalls.right ?_ _
      have hlast : (receiver.span.merge (spans.last receiver.span call)).LiesIn source :=
        hspan.merge (hcalls.left.last hspan)
      have hmethod : (spans 1).LiesIn source := h 1 (by simp [Calls.yield])
      simpa [Expr.nodes, hreceiver, hargs, hmethod] using hlast
termination_by structural tree

theorem Args.standIn_place (tree : Args) {spans : Places}
    (h : spans.LieIn source tree.yield) (n : Nat) :
    StandIn source (Expr.nodesAll (tree.place spans n).1) := by
  match tree with
  | .empty => simp [Args.place, Expr.nodesAll]
  | .list first rest =>
      simp [Args.place, Expr.nodesAll, first.standIn_place h.left,
        rest.standIn_place h.right]
termination_by structural tree

theorem MoreArgs.standIn_place (tree : MoreArgs) {spans : Places}
    (h : spans.LieIn source tree.yield) (n : Nat) :
    StandIn source (Expr.nodesAll (tree.place spans n).1) := by
  match tree with
  | .done => simp [MoreArgs.place, Expr.nodesAll]
  | .next arg rest =>
      have harg := arg.standIn_place (h.part [.mark .comma] rest.yield rfl) n
      have hrest := rest.standIn_place (h.part (.mark .comma :: arg.yield) []
        (by simp [MoreArgs.yield]))
      simp [MoreArgs.place, Expr.nodesAll, harg, hrest]
termination_by structural tree

theorem Stmt.standIn_place (tree : Stmt) {spans : Places}
    (h : spans.LieIn source tree.yield) (n : Nat) :
    StandIn source (tree.place spans n).1.nodes := by
  have hfirst := h 0 tree.length_pos
  have hcover := h.cover tree.yield_ne_nil
  match tree with
  | .branch arms =>
      have harms := arms.standIn_place
        (h.part [.keyword .branch] [] (by simp [Stmt.yield])) n
      simp [Stmt.place, Stmt.nodes, hcover, harms]
  | .loop condition body =>
      have htest := condition.standIn_place (h.part [.keyword .loop, .mark .openParen]
        (.mark .closeParen :: braces body.yield) (by simp [Stmt.yield, parens])) n
      have hbody := body.standIn_place (h.part
        (.keyword .loop :: (parens condition.yield ++ [.mark .openBrace]))
          [.mark .closeBrace]
        (by simp [Stmt.yield, braces]))
      simp [Stmt.place, Stmt.nodes, hcover, htest, hbody,
        HandleScript.Expr.standIn_span htest]
  | .each x iterable body =>
      have hiterable := iterable.standIn_place (h.part
        [.keyword .each, .mark .openParen, .word x, .word "in"]
        (.mark .closeParen :: braces body.yield) (by simp [Stmt.yield, parens])) n
      have hbody := body.standIn_place (h.part
        (.keyword .each ::
          (parens (.word x :: .word "in" :: iterable.yield) ++ [.mark .openBrace]))
        [.mark .closeBrace] (by simp [Stmt.yield, braces]))
      simp [Stmt.place, Parser.forBlock, Stmt.nodes, Stmt.nodesAll, Expr.nodes, hfirst,
        hcover, hiterable, hbody, HandleScript.Expr.standIn_span hiterable]
  | .declare x init =>
      have hinit := init.standIn_place
          (h.part [.keyword .declare, .word x, .mark .equals] []
        (by simp [Stmt.yield])) n
      simp [Stmt.place, Stmt.nodes, hcover, hinit]
  | .giveBack value =>
      have hvalue :=
        value.standIn_place (h.part [.keyword .giveBack] [] (by simp [Stmt.yield])) n
      simp [Stmt.place, Stmt.nodes, hcover, hvalue]
  | .leave => simp [Stmt.place, Stmt.nodes, hcover]
  | .skip => simp [Stmt.place, Stmt.nodes, hcover]
  | .block body =>
      have hbody := body.standIn_place
        (h.part [.mark .openBrace] [.mark .closeBrace] rfl) n
      simp [Stmt.place, Stmt.nodes, hcover, hbody]
  | .assign x value =>
      have hvalue := value.standIn_place (h.part [.word x, .mark .equals] []
        (by simp [Stmt.yield])) n
      simp [Stmt.place, Stmt.nodes, hcover, hvalue]
  | .expr value =>
      have hvalue := value.standIn_place h n
      simp [Stmt.place, Stmt.nodes, hcover, hvalue]
termination_by structural tree

theorem Arms.standIn_place (tree : Arms) {spans : Places}
    (h : spans.LieIn source tree.yield) (n : Nat) :
    StandIn source (tree.place spans n).1.nodes := by
  match tree with
  | .arm condition body rest =>
      have htest := condition.standIn_place (h.part [.mark .openParen]
        (.mark .closeParen :: (braces body.yield ++ rest.yield))
          (by simp [Arms.yield, parens])) n
      have hbody := body.standIn_place
          (h.part (parens condition.yield ++ [.mark .openBrace])
        (.mark .closeBrace :: rest.yield) (by simp [Arms.yield, braces]))
      have hrest := rest.standIn_place
          (h.part (parens condition.yield ++ braces body.yield) []
        (by simp [Arms.yield]))
      simp [Arms.place, Arms.nodes, htest, hbody, hrest,
        HandleScript.Expr.standIn_span htest]
termination_by structural tree

theorem MoreArms.standIn_place (tree : MoreArms) {spans : Places}
    (h : spans.LieIn source tree.yield) (n : Nat) :
    StandIn source (tree.place spans n).1.nodes := by
  match tree with
  | .done => simp [MoreArms.place, Arms.nodes]
  | .otherwise body =>
      have hbody := body.standIn_place (h.part [.keyword .otherwise, .mark .openBrace]
        [.mark .closeBrace] rfl) n
      simp [MoreArms.place, Arms.nodes, hbody]
  | .elseIf arms =>
      exact arms.standIn_place (h.part [.keyword .otherwise, .keyword .branch] []
        (by simp [MoreArms.yield])) n
termination_by structural tree

theorem Stmts.standIn_place (tree : Stmts) {spans : Places}
    (h : spans.LieIn source tree.yield) (n : Nat) :
    StandIn source (Stmt.nodesAll (tree.place spans n).1) := by
  match tree with
  | .done => simp [Stmts.place, Stmt.nodesAll]
  | .giveBack =>
      simp [Stmts.place, Stmt.nodesAll, Stmt.nodes, h.cover (List.cons_ne_nil _ _)]
  | .cons stmt rest =>
      simp [Stmts.place, Stmt.nodesAll, stmt.standIn_place h.left,
        rest.standIn_place h.right]
termination_by structural tree

end

theorem Function.standIn_place (tree : Function) {spans : Places}
    (h : spans.LieIn source tree.yield) (n : Nat) :
    StandIn source (tree.place spans n).1.nodes := by
  refine tree.body.standIn_place (h.part (.keyword .function :: .word tree.name ::
    (parens (words tree.params) ++ [.mark .openBrace])) [.mark .closeBrace] ?_) n
  simp [Function.yield, braces]

theorem Function.standIn_placeAll (trees : List Function) {spans : Places}
    (h : spans.LieIn source (trees.flatMap yield)) (n : Nat) :
    ∀ f ∈ (placeAll trees spans n).1, StandIn source f.nodes := by
  induction trees generalizing spans n with
  | nil => exact fun _ hf => nomatch hf
  | cons tree trees ih =>
      rw [List.flatMap_cons] at h
      exact List.forall_mem_cons.2 ⟨tree.standIn_place h.left n, ih h.right _⟩

end Grammar

/-! ## Whole sources -/

variable {source : String}

theorem yields_mapError {ε δ α : Type} {r : Except ε α} {wrap : ε → δ} {value : α → Prop}
    {error : ε → Prop} {error' : δ → Prop} (h : Yields value error r)
    (hwrap : ∀ e, error e → error' (wrap e)) : Yields value error' (r.mapError wrap) := by
  cases r with
  | ok a => exact h
  | error e => exact hwrap e h

theorem tokenize_liesIn (source : String) :
    Yields (fun tokens => ∀ t ∈ tokens, t.span.LiesIn source)
      (fun e => e.span.LiesIn source) (tokenize source) := by
  obtain ⟨segments, last, hpieces, rfl | ⟨c, tail, e, rfl, he⟩⟩ :=
    Lexer.exists_pieces source.toList
  · rw [Lexer.tokenize_of_pieces hpieces]
    intro t ht
    obtain ⟨before, slice, after, htext, hspan, -⟩ :=
      Lexer.exists_of_mem_placed hpieces ht
    exact ⟨before, slice, after, htext, hspan⟩
  · rw [Lexer.tokenize_of_bad hpieces he]
    exact ⟨_, _, _, hpieces.eq_append.trans (congrArg _ (Lexer.cut_append c tail).symm),
      rfl⟩

section Parsed

/-- The place after the last token lies in the source. -/
theorem ending_liesIn (source : String) :
    ((LineIndex.ofSource source).span source.utf8ByteSize source.utf8ByteSize).LiesIn
      source := by
  have htext : source.toList = source.toList ++ ([] ++ []) := by simp
  refine ⟨source.toList, [], [], htext, ?_⟩
  rw [← Lexer.span_eq_spanAfter _ htext, Lexer.byteSize_nil,
    Nat.add_zero, Lexer.byteSize_toList]

theorem error_liesIn {spans : Places} {ts : List Token} (h : spans.LieIn source ts)
    (place : Nat) (cause : Grammar.Fault) :
    ((Parser.Source.ofText source spans ts).error place cause).span.LiesIn source := by
  have hplace : ((Parser.Source.ofText source spans ts).placeAt place).LiesIn source := by
    rw [Parser.Source.placeAt]
    split
    next hlt => exact h place hlt
    · exact ending_liesIn source
  cases cause <;> exact hplace

variable {tokens : List (Located Token)} (h : ∀ t ∈ tokens, t.span.LiesIn source)
include h

theorem lieIn_placesOf (more : List (Located Token)) :
    (placesOf (tokens ++ more)).LieIn source (tokens.map Located.node) := by
  intro i hi
  rw [List.length_map] at hi
  rw [placesOf, List.getElem?_append_left hi, List.getElem?_eq_getElem hi]
  exact h _ (List.getElem_mem hi)

theorem parseProgram_liesIn :
    Yields (fun p => StandIn source p.nodes) (fun e => e.span.LiesIn source)
      (parseProgram source tokens) := by
  have hplaces := lieIn_placesOf h []
  cases hparse : parseProgram source tokens with
  | error e =>
      rw [← locate_placesOf tokens []] at hparse
      obtain ⟨place, cause, -, rfl⟩ := parseProgram_eq_error.1 hparse
      exact error_liesIn hplaces place cause
  | ok program =>
      obtain ⟨tree, hyield, hfunctions⟩ := parseProgram_place hparse []
      rw [← hyield] at hplaces
      intro n hn
      obtain ⟨f, hf, hn⟩ := List.mem_flatMap.mp hn
      rw [← hfunctions] at hf
      exact Grammar.Function.standIn_placeAll tree.functions hplaces 0 f hf n hn

theorem parseStatements_liesIn :
    Yields (fun stmts => StandIn source (Stmt.nodesAll stmts))
      (fun e => e.span.LiesIn source) (parseStatements source tokens) := by
  have hplaces := lieIn_placesOf h []
  cases hparse : parseStatements source tokens with
  | error e =>
      rw [← locate_placesOf tokens []] at hparse
      obtain ⟨place, cause, -, rfl⟩ := parseStatements_eq_error.1 hparse
      exact error_liesIn hplaces place cause
  | ok stmts =>
      obtain ⟨tree, hyield, rfl⟩ := parseStatements_place hparse []
      rw [← hyield] at hplaces
      exact tree.standIn_place hplaces 0

end Parsed

/-! ## The check -/

namespace ControlFlow

theorem verdict_bind_eq_error {a b : Verdict} {x : Located LoopExit}
    (h : (do a; b) = .error x) : a = .error x ∨ b = .error x := by
  cases a with
  | ok _ => exact .inr h
  | error _ => exact .inl h

theorem checkExit_mem {inLoop : Bool} {exit : LoopExit} {span : Span}
    {x : Located LoopExit} (h : checkExit inLoop exit span = .error x) :
    ⟨.statement, x.span⟩ ∈ [(⟨.statement, span⟩ : Node)] := by
  unfold checkExit at h
  split at h
  · cases h
  · cases h
    exact List.mem_cons_self

mutual

theorem checkExpr_mem_nodes {e : Expr} {x : Located LoopExit}
    (h : checkExpr e = .error x) : ⟨.statement, x.span⟩ ∈ e.nodes := by
  match e, h with
  | .call receiver method args span, h =>
      rw [checkExpr] at h
      simp only [Expr.nodes, List.mem_cons, List.mem_append]
      rcases verdict_bind_eq_error h with h | h
      · exact .inr (.inr (.inl (checkExpr_mem_nodes h)))
      · exact .inr (.inr (.inr (checkExprs_mem_nodes h)))
  | .lambda ⟨name, params, body, span⟩, h =>
      rw [Expr.nodes]
      exact List.mem_cons_of_mem _ (checkStmts_mem_nodes h)
  | .name text span, h => cases h
  | .literal value span, h => cases h
termination_by structural e

theorem checkExprs_mem_nodes {es : List Expr} {x : Located LoopExit}
    (h : checkExprs es = .error x) : ⟨.statement, x.span⟩ ∈ Expr.nodesAll es := by
  match es, h with
  | [], h => cases h
  | e :: es, h =>
      rw [checkExprs] at h
      simp only [Expr.nodesAll, List.mem_append]
      rcases verdict_bind_eq_error h with h | h
      · exact .inl (checkExpr_mem_nodes h)
      · exact .inr (checkExprs_mem_nodes h)
termination_by structural es

theorem checkStmt_mem_nodes {inLoop : Bool} {stmt : Stmt} {x : Located LoopExit}
    (h : checkStmt inLoop stmt = .error x) : ⟨.statement, x.span⟩ ∈ stmt.nodes := by
  match stmt, h with
  | .leave span, h => exact checkExit_mem h
  | .skip span, h => exact checkExit_mem h
  | .branch arms span, h => exact List.mem_cons_of_mem _ (checkArms_mem_nodes h)
  | .loop test body span, h =>
      rw [checkStmt] at h
      simp only [Stmt.nodes, List.mem_cons, List.mem_append]
      rcases verdict_bind_eq_error h with h | h
      · exact .inr (.inr (.inl (checkExpr_mem_nodes h)))
      · exact .inr (.inr (.inr (checkStmts_mem_nodes h)))
  | .declare name init span, h => exact List.mem_cons_of_mem _ (checkExpr_mem_nodes h)
  | .assign name value span, h => exact List.mem_cons_of_mem _ (checkExpr_mem_nodes h)
  | .expr value span, h => exact List.mem_cons_of_mem _ (checkExpr_mem_nodes h)
  | .giveBack none span, h => cases h
  | .giveBack (some value) span, h => exact List.mem_cons_of_mem _ (checkExpr_mem_nodes h)
  | .block body span, h => exact List.mem_cons_of_mem _ (checkStmts_mem_nodes h)
termination_by structural stmt

theorem checkStmts_mem_nodes {inLoop : Bool} {stmts : List Stmt} {x : Located LoopExit}
    (h : checkStmts inLoop stmts = .error x) :
    ⟨.statement, x.span⟩ ∈ Stmt.nodesAll stmts := by
  match stmts, h with
  | [], h => cases h
  | stmt :: rest, h =>
      rw [checkStmts] at h
      simp only [Stmt.nodesAll, List.mem_append]
      rcases verdict_bind_eq_error h with h | h
      · exact .inl (checkStmt_mem_nodes h)
      · exact .inr (checkStmts_mem_nodes h)
termination_by structural stmts

theorem checkArms_mem_nodes {inLoop : Bool} {arms : Arms} {x : Located LoopExit}
    (h : checkArms inLoop arms = .error x) : ⟨.statement, x.span⟩ ∈ arms.nodes := by
  match arms, h with
  | .done, h => cases h
  | .otherwise body, h => exact checkStmts_mem_nodes h
  | .test test body rest, h =>
      rw [checkArms] at h
      simp only [Arms.nodes, List.mem_cons, List.mem_append]
      rcases verdict_bind_eq_error h with h | h
      · exact .inr (.inl (.inl (checkExpr_mem_nodes h)))
      · rcases verdict_bind_eq_error h with h | h
        · exact .inr (.inl (.inr (checkStmts_mem_nodes h)))
        · exact .inr (.inr (checkArms_mem_nodes h))
termination_by structural arms

end

end ControlFlow

/-- Functions that do not pass the check are refused at one of their statements. -/
theorem Program.check_mem_nodes {p : Program} {e : CompileError}
    (h : p.check = .error e) : ⟨.statement, e.span⟩ ∈ p.nodes := by
  obtain ⟨functions⟩ := p
  unfold Program.check at h
  cases hcheck : ControlFlow.checkFunctions functions with
  | ok passed =>
      rw [hcheck] at h
      cases h
  | error x =>
      rw [hcheck] at h
      cases h
      induction functions with
      | nil => cases hcheck
      | cons f fs ih =>
          rw [Program.nodes, List.flatMap_cons, List.mem_append]
          rcases ControlFlow.verdict_bind_eq_error hcheck with hfirst | hrest
          · exact .inl (ControlFlow.checkStmts_mem_nodes hfirst)
          · exact .inr (ih hrest)

theorem Stmt.checkAll_mem_nodes {stmts : List Stmt} {e : CompileError}
    (h : Stmt.checkAll stmts = .error e) :
    ⟨.statement, e.span⟩ ∈ Stmt.nodesAll stmts := by
  unfold Stmt.checkAll at h
  cases hcheck : ControlFlow.checkStmts false stmts with
  | ok passed =>
      rw [hcheck] at h
      cases h
  | error x =>
      rw [hcheck] at h
      cases h
      exact ControlFlow.checkStmts_mem_nodes hcheck

/-! ## Sources as programs and as inputs -/

/-- The program that a source spells out stands in it, and so does the error when there is
none. -/
theorem Program.ofSource_liesIn (source : String) :
    Yields (fun p => StandIn source p.nodes) (fun e => e.span.LiesIn source)
      (Program.ofSource source) := by
  refine yields_bind (yields_mapError (tokenize_liesIn source) fun _ he => he)
    fun tokens htokens => ?_
  exact yields_mapError (parseProgram_liesIn htokens) fun _ he => he

/-- The nodes of an input. -/
def Session.Input.nodes : Session.Input → List Node
  | .declarations p => p.nodes
  | .statements stmts => Stmt.nodesAll stmts

/-- What an input asks for stands in it, and so does the error when it asks for
nothing. -/
theorem Session.read_liesIn (input : String) :
    Yields (fun asked => StandIn input asked.nodes) (fun e => e.span.LiesIn input)
      (Session.read input) := by
  refine yields_bind (yields_mapError (tokenize_liesIn input) fun _ he => he)
    fun tokens htokens => ?_
  split
  · refine yields_bind (yields_mapError (parseProgram_liesIn htokens) fun _ he => he)
      fun p hp => ?_
    exact hp
  · refine yields_bind (yields_mapError (parseStatements_liesIn htokens) fun _ he => he)
      fun stmts hstmts => ?_
    cases hcheck : Stmt.checkAll stmts with
    | ok passed => exact hstmts
    | error e => exact hstmts _ (Stmt.checkAll_mem_nodes hcheck)

end HandleScript
