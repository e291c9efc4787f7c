import HandleScript.Proofs.Parser.Extents

/-!
# Code inside of code

Without a `for` loop, everything in a program is read of tokens of its own. Then the spans
of the parts of a piece of code lie within its own span, and those of parts that stand
side by side come one after the other.
-/

namespace HandleScript

/-- A piece of a program. -/
inductive Code where
  | expr (e : Expr)
  | stmt (stmt : Stmt)
  | function (f : Function)
  /-- The name that a function, a parameter or a variable gets. -/
  | name (w : Located String)

/-- The conditions and the statements of an `if` statement, in order. -/
def Arms.parts : Arms → List Code
  | .done => []
  | .otherwise body => body.map .stmt
  | .test condition body rest => .expr condition :: (body.map .stmt ++ rest.parts)

/-- The names and the statements of a function, in order. -/
def Function.parts (f : Function) : List Code :=
  .name f.name :: (f.params.map .name ++ f.body.map .stmt)

namespace Code

/-- Where the code stands in the source. -/
def span : Code → Span
  | expr e => e.span
  | stmt s => s.span
  | function f => f.span
  | name w => w.span

/-- What a piece of code directly consists of, in order. -/
def parts : Code → List Code
  | expr (.call receiver _ args _) => .expr receiver :: args.map .expr
  | expr (.name _ _) => []
  | expr (.literal _ _) => []
  | expr (.lambda f) => f.parts
  | stmt (.branch arms _) => arms.parts
  | stmt (.loop test body _) => .expr test :: body.map .stmt
  | stmt (.declare x init _) => [.name x, .expr init]
  | stmt (.assign x value _) => [.name x, .expr value]
  | stmt (.giveBack none _) => []
  | stmt (.giveBack (some value) _) => [.expr value]
  | stmt (.leave _) => []
  | stmt (.skip _) => []
  | stmt (.block body _) => body.map .stmt
  | stmt (.expr value _) => [.expr value]
  | function f => f.parts
  | name _ => []

/-- The spans of the parts lie within the span of the code and come one after the other;
and so it is in each part. -/
inductive Tidy : Code → Prop
  | intro {c : Code} (within : ∀ d ∈ c.parts, c.span.start ≤ d.span.start ∧
      d.span.stop ≤ c.span.stop)
      (ordered : c.parts.Pairwise fun a b => a.span.stop ≤ b.span.start)
        (inside : ∀ d ∈ c.parts, Tidy d) : Tidy c

end Code

/-! ## Spans over tokens -/

/-- The spans cover tokens one after the other, with others between them. -/
inductive Spread (source : String) : List Span → List (Located Token) → Prop
  | nil (ts : List (Located Token)) : Spread source [] ts
  | cons {span : Span} {spans : List Span} (gap : List (Located Token))
      {piece rest : List (Located Token)}
      (covers : span.Covers source piece) (hrest : Spread source spans rest) :
      Spread source (span :: spans) (gap ++ (piece ++ rest))

namespace Spread

variable {source : String} {spans spans' : List Span} {ts ts' : List (Located Token)}

theorem append (h : Spread source spans ts) (h' : Spread source spans' ts') :
    Spread source (spans ++ spans') (ts ++ ts') := by
  induction h with
  | nil ts =>
      cases h' with
      | nil => exact .nil _
      | cons gap covers hrest =>
          rw [← List.append_assoc]
          exact .cons (ts ++ gap) covers hrest
  | cons gap covers hrest ih =>
      rw [List.append_assoc, List.append_assoc]
      exact .cons gap covers ih

/-- Every span starts and stops with a token. -/
theorem exists_mem {span : Span} (h : Spread source spans ts) (hspan : span ∈ spans) :
    ∃ first ∈ ts, ∃ last ∈ ts, span.start = first.span.start ∧
      span.stop = last.span.stop := by
  induction h with
  | nil => cases hspan
  | cons gap covers hrest ih =>
      rcases List.mem_cons.mp hspan with rfl | hlater
      · obtain ⟨first, last, hfirst, hlast, hstart, hstop, -⟩ := covers
        have hfirst := List.mem_of_head? hfirst
        have hlast := List.mem_of_getLast? hlast
        exact ⟨first, by simp [hfirst], last, by simp [hlast], hstart, hstop⟩
      · obtain ⟨first, hfirst, last, hlast, hstart, hstop⟩ := ih hlater
        exact ⟨first, by simp [hfirst], last, by simp [hlast], hstart, hstop⟩

theorem within {span : Span} (h : Spread source spans ts) (hlaid : Laid source ts)
    (covers : span.Covers source ts) :
    ∀ d ∈ spans, span.start ≤ d.start ∧ d.stop ≤ span.stop := by
  intro d hd
  obtain ⟨first, last, hfirst, hlast, hstart, hstop, -⟩ := covers
  obtain ⟨t, ht, u, hu, hdstart, hdstop⟩ := h.exists_mem hd
  rw [hstart, hstop, hdstart, hdstop]
  exact ⟨hlaid.start_le hfirst ht, hlaid.stop_le hlast hu⟩

theorem ordered (h : Spread source spans ts) (hlaid : Laid source ts) :
    spans.Pairwise fun a b => a.stop ≤ b.start := by
  induction h with
  | nil => exact List.Pairwise.nil
  | cons gap covers hrest ih =>
      refine List.Pairwise.cons (fun d hd => ?_) (ih hlaid.right.right)
      obtain ⟨-, last, -, hlast, -, hstop, -⟩ := covers
      obtain ⟨t, ht, -, -, hstart, -⟩ := hrest.exists_mem hd
      rw [hstop, hstart]
      exact (List.pairwise_append.mp hlaid.right.increasing).2.2 last
        (List.mem_of_getLast? hlast) t ht

end Spread

/-- The code covers tokens one after the other, and is tidy. -/
structure Parts (source : String) (codes : List Code) (ts : List (Located Token)) :
    Prop where
  spread : Spread source (codes.map Code.span) ts
  tidy : ∀ c ∈ codes, c.Tidy

namespace Parts

variable {source : String} {codes codes' : List Code} {ts ts' : List (Located Token)}

theorem nil (ts : List (Located Token)) : Parts source [] ts :=
  ⟨.nil ts, fun _ hc => nomatch hc⟩

theorem append (h : Parts source codes ts) (h' : Parts source codes' ts') :
    Parts source (codes ++ codes') (ts ++ ts') := by
  refine ⟨?_, fun c hc => (List.mem_append.mp hc).elim (h.tidy c) (h'.tidy c)⟩
  rw [List.map_append]
  exact h.spread.append h'.spread

theorem after (h : Parts source codes ts) (gap : List (Located Token)) :
    Parts source codes (gap ++ ts) :=
  (nil gap).append h

theorem enclosed (h : Parts source codes ts) (a b : Located Token) :
    Parts source codes (a :: (ts ++ [b])) := by
  have hwhole := (h.append (nil [b])).after [a]
  rwa [List.append_nil] at hwhole

/-- Code that covers its tokens and consists of parts that do is tidy. -/
theorem single {c : Code} (h : Parts source c.parts ts) (hlaid : Laid source ts)
    (covers : c.span.Covers source ts) : Parts source [c] ts := by
  have hspread : Spread source [c.span] ([] ++ (ts ++ [])) := .cons [] covers (.nil [])
  rw [List.nil_append, List.append_nil] at hspread
  refine ⟨hspread, fun d hd => ?_⟩
  obtain rfl := List.mem_singleton.mp hd
  refine .intro (fun p hp => ?_) ?_ h.tidy
  · exact h.spread.within hlaid covers p.span (List.mem_map_of_mem hp)
  · exact List.pairwise_map.mp (h.spread.ordered hlaid)

end Parts

/-! ## Code without loops over elements -/

/-- Tokens that lie in a source one after the other, with no word `for` among them. -/
structure Straight (source : String) (ts : List (Located Token)) :
    Prop extends Laid source ts where
  plain : ∀ t ∈ ts, t.node ≠ .keyword .each

namespace Straight

variable {source : String} {ts ts' : List (Located Token)}

theorem left (h : Straight source (ts ++ ts')) : Straight source ts :=
  ⟨h.toLaid.left, fun t ht => h.plain t (List.mem_append_left _ ht)⟩

theorem right (h : Straight source (ts ++ ts')) : Straight source ts' :=
  ⟨h.toLaid.right, fun t ht => h.plain t (List.mem_append_right _ ht)⟩

theorem tail {t : Located Token} (h : Straight source (t :: ts)) : Straight source ts :=
  ⟨h.toLaid.tail, fun u hu => h.plain u (List.mem_cons_of_mem _ hu)⟩

/-- Code without parts that covers the first token. -/
theorem first {c : Code} {t : Located Token} (h : Straight source (t :: ts))
    (hspan : c.span = t.span) (hparts : c.parts = []) : Parts source [c] [t] := by
  have hlaid : Laid source [t] :=
    h.toLaid.of_sublist (List.singleton_sublist.mpr List.mem_cons_self)
  refine Parts.single (hparts ▸ .nil [t]) hlaid ?_
  rw [hspan]
  exact .singleton (h.within t List.mem_cons_self)

end Straight

section Reading

variable {source : String}

theorem MoreWords.parts {ws : List (Located String)} {ts : List (Located Token)}
    (h : MoreWords ws ts) (hts : Straight source ts) :
    Parts source (ws.map .name) ts := by
  induction h with
  | done => exact .nil []
  | next rest ih => exact ((hts.tail.first rfl rfl).append (ih hts.tail.tail)).after [_]

theorem Words.parts {ws : List (Located String)} {ts : List (Located Token)}
    (h : Words ws ts) (hts : Straight source ts) : Parts source (ws.map .name) ts := by
  cases h with
  | empty => exact .nil []
  | list rest => exact (hts.first rfl rfl).append (rest.parts hts.tail)

mutual

theorem Expr.ReadOf.parts {e : Expr} {ts : List (Located Token)} :
    e.ReadOf source ts → Straight source ts → Parts source [.expr e] ts
  | .intro rule covers, hts => .single (rule.parts hts) hts.toLaid covers

theorem Expr.Rule.parts {e : Expr} {ts : List (Located Token)} :
    e.Rule source ts → Straight source ts → Parts source (Code.expr e).parts ts
  | .literal value span place, hts => .nil _
  | .name w span place, hts => .nil _
  | .bareCall hargs, hts =>
      (hts.first rfl rfl).append ((hargs.parts hts.tail.tail.left).enclosed _ _)
  | .call hreceiver hargs, hts =>
    (hreceiver.parts hts.left).append
      (((hargs.parts hts.right.tail.tail.tail.left).enclosed _ _).after [_, _])
  | .lambda rest, hts => (hts.first rfl rfl).append (rest.parts hts.tail)

theorem Expr.ReadAllOf.parts {args : List Expr} {ts : List (Located Token)} :
    Expr.ReadAllOf source args ts → Straight source ts → Parts source (args.map .expr) ts
  | .empty, _ => .nil []
  | .list first rest, hts => (first.parts hts.left).append (rest.parts hts.right)

theorem Expr.MoreReadOf.parts {args : List Expr} {ts : List (Located Token)} :
    Expr.MoreReadOf source args ts → Straight source ts → Parts source (args.map .expr) ts
  | .done, _ => .nil []
  | .next first rest, hts =>
      ((first.parts hts.tail.left).append (rest.parts hts.tail.right)).after [_]

theorem Function.RestRule.parts {params : List (Located String)} {body : List Stmt}
    {ts : List (Located Token)} :
    Function.RestRule source params body ts → Straight source ts →
      Parts source (params.map .name ++ body.map .stmt) ts
  | .intro hparams hbody, hts =>
    ((hparams.parts hts.left.tail.left).enclosed _ _).append
      ((hbody.parts hts.right.tail.left).enclosed _ _)

theorem Stmt.ReadOf.parts {stmt : Stmt} {ts : List (Located Token)} :
    stmt.ReadOf source ts → Straight source ts → Parts source [.stmt stmt] ts
  | .intro rule covers, hts => .single (rule.parts hts) hts.toLaid covers

theorem Stmt.Rule.parts {stmt : Stmt} {ts : List (Located Token)} :
    stmt.Rule source ts → Straight source ts → Parts source (Code.stmt stmt).parts ts
  | .branch harms, hts => (harms.parts hts.tail).after [_]
  | .loop htest hbody, hts =>
    (((htest.parts hts.tail.left.tail.left).enclosed _ _).append
      ((hbody.parts hts.tail.right.tail.left).enclosed _ _)).after [_]
  | .each _ _, hts => absurd rfl (hts.plain _ List.mem_cons_self)
  | .declare hinit, hts =>
    ((hts.tail.first rfl rfl).append ((hinit.parts hts.tail.tail.tail).after [_])).after
      [_]
  | .assign hvalue, hts =>
      (hts.first rfl rfl).append ((hvalue.parts hts.tail.tail).after [_])
  | .giveBackNothing span place, hts => .nil _
  | .giveBack hvalue, hts => (hvalue.parts hts.tail).after [_]
  | .leave span place, hts => .nil _
  | .skip span place, hts => .nil _
  | .block hbody, hts => (hbody.parts hts.tail.left).enclosed _ _
  | .expr hvalue, hts => hvalue.parts hts

theorem Arms.ReadOf.parts {arms : Arms} {ts : List (Located Token)} :
    arms.ReadOf source ts → Straight source ts → Parts source arms.parts ts
  | .test htest hbody hrest, hts =>
    ((htest.parts hts.left.tail.left).enclosed _ _).append
      (((hbody.parts hts.right.left.tail.left).enclosed _ _).append
        (hrest.parts hts.right.right))

theorem Arms.MoreReadOf.parts {arms : Arms} {ts : List (Located Token)} :
    arms.MoreReadOf source ts → Straight source ts → Parts source arms.parts ts
  | .done, _ => .nil []
  | .otherwise hbody, hts => ((hbody.parts hts.tail.tail.left).enclosed _ _).after [_]
  | .elseIf harms, hts => (harms.parts hts.tail.tail).after [_, _]

theorem Stmt.ReadAllOf.parts {stmts : List Stmt} {ts : List (Located Token)} :
    Stmt.ReadAllOf source stmts ts → Straight source ts →
      Parts source (stmts.map .stmt) ts
  | .nil, _ => .nil []
  | .cons first rest, hts => (first.parts hts.left).append (rest.parts hts.right)

end

theorem Function.ReadAllOf.parts {fs : List Function} {ts : List (Located Token)}
    (h : Function.ReadAllOf source fs ts) (hts : Straight source ts) :
    Parts source (fs.map .function) ts := by
  induction h with
  | nil => exact .nil []
  | cons rule covers rest ih =>
      cases rule with
      | intro tail =>
          have hfirst : Parts source [.function ⟨⟨_, _⟩, _, _, _⟩] _ :=
            .single
              (((hts.left.tail.first rfl rfl).append
              (tail.parts hts.left.tail.tail)).after [_]) hts.left.toLaid covers
          exact hfirst.append (ih hts.right)

end Reading

/-- Everything that is read has the extent of its tokens. In a source without `for` loops,
moreover, the spans of what is inside of a piece of code lie within its span, and what
stands side by side is in order and apart. -/
theorem parsed_code_has_exact_spans {source : String} {tokens : List (Located Token)}
    (h : tokenize source = .ok tokens) :
    (∀ program, parseProgram source tokens = .ok program →
      Function.ReadAllOf source program.functions tokens ∧
      ((∀ t ∈ tokens, t.node ≠ .keyword .each) →
        (∀ f ∈ program.functions, (Code.function f).Tidy) ∧
        program.functions.Pairwise fun f g => f.span.stop ≤ g.span.start)) ∧
    (∀ stmts, parseStatements source tokens = .ok stmts →
      Stmt.ReadAllOf source stmts tokens ∧
      ((∀ t ∈ tokens, t.node ≠ .keyword .each) →
        (∀ stmt ∈ stmts, (Code.stmt stmt).Tidy) ∧
        stmts.Pairwise fun a b => a.span.stop ≤ b.span.start)) := by
  have hlaid := Lexer.laid_of_tokenize h
  constructor
  · intro program hparse
    have hread := parseProgram_readAllOf hlaid hparse
    refine ⟨hread, fun hplain => ?_⟩
    have hparts := hread.parts ⟨hlaid, hplain⟩
    refine ⟨fun f hf => hparts.tidy _ (List.mem_map_of_mem hf), ?_⟩
    exact List.pairwise_map.mp (List.pairwise_map.mp (hparts.spread.ordered hlaid))
  · intro stmts hparse
    have hread := parseStatements_readAllOf hlaid hparse
    refine ⟨hread, fun hplain => ?_⟩
    have hparts := hread.parts ⟨hlaid, hplain⟩
    refine ⟨fun stmt hstmt => hparts.tidy _ (List.mem_map_of_mem hstmt), ?_⟩
    exact List.pairwise_map.mp (List.pairwise_map.mp (hparts.spread.ordered hlaid))

/-- A call, and a variable in the line after it. -/
theorem parsed_code_has_exact_spans_call :
    ∃ tokens stmts, tokenize "f(x)\ny" = .ok tokens ∧
        parseStatements "f(x)\ny" tokens = .ok stmts ∧
      Stmt.ReadAllOf "f(x)\ny" stmts tokens ∧ (∀ stmt ∈ stmts, (Code.stmt stmt).Tidy) ∧
      stmts.Pairwise fun a b => a.span.stop ≤ b.span.start := by
  let tokens : List (Located Token) :=
    [⟨.word "f", 0, 1, 1, 1⟩, ⟨.mark .openParen, 1, 2, 1, 2⟩, ⟨.word "x", 2, 3, 1, 3⟩,
        ⟨.mark .closeParen, 3, 4, 1, 4⟩,
      ⟨.word "y", 5, 6, 2, 1⟩]
  have htokens : tokenize "f(x)\ny" = .ok tokens := by with_unfolding_all rfl
  let argument := Grammar.Args.list (.chain (.name "x") .done) .done
  let tree := Grammar.Stmts.cons (.expr (.chain (.call "f" argument) .done))
    (.cons (.expr (.chain (.name "y") .done)) .done)
  have hyield : tree.yield = tokens.map Located.node := rfl
  obtain ⟨stmts, hparse⟩ := parseStatements_complete "f(x)\ny" hyield
  obtain ⟨hread, hnested⟩ := (parsed_code_has_exact_spans htokens).2 stmts hparse
  exact ⟨tokens, stmts, htokens, hparse, hread, hnested (by simp [tokens])⟩

end HandleScript
