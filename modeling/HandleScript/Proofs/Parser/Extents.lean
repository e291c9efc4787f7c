import HandleScript.Proofs.Parser.Composition
import HandleScript.Proofs.Parser.Spans

/-!
# The extent of parsed code

Every function, statement and expression that is read has the extent of its tokens: its
span reaches from the first to the last of them. The rules below say of which tokens a
piece of a program is read; what a `for` loop stands for is made up and has the place of
the word `for`, and so is the receiver of a call that is written without one. When there
is no `for` loop, what is inside of a piece of code lies inside of its span too, and what
stands side by side is in order and apart.
-/

namespace HandleScript

/-- The span reaches from the first of the tokens to the last, and its line and column are
those of its start. -/
def Span.Covers (source : String) (span : Span) (ts : List (Located Token)) : Prop :=
  ∃ first last, ts.head? = some first ∧ ts.getLast? = some last ∧
    span.start = first.span.start ∧ span.stop = last.span.stop ∧
    (span.line, span.column) = (LineIndex.ofSource source).position span.start

/-! ## The tokens of a piece of code -/

/-- Tokens between two parentheses at the given places. -/
def parenthesized (opening : Span) (ts : List (Located Token)) (closing : Span) :
    List (Located Token) :=
  ⟨.mark .openParen, opening⟩ :: (ts ++ [⟨.mark .closeParen, closing⟩])

/-- Tokens between two braces at the given places. -/
def braced (opening : Span) (ts : List (Located Token)) (closing : Span) :
    List (Located Token) :=
  ⟨.mark .openBrace, opening⟩ :: (ts ++ [⟨.mark .closeBrace, closing⟩])

/-- Words that follow the first one of a list. -/
inductive MoreWords : List (Located String) → List (Located Token) → Prop
  | done : MoreWords [] []
  | next {w : String} {comma place : Span} {ws : List (Located String)}
      {ts : List (Located Token)}
      (rest : MoreWords ws ts) : MoreWords (⟨w, place⟩ :: ws)
        (⟨.mark .comma, comma⟩ :: ⟨.word w, place⟩ :: ts)

/-- Words with commas between them. -/
inductive Words : List (Located String) → List (Located Token) → Prop
  | empty : Words [] []
  | list {w : String} {place : Span} {ws : List (Located String)}
      {ts : List (Located Token)}
      (rest : MoreWords ws ts) : Words (⟨w, place⟩ :: ws) (⟨.word w, place⟩ :: ts)

section Rules

variable (source : String)

mutual

/-- The expression is read of the tokens, and its span covers them. -/
inductive Expr.ReadOf : Expr → List (Located Token) → Prop
  | intro {e : Expr} {ts : List (Located Token)} (rule : Expr.Rule e ts)
      (covers : e.span.Covers source ts) :
      Expr.ReadOf e ts

/-- The rules for expressions. -/
inductive Expr.Rule : Expr → List (Located Token) → Prop
  | literal (value : Literal) (span place : Span) :
      Expr.Rule (.literal value span) [⟨value.token, place⟩]
  | name (w : String) (span place : Span) : Expr.Rule (.name w span) [⟨.word w, place⟩]
  /-- The receiver is not written. -/
  | bareCall {w : String} {args : List Expr} {span place opening closing : Span}
      {ts : List (Located Token)}
      (hargs : Expr.ReadAllOf args ts) :
      Expr.Rule (.call (.name dispatcherName place) ⟨w, place⟩ args span)
        (⟨.word w, place⟩ :: parenthesized opening ts closing)
  | call {receiver : Expr} {method : String} {args : List Expr}
      {span dot place opening closing : Span}
      {ts ts' : List (Located Token)} (hreceiver : Expr.ReadOf receiver ts)
        (hargs : Expr.ReadAllOf args ts') :
      Expr.Rule (.call receiver ⟨method, place⟩ args span)
        (ts ++ ⟨.mark .dot, dot⟩ :: ⟨.word method, place⟩ ::
          parenthesized opening ts' closing)
  | lambda {params : List (Located String)} {body : List Stmt} {span place : Span}
      {ts : List (Located Token)}
      (rest : Function.RestRule params body ts) :
      Expr.Rule (.lambda ⟨⟨lambdaName, place⟩, params, body, span⟩)
        (⟨.keyword .function, place⟩ :: ts)

/-- The arguments are read of the tokens between the parentheses of a call. -/
inductive Expr.ReadAllOf : List Expr → List (Located Token) → Prop
  | empty : Expr.ReadAllOf [] []
  | list {e : Expr} {es : List Expr} {ts ts' : List (Located Token)}
      (first : Expr.ReadOf e ts)
      (rest : Expr.MoreReadOf es ts') : Expr.ReadAllOf (e :: es) (ts ++ ts')

/-- The arguments after the first one. -/
inductive Expr.MoreReadOf : List Expr → List (Located Token) → Prop
  | done : Expr.MoreReadOf [] []
  | next {e : Expr} {es : List Expr} {comma : Span} {ts ts' : List (Located Token)}
      (first : Expr.ReadOf e ts)
      (rest : Expr.MoreReadOf es ts') : Expr.MoreReadOf (e :: es)
        (⟨.mark .comma, comma⟩ :: (ts ++ ts'))

/-- The parameters and the body of a function. -/
inductive Function.RestRule :
    List (Located String) → List Stmt → List (Located Token) → Prop
  | intro {params : List (Located String)} {body : List Stmt} {o c o' c' : Span}
      {ts ts' : List (Located Token)}
      (hparams : Words params ts) (hbody : Stmt.ReadAllOf body ts') :
      Function.RestRule params body (parenthesized o ts c ++ braced o' ts' c')

/-- The statement is read of the tokens, and its span covers them. -/
inductive Stmt.ReadOf : Stmt → List (Located Token) → Prop
  | intro {stmt : Stmt} {ts : List (Located Token)} (rule : Stmt.Rule stmt ts)
      (covers : stmt.span.Covers source ts) :
      Stmt.ReadOf stmt ts

/-- The rules for statements. -/
inductive Stmt.Rule : Stmt → List (Located Token) → Prop
  | branch {arms : Arms} {span place : Span} {ts : List (Located Token)}
      (harms : Arms.ReadOf arms ts) :
      Stmt.Rule (.branch arms span) (⟨.keyword .branch, place⟩ :: ts)
  | loop {test : Expr} {body : List Stmt} {span place o c o' c' : Span}
      {ts ts' : List (Located Token)}
      (htest : Expr.ReadOf test ts) (hbody : Stmt.ReadAllOf body ts') :
      Stmt.Rule (.loop test body span)
        (⟨.keyword .loop, place⟩ :: (parenthesized o ts c ++ braced o' ts' c'))
  /-- Of a `for` loop, the iterable and the body are read; the rest of the block is made
  up. -/
  | each {hidden x : String} {iterable : Expr} {body : List Stmt}
      {span place xPlace inPlace o c o' c' : Span}
      {ts ts' : List (Located Token)} (hiterable : Expr.ReadOf iterable ts)
        (hbody : Stmt.ReadAllOf body ts') :
      Stmt.Rule (.block (Parser.forBlock hidden place ⟨x, xPlace⟩ iterable body) span)
        (⟨.keyword .each, place⟩ ::
          (parenthesized o (⟨.word x, xPlace⟩ :: ⟨.word "in", inPlace⟩ :: ts) c ++
            braced o' ts' c'))
  | declare {x : String} {init : Expr} {span place xPlace equals : Span}
      {ts : List (Located Token)}
      (hinit : Expr.ReadOf init ts) :
      Stmt.Rule (.declare ⟨x, xPlace⟩ init span)
        (⟨.keyword .declare, place⟩ :: ⟨.word x, xPlace⟩ :: ⟨.mark .equals, equals⟩ :: ts)
  | assign {x : String} {value : Expr} {span xPlace equals : Span}
      {ts : List (Located Token)}
      (hvalue : Expr.ReadOf value ts) :
      Stmt.Rule (.assign ⟨x, xPlace⟩ value span)
        (⟨.word x, xPlace⟩ :: ⟨.mark .equals, equals⟩ :: ts)
  | giveBackNothing (span place : Span) : Stmt.Rule (.giveBack none span)
      [⟨.keyword .giveBack, place⟩]
  | giveBack {value : Expr} {span place : Span} {ts : List (Located Token)}
      (hvalue : Expr.ReadOf value ts) :
      Stmt.Rule (.giveBack (some value) span) (⟨.keyword .giveBack, place⟩ :: ts)
  | leave (span place : Span) : Stmt.Rule (.leave span) [⟨.keyword .leave, place⟩]
  | skip (span place : Span) : Stmt.Rule (.skip span) [⟨.keyword .skip, place⟩]
  | block {body : List Stmt} {span o c : Span} {ts : List (Located Token)}
      (hbody : Stmt.ReadAllOf body ts) :
      Stmt.Rule (.block body span) (braced o ts c)
  | expr {value : Expr} {span : Span} {ts : List (Located Token)}
      (hvalue : Expr.ReadOf value ts) :
      Stmt.Rule (.expr value span) ts

/-- The tests and bodies of an `if` statement, from its first condition on. -/
inductive Arms.ReadOf : Arms → List (Located Token) → Prop
  | test {test : Expr} {body : List Stmt} {rest : Arms} {o c o' c' : Span}
      {ts ts' ts'' : List (Located Token)}
      (htest : Expr.ReadOf test ts) (hbody : Stmt.ReadAllOf body ts')
        (hrest : Arms.MoreReadOf rest ts'') :
      Arms.ReadOf (.test test body rest)
        (parenthesized o ts c ++ (braced o' ts' c' ++ ts''))

/-- What follows a body of an `if` statement. -/
inductive Arms.MoreReadOf : Arms → List (Located Token) → Prop
  | done : Arms.MoreReadOf .done []
  | otherwise {body : List Stmt} {place o c : Span} {ts : List (Located Token)}
      (hbody : Stmt.ReadAllOf body ts) :
      Arms.MoreReadOf (.otherwise body) (⟨.keyword .otherwise, place⟩ :: braced o ts c)
  | elseIf {arms : Arms} {place place' : Span} {ts : List (Located Token)}
      (harms : Arms.ReadOf arms ts) :
      Arms.MoreReadOf arms
        (⟨.keyword .otherwise, place⟩ :: ⟨.keyword .branch, place'⟩ :: ts)

/-- The statements are read of the tokens one after the other. -/
inductive Stmt.ReadAllOf : List Stmt → List (Located Token) → Prop
  | nil : Stmt.ReadAllOf [] []
  | cons {stmt : Stmt} {stmts : List Stmt} {ts ts' : List (Located Token)}
      (first : Stmt.ReadOf stmt ts)
      (rest : Stmt.ReadAllOf stmts ts') : Stmt.ReadAllOf (stmt :: stmts) (ts ++ ts')

end

/-- The rule for functions. -/
inductive Function.Rule : Function → List (Located Token) → Prop
  | intro {w : String} {params : List (Located String)} {body : List Stmt}
      {span place wPlace : Span}
      {ts : List (Located Token)} (rest : Function.RestRule source params body ts) :
      Function.Rule ⟨⟨w, wPlace⟩, params, body, span⟩
        (⟨.keyword .function, place⟩ :: ⟨.word w, wPlace⟩ :: ts)

/-- The functions are read of the tokens one after the other, and their spans cover their
tokens. -/
inductive Function.ReadAllOf : List Function → List (Located Token) → Prop
  | nil : Function.ReadAllOf [] []
  | cons {f : Function} {fs : List Function} {ts ts' : List (Located Token)}
      (rule : Function.Rule source f ts)
      (covers : f.span.Covers source ts) (rest : Function.ReadAllOf fs ts') :
        Function.ReadAllOf (f :: fs) (ts ++ ts')

end Rules

/-! ## Tokens in a source -/

/-- Tokens that lie in a source one after the other. -/
structure Laid (source : String) (ts : List (Located Token)) : Prop where
  within : ∀ t ∈ ts, t.span.LiesIn source
  increasing : ts.Pairwise fun t u => t.span.stop ≤ u.span.start

namespace Laid

variable {source : String} {ts ts' : List (Located Token)}

theorem of_sublist (h : Laid source ts') (hsub : ts.Sublist ts') : Laid source ts :=
  ⟨fun t ht => h.within t (hsub.subset ht), h.increasing.sublist hsub⟩

theorem left (h : Laid source (ts ++ ts')) : Laid source ts :=
  h.of_sublist (List.sublist_append_left ts ts')

theorem right (h : Laid source (ts ++ ts')) : Laid source ts' :=
  h.of_sublist (List.sublist_append_right ts ts')

theorem tail {t : Located Token} (h : Laid source (t :: ts)) : Laid source ts :=
  h.of_sublist (List.sublist_cons_self t ts)

/-- No token starts before the first one. -/
theorem start_le {first t : Located Token} (h : Laid source ts)
    (hfirst : ts.head? = some first) (ht : t ∈ ts) : first.span.start ≤ t.span.start := by
  obtain ⟨rest, rfl⟩ := List.head?_eq_some_iff.mp hfirst
  rcases List.mem_cons.mp ht with rfl | hlater
  · exact Nat.le_refl _
  · have hstop := (List.pairwise_cons.mp h.increasing).1 t hlater
    have hbounds := (h.within first List.mem_cons_self).bounds.1
    omega

/-- No token stops after the last one. -/
theorem stop_le {last t : Located Token} (h : Laid source ts)
    (hlast : ts.getLast? = some last) (ht : t ∈ ts) : t.span.stop ≤ last.span.stop := by
  obtain ⟨front, rfl⟩ := List.getLast?_eq_some_iff.mp hlast
  rcases List.mem_append.mp ht with hearlier | hsame
  · have hstop := (List.pairwise_append.mp h.increasing).2.2 t hearlier last
      (List.mem_singleton_self last)
    have hbounds :=
      (h.within last (List.mem_append_right _ (List.mem_singleton_self last))).bounds.1
    omega
  · exact List.mem_singleton.mp hsame ▸ Nat.le_refl _

end Laid

namespace Span.Covers

variable {source : String} {ts ts' : List (Located Token)} {span : Span}

/-- A span that covers some tokens, merged with a later token, covers all tokens up to
that one. -/
theorem merge {last : Located Token} (h : span.Covers source ts)
    (hlaid : Laid source (ts ++ ts')) (hlast : (ts ++ ts').getLast? = some last) :
    (span.merge last.span).Covers source (ts ++ ts') := by
  obtain ⟨first, middle, hfirst, hmiddle, hstart, hstop, hposition⟩ := h
  have hhead : (ts ++ ts').head? = some first := by
    rw [List.head?_append, hfirst, Option.some_or]
  have hle : span.start ≤ last.span.start := by
    rw [hstart]
    exact hlaid.start_le hhead (List.mem_of_getLast? hlast)
  have hle' : span.stop ≤ last.span.stop := by
    rw [hstop]
    exact hlaid.stop_le hlast (List.mem_append_left _ (List.mem_of_getLast? hmiddle))
  rw [Span.merge_eq, if_pos hle, Nat.max_eq_right hle']
  exact ⟨first, last, hhead, hlast, hstart, rfl, hposition⟩

theorem singleton {t : Located Token} (h : t.span.LiesIn source) :
    t.span.Covers source [t] :=
  ⟨t, t, rfl, rfl, rfl, rfl, h.bounds.2.2⟩

end Span.Covers

/-! ## Trees at their places -/

/-- Tokens that lie in a source at the given places. -/
structure Stands (source : String) (spans : Places) (ts : List (Located Token)) :
    Prop extends Laid source ts where
  places : ∀ {i t}, ts[i]? = some t → spans i = t.span

namespace Stands

variable {source : String} {spans : Places} {ts : List (Located Token)}
  {nodes : List Token}

theorem place_eq {i : Nat} {t : Token} {place : Span} (h : Stands source spans ts)
    (ht : ts[i]? = some ⟨t, place⟩) : spans i = place :=
  h.places ht

theorem left {ts' : List (Located Token)} (h : Stands source spans (ts ++ ts')) :
    Stands source spans ts := by
  refine ⟨h.toLaid.left, fun {i t} ht => h.places ?_⟩
  rw [List.getElem?_append_left (List.getElem?_eq_some_iff.mp ht).1, ht]

theorem right {ts' : List (Located Token)} (h : Stands source spans (ts ++ ts'))
    (hnodes : ts.map Located.node = nodes) : Stands source (spans.past nodes) ts' := by
  refine ⟨h.toLaid.right, fun {i t} ht => h.places ?_⟩
  rw [← hnodes, List.length_map, List.getElem?_append_right (Nat.le_add_right _ _),
    Nat.add_sub_cancel_left, ht]

/-- The tokens between some of them stand at the places that come after the first ones. -/
theorem part {inside : List (Located Token)} (h : Stands source spans ts)
    (before after : List (Located Token)) (hts : ts = before ++ (inside ++ after))
    (hnodes : before.map Located.node = nodes) :
    Stands source (spans.past nodes) inside := by
  subst hts
  exact (h.right hnodes).left

theorem last_eq {last : Located Token} (h : Stands source spans ts)
    (hnodes : ts.map Located.node = nodes) (hlast : ts.getLast? = some last)
    (previous : Span) : spans.last previous nodes = last.span := by
  rw [List.getLast?_eq_getElem?] at hlast
  rw [← h.places hlast, ← hnodes]
  cases ts with
  | nil => cases hlast
  | cons t rest =>
      rw [List.map_cons, Places.last, List.length_map]
      rfl

/-- What is said to cover the tokens of a tree does so. -/
theorem covers (h : Stands source spans ts) (hnodes : ts.map Located.node = nodes)
    (hne : ts ≠ []) : (spans.cover nodes).Covers source ts := by
  obtain ⟨last, hlast⟩ := Option.ne_none_iff_exists'.mp
    (mt List.getLast?_eq_none_iff.mp hne)
  obtain ⟨first, rest, rfl⟩ := List.exists_cons_of_ne_nil hne
  have hfirst := Span.Covers.singleton (h.within first List.mem_cons_self)
  have hplace : spans 0 = first.span := h.places rfl
  rw [Places.cover, h.last_eq hnodes hlast, hplace]
  exact hfirst.merge h.toLaid hlast

end Stands

theorem exists_of_map_cons {ts : List (Located Token)} {t : Token} {nodes : List Token}
    (h : ts.map Located.node = t :: nodes) :
    ∃ place rest, ts = ⟨t, place⟩ :: rest ∧ rest.map Located.node = nodes := by
  obtain ⟨⟨node, place⟩, rest, rfl, rfl, hrest⟩ := List.map_eq_cons_iff.mp h
  exact ⟨place, rest, rfl, hrest⟩

theorem exists_of_map_enclosed {ts : List (Located Token)} {a b : Token}
    {inner nodes : List Token} (h : ts.map Located.node = a :: (inner ++ [b]) ++ nodes) :
    ∃ o inside c rest, ts = ⟨a, o⟩ :: (inside ++ [⟨b, c⟩]) ++ rest ∧
        inside.map Located.node = inner ∧
      rest.map Located.node = nodes := by
  obtain ⟨o, ts, rfl, htail⟩ := exists_of_map_cons h
  obtain ⟨front, rest, rfl, hfront, hrest⟩ := List.map_eq_append_iff.mp htail
  obtain ⟨inside, closing, rfl, hinside, hclosing⟩ := List.map_eq_append_iff.mp hfront
  obtain ⟨c, nothing, rfl, hnothing⟩ := exists_of_map_cons hclosing
  rw [List.map_eq_nil_iff.mp hnothing]
  exact ⟨o, inside, c, rest, rfl, hinside, hrest⟩

theorem exists_of_map_parens {ts : List (Located Token)} {inner nodes : List Token}
    (h : ts.map Located.node = Grammar.parens inner ++ nodes) :
    ∃ o inside c rest, ts = parenthesized o inside c ++ rest ∧
        inside.map Located.node = inner ∧
      rest.map Located.node = nodes :=
  exists_of_map_enclosed h

theorem exists_of_map_braces {ts : List (Located Token)} {inner nodes : List Token}
    (h : ts.map Located.node = Grammar.braces inner ++ nodes) :
    ∃ o inside c rest, ts = braced o inside c ++ rest ∧ inside.map Located.node = inner ∧
      rest.map Located.node = nodes :=
  exists_of_map_enclosed h

theorem exists_of_map_parens_end {ts : List (Located Token)} {inner : List Token}
    (h : ts.map Located.node = Grammar.parens inner) :
    ∃ o inside c, ts = parenthesized o inside c ∧ inside.map Located.node = inner := by
  obtain ⟨o, inside, c, rest, rfl, hinside, hrest⟩ :=
    exists_of_map_parens (h.trans (List.append_nil _).symm)
  rw [List.map_eq_nil_iff.mp hrest, List.append_nil]
  exact ⟨o, inside, c, rfl, hinside⟩

theorem exists_of_map_braces_end {ts : List (Located Token)} {inner : List Token}
    (h : ts.map Located.node = Grammar.braces inner) :
    ∃ o inside c, ts = braced o inside c ∧ inside.map Located.node = inner := by
  obtain ⟨o, inside, c, rest, rfl, hinside, hrest⟩ :=
    exists_of_map_braces (h.trans (List.append_nil _).symm)
  rw [List.map_eq_nil_iff.mp hrest, List.append_nil]
  exact ⟨o, inside, c, rfl, hinside⟩

namespace Grammar

section Trees

variable {source : String} {spans : Places} {ts : List (Located Token)}

theorem moreWords_placeWords (ws : List String) (h : ts.map Located.node = moreWords ws)
    (hts : Stands source spans ts) :
    MoreWords (placeWords ws (spans.past [.mark .comma])) ts := by
  induction ws generalizing ts spans with
  | nil =>
      obtain rfl := List.map_eq_nil_iff.mp h
      exact .done
  | cons w ws ih =>
      obtain ⟨comma, ts, rfl, htail⟩ := exists_of_map_cons h
      obtain ⟨place, rest, rfl, hrest⟩ := exists_of_map_cons htail
      obtain rfl : spans 1 = place := hts.place_eq rfl
      have hmore := ih hrest
        (hts.part [⟨.mark .comma, comma⟩, ⟨.word w, spans 1⟩] [] (by simp) rfl)
      rw [Places.past_past] at hmore
      rw [placeWords, Places.past_past]
      exact .next hmore

theorem words_placeWords (ws : List String) (h : ts.map Located.node = words ws)
    (hts : Stands source spans ts) : Words (placeWords ws spans) ts := by
  cases ws with
  | nil =>
      obtain rfl := List.map_eq_nil_iff.mp h
      exact .empty
  | cons w ws =>
      obtain ⟨place, rest, rfl, hrest⟩ := exists_of_map_cons h
      obtain rfl : spans 0 = place := hts.place_eq rfl
      have hmore := moreWords_placeWords ws hrest
        (hts.part [⟨.word w, spans 0⟩] [] (by simp) rfl)
      rw [Places.past_past] at hmore
      exact .list hmore

mutual

/-- What an expression denotes at its places is read of its tokens. -/
theorem Expr.place_readOf (tree : Expr) {spans : Places} {ts : List (Located Token)}
    (h : ts.map Located.node = tree.yield) (hts : Stands source spans ts) (n : Nat) :
    (tree.place spans n).1.ReadOf source ts := by
  match tree with
  | .chain head calls =>
      obtain ⟨hs, cs, rfl, hhead, hcalls⟩ := List.map_eq_append_iff.mp h
      have hreceiver := head.place_readOf hhead hts.left n
      exact calls.place_readOf hcalls hts.toLaid (hts.right hhead) hreceiver _
termination_by structural tree

theorem Primary.place_readOf (tree : Primary) {spans : Places} {ts : List (Located Token)}
    (h : ts.map Located.node = tree.yield) (hts : Stands source spans ts) (n : Nat) :
    (tree.place spans n).1.ReadOf source ts := by
  match tree with
  | .literal value =>
      obtain ⟨place, rest, rfl, hrest⟩ := exists_of_map_cons h
      obtain rfl := List.map_eq_nil_iff.mp hrest
      obtain rfl : spans 0 = place := hts.place_eq rfl
      exact .intro (.literal value _ _) (.singleton (hts.within _ List.mem_cons_self))
  | .name w =>
      obtain ⟨place, rest, rfl, hrest⟩ := exists_of_map_cons h
      obtain rfl := List.map_eq_nil_iff.mp hrest
      obtain rfl : spans 0 = place := hts.place_eq rfl
      exact .intro (.name w _ _) (.singleton (hts.within _ List.mem_cons_self))
  | .call w args =>
      have hcovers := hts.covers h (by rintro rfl; cases h)
      obtain ⟨place, rest, rfl, hrest⟩ := exists_of_map_cons h
      obtain ⟨o, inside, c, rfl, hinside⟩ := exists_of_map_parens_end hrest
      obtain rfl : spans 0 = place := hts.place_eq rfl
      have hargs := args.place_readAllOf hinside
        (hts.part [⟨.word w, spans 0⟩, ⟨.mark .openParen, o⟩]
          [⟨.mark .closeParen, c⟩] rfl rfl) n
      exact .intro (.bareCall hargs) hcovers
  | .lambda params body =>
      have hcovers := hts.covers h (by rintro rfl; cases h)
      obtain ⟨place, rest, rfl, htail⟩ := exists_of_map_cons h
      obtain ⟨o, ps, c, rest, rfl, hps, hrest⟩ := exists_of_map_parens htail
      obtain ⟨o', bs, c', rfl, hbs⟩ := exists_of_map_braces_end hrest
      obtain rfl : spans 0 = place := hts.place_eq rfl
      have hparams := words_placeWords params hps
        (hts.part [⟨.keyword .function, spans 0⟩, ⟨.mark .openParen, o⟩]
            (⟨.mark .closeParen, c⟩ :: braced o' bs c')
          (by simp [parenthesized]) rfl)
      refine .intro (.lambda (.intro hparams (body.place_readAllOf hbs ?_ n))) hcovers
      exact hts.part (⟨.keyword .function, spans 0⟩ ::
          (parenthesized o ps c ++ [⟨.mark .openBrace, o'⟩]))
        [⟨.mark .closeBrace, c'⟩] (by simp [braced])
          (by simp [parenthesized, parens, hps])
termination_by structural tree

theorem Calls.place_readOf (tree : Calls) {spans : Places} {rs ts : List (Located Token)}
    (h : ts.map Located.node = tree.yield) (hlaid : Laid source (rs ++ ts))
    (hts : Stands source spans ts) {receiver : HandleScript.Expr}
    (hreceiver : receiver.ReadOf source rs) (n : Nat) :
    (tree.place receiver spans n).1.ReadOf source (rs ++ ts) := by
  match tree with
  | .done =>
      obtain rfl := List.map_eq_nil_iff.mp h
      rw [List.append_nil]
      exact hreceiver
  | .next method args rest =>
      obtain ⟨dot, tail, rfl, htail⟩ := exists_of_map_cons h
      obtain ⟨place, tail, rfl, htail'⟩ := exists_of_map_cons htail
      obtain ⟨o, inside, c, tail, rfl, hinside, hrest⟩ := exists_of_map_parens htail'
      obtain rfl : spans 1 = place := hts.place_eq rfl
      have hargs := args.place_readAllOf hinside
        (hts.part [⟨.mark .dot, dot⟩, ⟨.word method, spans 1⟩, ⟨.mark .openParen, o⟩]
            (⟨.mark .closeParen, c⟩ :: tail)
          (by simp [parenthesized]) rfl) n
      -- The tokens of this call, and then those of the calls that follow it.
      let call := ⟨.mark .dot, dot⟩ :: ⟨.word method, spans 1⟩ :: parenthesized o inside c
      have hcall : call.map Located.node = .mark .dot ::
          .word method :: parens args.yield := by
        simp [call, parenthesized, parens, hinside]
      have hlast : call.getLast? = some ⟨.mark .closeParen, c⟩ := by
        simp only [call, parenthesized, List.getLast?_cons, List.getLast?_append]
        rfl
      have hcalls : Stands source spans (call ++ tail) := hts
      have hspan : spans.last receiver.span
          (.mark .dot :: .word method :: parens args.yield) = c :=
        hcalls.left.last_eq hcall hlast _
      have hlaid' : Laid source (rs ++ call ++ tail) := by
        rwa [List.append_assoc]
      have hcovers : (receiver.span.merge c).Covers source (rs ++ call) := by
        obtain ⟨-, covers⟩ := hreceiver
        exact covers.merge hlaid'.left (by rw [List.getLast?_append, hlast]; rfl)
      have hnext := rest.place_readOf hrest hlaid' (hcalls.right hcall)
        (.intro (.call hreceiver hargs) (hspan ▸ hcovers))
      rw [List.append_assoc] at hnext
      exact hnext _
termination_by structural tree

theorem Args.place_readAllOf (tree : Args) {spans : Places} {ts : List (Located Token)}
    (h : ts.map Located.node = tree.yield) (hts : Stands source spans ts) (n : Nat) :
    Expr.ReadAllOf source (tree.place spans n).1 ts := by
  match tree with
  | .empty =>
      obtain rfl := List.map_eq_nil_iff.mp h
      exact .empty
  | .list first rest =>
      obtain ⟨fs, rs, rfl, hfirst, hrest⟩ := List.map_eq_append_iff.mp h
      exact .list (first.place_readOf hfirst hts.left n)
        (rest.place_moreReadOf hrest (hts.right hfirst) _)
termination_by structural tree

theorem MoreArgs.place_moreReadOf (tree : MoreArgs) {spans : Places}
    {ts : List (Located Token)} (h : ts.map Located.node = tree.yield)
    (hts : Stands source spans ts) (n : Nat) :
    Expr.MoreReadOf source (tree.place spans n).1 ts := by
  match tree with
  | .done =>
      obtain rfl := List.map_eq_nil_iff.mp h
      exact .done
  | .next arg rest =>
      obtain ⟨comma, ts, rfl, htail⟩ := exists_of_map_cons h
      obtain ⟨fs, rs, rfl, hfirst, hrest⟩ := List.map_eq_append_iff.mp htail
      exact .next (arg.place_readOf hfirst
          (hts.part [⟨.mark .comma, comma⟩] rs rfl rfl) n)
        (rest.place_moreReadOf hrest
          (hts.part (⟨.mark .comma, comma⟩ :: fs) [] (by simp) (by simp [hfirst])) _)
termination_by structural tree

theorem Stmt.place_readOf (tree : Stmt) {spans : Places} {ts : List (Located Token)}
    (h : ts.map Located.node = tree.yield) (hts : Stands source spans ts) (n : Nat) :
    (tree.place spans n).1.ReadOf source ts := by
  have hne : ts ≠ [] := by
    rintro rfl
    have hpos := tree.length_pos
    rw [← h] at hpos
    cases hpos
  have hcovers := hts.covers h hne
  match tree with
  | .branch arms =>
      obtain ⟨place, rest, rfl, hrest⟩ := exists_of_map_cons h
      have harms := arms.place_readOf hrest
        (hts.part [⟨.keyword .branch, place⟩] [] (by simp) rfl) n
      exact .intro (.branch harms) hcovers
  | .loop condition body =>
      obtain ⟨place, rest, rfl, htail⟩ := exists_of_map_cons h
      obtain ⟨o, cs, c, rest, rfl, hcs, hrest⟩ := exists_of_map_parens htail
      obtain ⟨o', bs, c', rfl, hbs⟩ := exists_of_map_braces_end hrest
      have htest := condition.place_readOf hcs
        (hts.part [⟨.keyword .loop, place⟩, ⟨.mark .openParen, o⟩]
            (⟨.mark .closeParen, c⟩ :: braced o' bs c')
          (by simp [parenthesized]) rfl) n
      refine .intro (.loop htest (body.place_readAllOf hbs ?_ _)) hcovers
      exact hts.part
          (⟨.keyword .loop, place⟩ :: (parenthesized o cs c ++ [⟨.mark .openBrace, o'⟩]))
        [⟨.mark .closeBrace, c'⟩] (by simp [braced])
          (by simp [parenthesized, parens, hcs])
  | .each x iterable body =>
      obtain ⟨place, rest, rfl, htail⟩ := exists_of_map_cons h
      obtain ⟨o, inside, c, rest, rfl, hinside, hrest⟩ := exists_of_map_parens htail
      obtain ⟨xPlace, inside, rfl, hin⟩ := exists_of_map_cons hinside
      obtain ⟨inPlace, is, rfl, his⟩ := exists_of_map_cons hin
      obtain ⟨o', bs, c', rfl, hbs⟩ := exists_of_map_braces_end hrest
      obtain rfl : spans 0 = place := hts.place_eq rfl
      obtain rfl : spans 2 = xPlace := hts.place_eq rfl
      have hiterable := iterable.place_readOf his
        (hts.part [⟨.keyword .each, spans 0⟩, ⟨.mark .openParen, o⟩,
            ⟨.word x, spans 2⟩, ⟨.word "in", inPlace⟩]
          (⟨.mark .closeParen, c⟩ :: braced o' bs c') (by simp [parenthesized]) rfl) n
      refine .intro (.each hiterable (body.place_readAllOf hbs ?_ _)) hcovers
      exact hts.part (⟨.keyword .each, spans 0⟩ ::
          (parenthesized o (⟨.word x, spans 2⟩ :: ⟨.word "in", inPlace⟩ :: is) c ++
            [⟨.mark .openBrace, o'⟩]))
        [⟨.mark .closeBrace, c'⟩] (by simp [braced])
          (by simp [parenthesized, parens, his])
  | .declare x init =>
      obtain ⟨place, rest, rfl, htail⟩ := exists_of_map_cons h
      obtain ⟨xPlace, rest, rfl, htail'⟩ := exists_of_map_cons htail
      obtain ⟨equals, rest, rfl, hrest⟩ := exists_of_map_cons htail'
      obtain rfl : spans 1 = xPlace := hts.place_eq rfl
      have hinit := init.place_readOf hrest
        (hts.part [⟨.keyword .declare, place⟩, ⟨.word x, spans 1⟩,
          ⟨.mark .equals, equals⟩] [] (by simp) rfl) n
      exact .intro (.declare hinit) hcovers
  | .giveBack value =>
      obtain ⟨place, rest, rfl, hrest⟩ := exists_of_map_cons h
      have hvalue := value.place_readOf hrest
        (hts.part [⟨.keyword .giveBack, place⟩] [] (by simp) rfl) n
      exact .intro (.giveBack hvalue) hcovers
  | .leave =>
      obtain ⟨place, rest, rfl, hrest⟩ := exists_of_map_cons h
      obtain rfl := List.map_eq_nil_iff.mp hrest
      exact .intro (.leave _ place) hcovers
  | .skip =>
      obtain ⟨place, rest, rfl, hrest⟩ := exists_of_map_cons h
      obtain rfl := List.map_eq_nil_iff.mp hrest
      exact .intro (.skip _ place) hcovers
  | .block body =>
      obtain ⟨o, bs, c, rfl, hbs⟩ := exists_of_map_braces_end h
      have hbody := body.place_readAllOf hbs
        (hts.part [⟨.mark .openBrace, o⟩] [⟨.mark .closeBrace, c⟩] rfl rfl) n
      exact .intro (.block hbody) hcovers
  | .assign x value =>
      obtain ⟨xPlace, rest, rfl, htail⟩ := exists_of_map_cons h
      obtain ⟨equals, rest, rfl, hrest⟩ := exists_of_map_cons htail
      obtain rfl : spans 0 = xPlace := hts.place_eq rfl
      have hvalue := value.place_readOf hrest
        (hts.part [⟨.word x, spans 0⟩, ⟨.mark .equals, equals⟩] [] (by simp) rfl) n
      exact .intro (.assign hvalue) hcovers
  | .expr value => exact .intro (.expr (value.place_readOf h hts n)) hcovers
termination_by structural tree

theorem Arms.place_readOf (tree : Arms) {spans : Places} {ts : List (Located Token)}
    (h : ts.map Located.node = tree.yield) (hts : Stands source spans ts) (n : Nat) :
    (tree.place spans n).1.ReadOf source ts := by
  match tree with
  | .arm condition body rest =>
      obtain ⟨o, cs, c, tail, rfl, hcs, htail⟩ := exists_of_map_parens h
      obtain ⟨o', bs, c', tail, rfl, hbs, hrest⟩ := exists_of_map_braces htail
      have htest := condition.place_readOf hcs
        (hts.part [⟨.mark .openParen, o⟩]
            (⟨.mark .closeParen, c⟩ :: (braced o' bs c' ++ tail))
          (by simp [parenthesized]) rfl) n
      refine .test htest (body.place_readAllOf hbs ?_ _)
        (rest.place_moreReadOf hrest ?_ _)
      · exact hts.part (parenthesized o cs c ++ [⟨.mark .openBrace, o'⟩])
            (⟨.mark .closeBrace, c'⟩ :: tail)
          (by simp [braced]) (by simp [parenthesized, parens, hcs])
      · exact hts.part (parenthesized o cs c ++ braced o' bs c') [] (by simp)
          (by simp [parenthesized, parens, hcs, braced, braces, hbs])
termination_by structural tree

theorem MoreArms.place_moreReadOf (tree : MoreArms) {spans : Places}
    {ts : List (Located Token)} (h : ts.map Located.node = tree.yield)
    (hts : Stands source spans ts) (n : Nat) :
    (tree.place spans n).1.MoreReadOf source ts := by
  match tree with
  | .done =>
      obtain rfl := List.map_eq_nil_iff.mp h
      exact .done
  | .otherwise body =>
      obtain ⟨place, tail, rfl, htail⟩ := exists_of_map_cons h
      obtain ⟨o, bs, c, rfl, hbs⟩ := exists_of_map_braces_end htail
      exact .otherwise (body.place_readAllOf hbs
        (hts.part [⟨.keyword .otherwise, place⟩, ⟨.mark .openBrace, o⟩]
          [⟨.mark .closeBrace, c⟩] rfl rfl) n)
  | .elseIf arms =>
      obtain ⟨place, tail, rfl, htail⟩ := exists_of_map_cons h
      obtain ⟨place', tail, rfl, harms⟩ := exists_of_map_cons htail
      exact .elseIf (arms.place_readOf harms
        (hts.part [⟨.keyword .otherwise, place⟩, ⟨.keyword .branch, place'⟩] []
          (by simp) rfl) n)
termination_by structural tree

theorem Stmts.place_readAllOf (tree : Stmts) {spans : Places} {ts : List (Located Token)}
    (h : ts.map Located.node = tree.yield) (hts : Stands source spans ts) (n : Nat) :
    Stmt.ReadAllOf source (tree.place spans n).1 ts := by
  match tree with
  | .done =>
      obtain rfl := List.map_eq_nil_iff.mp h
      exact .nil
  | .giveBack =>
      have hcovers := hts.covers h (by rintro rfl; cases h)
      obtain ⟨place, rest, rfl, hrest⟩ := exists_of_map_cons h
      obtain rfl := List.map_eq_nil_iff.mp hrest
      have hfirst := Stmt.ReadOf.intro (.giveBackNothing _ place) hcovers
      exact .cons hfirst .nil
  | .cons stmt rest =>
      obtain ⟨fs, rs, rfl, hfirst, hrest⟩ := List.map_eq_append_iff.mp h
      exact .cons (stmt.place_readOf hfirst hts.left n)
        (rest.place_readAllOf hrest (hts.right hfirst) _)
termination_by structural tree

end

theorem Function.place_rule (tree : Function) (h : ts.map Located.node = tree.yield)
    (hts : Stands source spans ts) (n : Nat) :
    (tree.place spans n).1.Rule source ts ∧
      (tree.place spans n).1.span.Covers source ts := by
  have hcovers := hts.covers h (by rintro rfl; cases h)
  obtain ⟨place, rest, rfl, htail⟩ := exists_of_map_cons h
  obtain ⟨wPlace, rest, rfl, htail'⟩ := exists_of_map_cons htail
  obtain ⟨o, ps, c, rest, rfl, hps, hrest⟩ := exists_of_map_parens htail'
  obtain ⟨o', bs, c', rfl, hbs⟩ := exists_of_map_braces_end hrest
  obtain rfl : spans 1 = wPlace := hts.place_eq rfl
  have hparams := words_placeWords tree.params hps
    (hts.part [⟨.keyword .function, place⟩, ⟨.word tree.name, spans 1⟩,
        ⟨.mark .openParen, o⟩]
      (⟨.mark .closeParen, c⟩ :: braced o' bs c') (by simp [parenthesized]) rfl)
  refine ⟨.intro (.intro hparams (tree.body.place_readAllOf hbs ?_ n)), hcovers⟩
  exact hts.part (⟨.keyword .function, place⟩ :: ⟨.word tree.name, spans 1⟩ ::
      (parenthesized o ps c ++ [⟨.mark .openBrace, o'⟩]))
    [⟨.mark .closeBrace, c'⟩] (by simp [braced]) (by simp [parenthesized, parens, hps])

theorem Function.placeAll_readAllOf (trees : List Function)
    (h : ts.map Located.node = trees.flatMap yield) (hts : Stands source spans ts)
    (n : Nat) : Function.ReadAllOf source (placeAll trees spans n).1 ts := by
  induction trees generalizing ts spans n with
  | nil =>
      obtain rfl := List.map_eq_nil_iff.mp h
      exact .nil
  | cons tree trees ih =>
      rw [List.flatMap_cons] at h
      obtain ⟨fs, rs, rfl, hfirst, hrest⟩ := List.map_eq_append_iff.mp h
      obtain ⟨hrule, hcovers⟩ := tree.place_rule hfirst hts.left n
      exact .cons hrule hcovers (ih hrest (hts.right hfirst) _)

end Trees

end Grammar

/-! ## Sources -/

section Sources

variable {source : String} {tokens : List (Located Token)}

theorem Lexer.laid_of_tokenize (h : tokenize source = .ok tokens) :
    Laid source tokens := by
  have hwithin := tokenize_liesIn source
  rw [h] at hwithin
  obtain ⟨segments, -, rfl⟩ := Lexer.tokenize_eq_ok_iff.mp h
  exact ⟨hwithin, Lexer.pairwise_placed [] segments⟩

theorem stands_placesOf (h : Laid source tokens) :
    Stands source (placesOf (tokens ++ [])) tokens := by
  refine ⟨h, fun {i t} ht => ?_⟩
  rw [List.append_nil, placesOf, ht]
  rfl

theorem parseStatements_readAllOf {stmts : List Stmt} (h : Laid source tokens)
    (hparse : parseStatements source tokens = .ok stmts) :
    Stmt.ReadAllOf source stmts tokens := by
  obtain ⟨tree, hyield, rfl⟩ := parseStatements_place hparse []
  exact tree.place_readAllOf hyield.symm (stands_placesOf h) 0

theorem parseProgram_readAllOf {program : Program} (h : Laid source tokens)
    (hparse : parseProgram source tokens = .ok program) :
    Function.ReadAllOf source program.functions tokens := by
  obtain ⟨tree, hyield, hfunctions⟩ := parseProgram_place hparse []
  rw [← hfunctions]
  exact Grammar.Function.placeAll_readAllOf tree.functions hyield.symm
    (stands_placesOf h) 0

end Sources

end HandleScript
