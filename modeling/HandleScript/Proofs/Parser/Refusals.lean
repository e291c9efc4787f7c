import HandleScript.Proofs.Parser.Completeness
import HandleScript.Proofs.Parser.Lookahead

/-!
# Where the parser reports an error

The error of tokens that are rejected stands at the first token that cannot go on: the
tokens before it begin an accepted sequence, and the tokens up to it do not. There is one
exception. A `fun` that no opening parenthesis follows is reported itself where an
expression is expected, although a `fun` can stand there.
-/

namespace HandleScript

/-- A parser of the tokens of a source text. -/
abbrev SourceParser (α : Type) :=
  String → List (Located Token) → Except (Located GrammarError) α

/-- The place of the token with the index `i`, or the end of the source text if there is
no such token. -/
def placeOf (source : String) (tokens : List (Located Token)) (i : Nat) : Span :=
  (tokens[i]?.map Located.span).getD (Parser.start source tokens).ending

namespace SourceParser

variable {α β : Type}

/-- The parser accepts the tokens, at some places. -/
def Accepts (parse : SourceParser α) (ts : List Token) : Prop :=
  ∃ source tokens result, tokens.map Located.node = ts ∧ parse source tokens = .ok result

/-- The tokens begin a sequence that the parser accepts. -/
def Viable (parse : SourceParser α) (ts : List Token) : Prop :=
  ∃ more, parse.Accepts (ts ++ more)

/-- Wherever the tokens stand, the parser rejects them with an error at the token with the
index `i`, or at the end of the source text when `i` is their number. -/
def RefusesAt (parse : SourceParser α) (ts : List Token) (i : Nat) : Prop :=
  i ≤ ts.length ∧ ∀ source tokens, tokens.map Located.node = ts →
    ∃ cause, parse source tokens = .error ⟨cause, placeOf source tokens i⟩

/-- The token with the index `i` is a `fun` where an expression can begin with `fun (`,
but no opening parenthesis follows it. The token after it cannot go on. -/
structure LoneFunction (parse : SourceParser α) (ts : List Token) (i : Nat) : Prop where
  function : ts[i]? = some (.keyword .function)
  position : parse.Viable (ts.take i ++ [.keyword .function, .mark .openParen])
  next : ts[i + 1]? ≠ some (.mark .openParen)
  blocked : i + 1 < ts.length → ¬ parse.Viable (ts.take (i + 2))

/-- The parser rejects the tokens at the index `i`, where they first cannot go on. -/
structure FirstFault (parse : SourceParser α) (ts : List Token) (i : Nat) : Prop where
  refused : parse.RefusesAt ts i
  viable : parse.Viable (ts.take i)
  blocked : i < ts.length → ¬ parse.Viable (ts.take (i + 1)) ∨ parse.LoneFunction ts i
  ending : i = ts.length → parse.Viable ts ∧ ¬ parse.Accepts ts

/-! ## Places that tell tokens apart -/

/-- Places that differ from each other, and from the end of an empty text. -/
def apart : Places :=
  fun i => ⟨i, i + 1, 0, 0⟩

theorem getElem?_locate (spans : Places) (ts : List Token) (i : Nat) :
    (locate spans ts)[i]? = ts[i]?.map fun t => ⟨t, spans i⟩ := by
  induction ts generalizing spans i with
  | nil => rfl
  | cons t ts ih =>
      cases i with
      | zero => rfl
      | succ i =>
          rw [locate, List.getElem?_cons_succ, List.getElem?_cons_succ, ih, Places.past,
            List.length_singleton, Nat.add_comm 1 i]

theorem min_eq_of_placeOf_apart {ts : List Token} {i j : Nat}
    (h : placeOf "" (locate apart ts) i = placeOf "" (locate apart ts) j) :
    min i ts.length = min j ts.length := by
  have hstop (i : Nat) : (placeOf "" (locate apart ts) i).stop = if i < ts.length then
      i + 1 else 0 := by
    rw [placeOf, getElem?_locate]
    split
    case isTrue hi => rw [List.getElem?_eq_getElem hi]; rfl
    case isFalse hi => rw [List.getElem?_eq_none (Nat.le_of_not_gt hi)]; rfl
  have hstops := congrArg Span.stop h
  rw [hstop, hstop] at hstops
  split at hstops <;> split at hstops <;> omega

/-! ## Parsers that follow the table -/

open Grammar (Goal parseAll)

/-- The parser reads a part of speech as the table has it. -/
structure Reads (parse : SourceParser α) (g : Goal) : Prop where
  ok : ∀ source spans ts, (∃ result, parse source (locate spans ts) = .ok result) ↔
    ∃ tree stop, parseAll ts g 0 = .read tree stop
  error : ∀ source spans ts e, parse source (locate spans ts) = .error e ↔
    ∃ place cause, parseAll ts g 0 = .refused place cause ∧
      (Parser.Source.ofText source spans ts).error place cause = e
  complete : ∀ tree, parseAll (g.yield tree) g 0 = .read tree (g.yield tree).length

theorem reads_statements : Reads parseStatements .statements where
  ok source spans ts := by
    constructor
    · rintro ⟨result, h⟩
      obtain ⟨tree, stop, hread, -⟩ := parseStatements_eq_ok.1 h
      exact ⟨tree, stop, hread⟩
    · rintro ⟨tree, stop, hread⟩
      exact ⟨_, parseStatements_eq_ok.2 ⟨tree, stop, hread, rfl⟩⟩
  error source spans ts e := parseStatements_eq_error
  complete := Grammar.parseAll_statements

theorem reads_functions : Reads parseProgram .functions where
  ok source spans ts := by
    constructor
    · rintro ⟨result, h⟩
      obtain ⟨fs, stop, hread, -⟩ := parseProgram_eq_ok.1 h
      exact ⟨fs, stop, hread⟩
    · rintro ⟨fs, stop, hread⟩
      exact ⟨⟨_⟩, parseProgram_eq_ok.2 ⟨fs, stop, hread, rfl⟩⟩
  error source spans ts e := parseProgram_eq_error
  complete fs := Grammar.parseAll_functions ⟨fs⟩

theorem placeAt_ofText (source : String) (tokens : List (Located Token)) (i : Nat) :
    (Parser.Source.ofText source (placesOf tokens) (tokens.map Located.node)).placeAt i =
      placeOf source tokens i := by
  change (if i < (tokens.map Located.node).length then placesOf tokens i else
    (Parser.start source tokens).ending) = _
  rw [List.length_map, placesOf, placeOf]
  by_cases hi : i < tokens.length
  · rw [if_pos hi, List.getElem?_eq_getElem hi]
    rfl
  · rw [if_neg hi, List.getElem?_eq_none (Nat.not_lt.1 hi)]
    rfl

namespace Reads

variable {parse : SourceParser α} {g : Goal} {ts us : List Token}
  {i : Nat} {cause : Grammar.Fault}

theorem accepts_iff (h : Reads parse g) :
    parse.Accepts ts ↔ ∃ tree stop, parseAll ts g 0 = .read tree stop := by
  constructor
  · rintro ⟨source, tokens, result, rfl, hparse⟩
    rw [← locate_nodes tokens] at hparse
    exact (h.ok _ _ _).1 ⟨result, hparse⟩
  · intro hread
    obtain ⟨result, hparse⟩ := (h.ok "" apart ts).2 hread
    exact ⟨"", locate apart ts, result, map_node_locate apart ts, hparse⟩

theorem refusesAt (h : Reads parse g) (hrefused : parseAll ts g 0 = .refused i cause) :
    parse.RefusesAt ts i := by
  have hfaithful := Grammar.parseAll_faithful ts g 0
  rw [hrefused] at hfaithful
  obtain ⟨us, tree, rfl, hus, -⟩ := hfaithful
  refine ⟨by simpa using hus.length_le, ?_⟩
  rintro source tokens rfl
  have hparse := (h.error source (placesOf tokens) _ _).2 ⟨_, cause, hrefused, rfl⟩
  rw [locate_nodes] at hparse
  rw [← placeAt_ofText]
  cases cause <;> exact ⟨_, hparse⟩

theorem viable (h : Reads parse g) (hrefused : parseAll ts g 0 = .refused i cause) :
    parse.Viable (ts.take i) := by
  have hfaithful := Grammar.parseAll_faithful ts g 0
  rw [hrefused] at hfaithful
  obtain ⟨us, tree, rfl, hus, more, hmore⟩ := hfaithful
  rw [List.drop_zero, List.prefix_iff_eq_take] at hus
  rw [Nat.zero_add, ← hus]
  exact ⟨more, h.accepts_iff.2 ⟨tree, _, hmore ▸ h.complete tree⟩⟩

/-- Only a `fun` can go on where an error is reported at it, and then with an opening
parenthesis. -/
theorem goes_on_with_paren (h : Reads parse g)
    (hrefused : parseAll ts g 0 = .refused i cause) (hi : i < ts.length)
    (haccepts : parse.Accepts (ts.take (i + 1) ++ us)) :
    ts[i]? = some (.keyword .function) ∧ ts[i + 1]? ≠ some (.mark .openParen) ∧
      us.head? = some (.mark .openParen) := by
  obtain ⟨tree, stop, hread⟩ := h.accepts_iff.1 haccepts
  have htake : (ts.take (i + 1)).length = i + 1 := List.length_take_of_le hi
  have hagree : Grammar.Agree (i + 1) ts (ts.take (i + 1) ++ us) := by
    refine ⟨hi, fun k hk => ?_⟩
    rw [List.getElem?_append_left (htake.symm ▸ hk), List.getElem?_take_of_lt hk]
  let fuel := max (Parser.budget ts.length) (Parser.budget (ts.take (i + 1) ++ us).length)
  have hsettled := Grammar.parse_settled hagree fuel g 0
  rw [Grammar.parse_eq_parseAll (Nat.le_max_left _ _),
    Grammar.parse_eq_parseAll (Nat.le_max_right _ _), hrefused, hread] at hsettled
  rcases hsettled (Nat.lt_succ_self i) with hsame | hlone
  · cases hsame
  · have hnext := hlone.next'
    rw [List.getElem?_append_right (Nat.le_of_eq htake), htake, Nat.sub_self,
      ← List.head?_eq_getElem?] at hnext
    exact ⟨hlone.function, hlone.next, hnext⟩

theorem firstFault (h : Reads parse g) {source : String} {tokens : List (Located Token)}
    {e : Located GrammarError} (hfail : parse source tokens = .error e) :
    ∃ i, e.span = placeOf source tokens i ∧
      parse.FirstFault (tokens.map Located.node) i := by
  have hlocated := hfail
  rw [← locate_nodes tokens] at hlocated
  obtain ⟨i, cause, hrefused, -⟩ := (h.error _ _ _ _).1 hlocated
  have hrefusesAt := h.refusesAt hrefused
  have hviable := h.viable hrefused
  obtain ⟨cause', hfail'⟩ := hrefusesAt.2 source tokens rfl
  refine ⟨i, ?_, hrefusesAt, hviable, fun hi => ?_, ?_⟩
  · rw [hfail] at hfail'
    cases hfail'
    rfl
  · generalize tokens.map Located.node = ts at hrefused hi
    by_cases hgoes : parse.Viable (ts.take (i + 1))
    · obtain ⟨us, haccepts⟩ := hgoes
      obtain ⟨hfunction, hnext, hparen⟩ := h.goes_on_with_paren hrefused hi haccepts
      obtain ⟨us, rfl⟩ : ∃ vs, us = .mark .openParen :: vs :=
        List.head?_eq_some_iff.1 hparen
      refine .inr ⟨hfunction, ⟨us, ?_⟩, hnext, ?_⟩
      · rw [List.take_add_one, hfunction] at haccepts
        simpa using haccepts
      · rintro hi' ⟨vs, hvs⟩
        rw [List.take_add_one, List.append_assoc] at hvs
        obtain ⟨-, -, hparen'⟩ := h.goes_on_with_paren hrefused hi hvs
        rw [List.getElem?_eq_getElem hi'] at hparen' hnext
        exact hnext hparen'
    · exact .inl hgoes
  · rintro rfl
    rw [List.take_length] at hviable
    refine ⟨hviable, fun haccepts => ?_⟩
    obtain ⟨tree, stop, hread⟩ := h.accepts_iff.1 haccepts
    rw [hrefused] at hread
    cases hread

end Reads

end SourceParser

/-- An error is reported at the first token that cannot go on, or at the end of the source
text when all of the tokens can go on but are not accepted; a `fun` in the place of an
expression is reported when no opening parenthesis follows it. -/
theorem syntax_errors_point_at_first_fault (source : String)
    (tokens : List (Located Token)) (e : Located GrammarError) :
    (parseProgram source tokens = .error e →
      ∃ i, e.span = placeOf source tokens i ∧
        SourceParser.FirstFault parseProgram (tokens.map Located.node) i) ∧
    (parseStatements source tokens = .error e →
      ∃ i, e.span = placeOf source tokens i ∧
        SourceParser.FirstFault parseStatements (tokens.map Located.node) i) :=
  ⟨SourceParser.reads_functions.firstFault, SourceParser.reads_statements.firstFault⟩

/-- In `f(fun x)` the error is at the word `fun`. -/
theorem syntax_errors_point_at_first_fault_lone :
    let ts : List Token :=
      [.word "f", .mark .openParen, .keyword .function, .word "x", .mark .closeParen]
    (∃ cause, parseStatements "" (locate SourceParser.apart ts) =
        .error ⟨cause, SourceParser.apart 2⟩) ∧
      SourceParser.FirstFault parseStatements ts 2 := by
  intro ts
  have hfail : parseStatements "" (locate SourceParser.apart ts) =
      .error ⟨.unexpected .expression (some (.keyword .function)),
        SourceParser.apart 2⟩ := rfl
  obtain ⟨i, hplace, hfault⟩ :=
    (syntax_errors_point_at_first_fault "" (locate SourceParser.apart ts) _).2 hfail
  have hindex : i = 2 := by
    have hplaces : placeOf "" (locate SourceParser.apart ts) 2 = placeOf ""
      (locate SourceParser.apart ts) i := hplace
    have hmin : min 2 5 = min i 5 := SourceParser.min_eq_of_placeOf_apart hplaces
    have hle : i ≤ 5 := hfault.refused.1
    omega
  rw [map_node_locate, hindex] at hfault
  exact ⟨⟨_, hfail⟩, hfault⟩

end HandleScript
