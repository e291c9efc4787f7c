import HandleScript.Proofs.Grammar

/-!
# The program that a tree denotes at its places

A tree whose tokens have places denotes a piece of a program with spans: a statement, a
function and a call cover all of their tokens, and what a `for` loop stands for has the
span of the word `for`. Hidden variables are numbered from a number that is given.
-/

namespace HandleScript

/-- The spans of the tokens from some token on, by their distance from it. -/
abbrev Places := Nat → Span

namespace Places

/-- The spans of the tokens that come after `ts`. -/
def past (spans : Places) (ts : List Token) : Places :=
  fun i => spans (ts.length + i)

/-- The span of the last of the tokens `ts`, or `previous` when there is none. -/
def last (spans : Places) (previous : Span) (ts : List Token) : Span :=
  match ts with
  | [] => previous
  | _ :: rest => spans rest.length

/-- The span of the tokens `ts`, from the first to the last. -/
def cover (spans : Places) (ts : List Token) : Span :=
  (spans 0).merge (spans.last (spans 0) ts)

theorem past_nil (spans : Places) : spans.past [] = spans := by
  funext i
  exact congrArg spans (Nat.zero_add i)

theorem past_past (spans : Places) (ts us : List Token) :
    (spans.past ts).past us = spans.past (ts ++ us) := by
  funext i
  simp [past, Nat.add_assoc]

theorem last_of_ne_nil (spans : Places) (previous previous' : Span) {ts : List Token}
    (h : ts ≠ []) : spans.last previous ts = spans.last previous' ts := by
  cases ts with
  | nil => exact absurd rfl h
  | cons t ts => rfl

theorem last_append (spans : Places) (previous : Span) (ts us : List Token) :
    (spans.past ts).last (spans.last previous ts) us =
      spans.last previous (ts ++ us) := by
  cases us with
  | nil => rw [List.append_nil, last]
  | cons u us =>
      cases ts with
      | nil => simp [past, last]
      | cons t ts =>
          have hindex : (t :: ts).length + us.length = (ts ++ u :: us).length := by
            rw [List.length_cons, List.length_append, List.length_cons]
            omega
          exact congrArg spans hindex

end Places

/-- Tokens at their places. -/
def locate (spans : Places) : List Token → List (Located Token)
  | [] => []
  | t :: ts => ⟨t, spans 0⟩ :: locate (spans.past [t]) ts

@[simp] theorem map_node_locate (spans : Places) (ts : List Token) :
    (locate spans ts).map Located.node = ts := by
  induction ts generalizing spans with
  | nil => rfl
  | cons t ts ih => rw [locate, List.map_cons, ih]

theorem length_locate (spans : Places) (ts : List Token) :
    (locate spans ts).length = ts.length := by
  rw [← List.length_map, map_node_locate]

/-- The places of located tokens. -/
def placesOf (tokens : List (Located Token)) : Places :=
  fun i => (tokens[i]?.map Located.span).getD default

theorem placesOf_past (tokens more : List (Located Token)) :
    (placesOf (tokens ++ more)).past (tokens.map Located.node) = placesOf more := by
  funext i
  rw [Places.past, placesOf, placesOf, List.length_map,
    List.getElem?_append_right (Nat.le_add_right _ _), Nat.add_sub_cancel_left]

theorem locate_placesOf (tokens more : List (Located Token)) :
    locate (placesOf (tokens ++ more)) (tokens.map Located.node) = tokens := by
  induction tokens with
  | nil => rfl
  | cons t tokens ih =>
      have hpast := placesOf_past [t] (tokens ++ more)
      rw [List.map_cons, locate]
      exact congrArg (t :: ·) (hpast ▸ ih)

theorem locate_nodes (tokens : List (Located Token)) :
    locate (placesOf tokens) (tokens.map Located.node) = tokens := by
  have hlocate := locate_placesOf tokens []
  rwa [List.append_nil] at hlocate

theorem locate_yield {tokens : List (Located Token)} {ts : List Token}
    (h : ts = tokens.map Located.node) : locate (placesOf tokens) ts = tokens := by
  rw [h, locate_nodes]

namespace Grammar

/-- Words at their places in a list of words. -/
def placeWords : List String → Places → List (Located String)
  | [], _ => []
  | w :: ws, spans => ⟨w, spans 0⟩ :: placeWords ws (spans.past [.word w, .mark .comma])

mutual

/-- What an expression denotes at its places, when `n` loops have ended before, and the
number of loops that have ended after it. -/
def Expr.place : Expr → Places → (n : Nat) → HandleScript.Expr × Nat
  | .chain head calls, spans, n =>
    let (receiver, n) := head.place spans n
    calls.place receiver (spans.past head.yield) n

/-- What an expression without a receiver denotes at its places. -/
def Primary.place : Primary → Places → (n : Nat) → HandleScript.Expr × Nat
  | .literal value, spans, n => (.literal value (spans 0), n)
  | .name w, spans, n => (.name w (spans 0), n)
  | .call w args, spans, n =>
    let (values, n) := args.place (spans.past [.word w, .mark .openParen]) n
    (.call (.name dispatcherName (spans 0)) ⟨w, spans 0⟩ values
      (spans.cover (Primary.call w args).yield), n)
  | .lambda params body, spans, n =>
    let (stmts, n) :=
      body.place (spans.past
        (.keyword .function :: (parens (words params) ++ [.mark .openBrace]))) n
    (.lambda ⟨⟨lambdaName, spans 0⟩,
        placeWords params (spans.past [.keyword .function, .mark .openParen]), stmts,
      spans.cover (Primary.lambda params body).yield⟩, n)

/-- What calls on a receiver denote at their places: each is the receiver of the next one,
and reaches from the first receiver to its own closing parenthesis. -/
def Calls.place :
    Calls → (receiver : HandleScript.Expr) → Places → (n : Nat) → HandleScript.Expr × Nat
  | .done, receiver, _, n => (receiver, n)
  | .next method args rest, receiver, spans, n =>
    let call := .mark .dot :: .word method :: parens args.yield
    let (values, n) :=
      args.place (spans.past [.mark .dot, .word method, .mark .openParen]) n
    let span := receiver.span.merge (spans.last receiver.span call)
    rest.place (.call receiver ⟨method, spans 1⟩ values span) (spans.past call) n

/-- What arguments denote at their places. -/
def Args.place : Args → Places → (n : Nat) → List HandleScript.Expr × Nat
  | .empty, _, n => ([], n)
  | .list first rest, spans, n =>
    let (value, n) := first.place spans n
    let (values, n) := rest.place (spans.past first.yield) n
    (value :: values, n)

/-- What the arguments after the first one denote at their places. -/
def MoreArgs.place : MoreArgs → Places → (n : Nat) → List HandleScript.Expr × Nat
  | .done, _, n => ([], n)
  | .next arg rest, spans, n =>
    let (value, n) := arg.place (spans.past [.mark .comma]) n
    let (values, n) := rest.place (spans.past (.mark .comma :: arg.yield)) n
    (value :: values, n)

/-- What a statement denotes at its places. -/
def Stmt.place : Stmt → Places → (n : Nat) → HandleScript.Stmt × Nat
  | .branch arms, spans, n =>
    let (tests, n) := arms.place (spans.past [.keyword .branch]) n
    (.branch tests (spans.cover (Stmt.branch arms).yield), n)
  | .loop condition body, spans, n =>
    let (test, n) := condition.place (spans.past [.keyword .loop, .mark .openParen]) n
    let (stmts, n) :=
      body.place
        (spans.past (.keyword .loop :: (parens condition.yield ++ [.mark .openBrace]))) n
    (.loop test stmts (spans.cover (Stmt.loop condition body).yield), n)
  | .each x iterable body, spans, n =>
    let head := parens (.word x :: .word "in" :: iterable.yield)
    let (value, n) := iterable.place
      (spans.past [.keyword .each, .mark .openParen, .word x, .word "in"]) n
    let (stmts, n) :=
      body.place (spans.past (.keyword .each :: (head ++ [.mark .openBrace]))) n
    (.block (Parser.forBlock (hiddenName n) (spans 0) ⟨x, spans 2⟩ value stmts)
      (spans.cover (Stmt.each x iterable body).yield), n + 1)
  | .declare x init, spans, n =>
    let (value, n) :=
      init.place (spans.past [.keyword .declare, .word x, .mark .equals]) n
    (.declare ⟨x, spans 1⟩ value (spans.cover (Stmt.declare x init).yield), n)
  | .giveBack result, spans, n =>
    let (value, n) := result.place (spans.past [.keyword .giveBack]) n
    (.giveBack (some value) (spans.cover (Stmt.giveBack result).yield), n)
  | .leave, spans, n => (.leave (spans.cover Stmt.leave.yield), n)
  | .skip, spans, n => (.skip (spans.cover Stmt.skip.yield), n)
  | .block body, spans, n =>
    let (stmts, n) := body.place (spans.past [.mark .openBrace]) n
    (.block stmts (spans.cover (Stmt.block body).yield), n)
  | .assign x result, spans, n =>
    let (value, n) := result.place (spans.past [.word x, .mark .equals]) n
    (.assign ⟨x, spans 0⟩ value (spans.cover (Stmt.assign x result).yield), n)
  | .expr result, spans, n =>
    let (value, n) := result.place spans n
    (.expr value (spans.cover (Stmt.expr result).yield), n)

/-- What the tests of a branch denote at their places. -/
def Arms.place : Arms → Places → (n : Nat) → HandleScript.Arms × Nat
  | .arm condition body rest, spans, n =>
    let (test, n) := condition.place (spans.past [.mark .openParen]) n
    let (stmts, n) :=
      body.place (spans.past (parens condition.yield ++ [.mark .openBrace])) n
    let (tests, n) :=
      rest.place (spans.past (parens condition.yield ++ braces body.yield)) n
    (.test test stmts tests, n)

/-- What the tests that follow a body denote at their places. -/
def MoreArms.place : MoreArms → Places → (n : Nat) → HandleScript.Arms × Nat
  | .done, _, n => (.done, n)
  | .otherwise body, spans, n =>
    let (stmts, n) := body.place (spans.past [.keyword .otherwise, .mark .openBrace]) n
    (.otherwise stmts, n)
  | .elseIf arms, spans, n =>
    arms.place (spans.past [.keyword .otherwise, .keyword .branch]) n

/-- What a sequence of statements denotes at its places. -/
def Stmts.place : Stmts → Places → (n : Nat) → List HandleScript.Stmt × Nat
  | .done, _, n => ([], n)
  | .giveBack, spans, n => ([.giveBack none (spans.cover Stmts.giveBack.yield)], n)
  | .cons stmt rest, spans, n =>
    let (first, n) := stmt.place spans n
    let (stmts, n) := rest.place (spans.past stmt.yield) n
    (first :: stmts, n)

end

/-- What a function denotes at its places. -/
def Function.place (f : Function) (spans : Places) (n : Nat) :
    HandleScript.Function × Nat :=
  let head := .keyword .function :: .word f.name ::
    (parens (words f.params) ++ [.mark .openBrace])
  let (stmts, n) := f.body.place (spans.past head) n
  (⟨⟨f.name, spans 1⟩, placeWords f.params
      (spans.past [.keyword .function, .word f.name, .mark .openParen]), stmts,
    spans.cover f.yield⟩, n)

/-- What functions denote at their places, one after the other. -/
def Function.placeAll :
    List Function → Places → (n : Nat) → List HandleScript.Function × Nat
  | [], _, n => ([], n)
  | f :: fs, spans, n =>
    let (first, n) := f.place spans n
    let (functions, n) := placeAll fs (spans.past f.yield) n
    (first :: functions, n)

/-! ## The number of loops -/

/-- The number of `for` loops that begin among tokens. -/
def loopCount (ts : List Token) : Nat :=
  ts.countP (Parser.isKeyword .each)

@[simp] theorem loopCount_nil : loopCount [] = 0 := rfl

@[simp] theorem loopCount_append (ts us : List Token) :
    loopCount (ts ++ us) = loopCount ts + loopCount us :=
  List.countP_append

@[simp] theorem loopCount_each (ts : List Token) :
    loopCount (.keyword .each :: ts) = loopCount ts + 1 :=
  List.countP_cons_of_pos rfl

theorem loopCount_cons {t : Token} (h : Parser.isKeyword .each t = false)
    (ts : List Token) : loopCount (t :: ts) = loopCount ts :=
  List.countP_cons_of_neg (Bool.eq_false_iff.mp h)

@[simp] theorem loopCount_keyword {k : Keyword} (h : k ≠ .each) (ts : List Token) :
    loopCount (.keyword k :: ts) = loopCount ts :=
  loopCount_cons (t := .keyword k) (decide_eq_false h) ts

@[simp] theorem loopCount_mark (m : Mark) (ts : List Token) :
    loopCount (.mark m :: ts) = loopCount ts :=
  loopCount_cons rfl ts

@[simp] theorem loopCount_word (w : String) (ts : List Token) :
    loopCount (.word w :: ts) = loopCount ts :=
  loopCount_cons rfl ts

@[simp] theorem loopCount_literal (value : Literal) (ts : List Token) :
    loopCount (value.token :: ts) = loopCount ts := by
  apply loopCount_cons
  rcases value with _ | _ | (_ | _) | _ | _ <;> rfl

@[simp] theorem loopCount_parens (ts : List Token) :
    loopCount (parens ts) = loopCount ts := by
  simp [parens]

@[simp] theorem loopCount_braces (ts : List Token) :
    loopCount (braces ts) = loopCount ts := by
  simp [braces]

@[simp] theorem loopCount_words (ws : List String) : loopCount (words ws) = 0 := by
  have hmore : ∀ ws, loopCount (moreWords ws) = 0 := by
    intro ws
    induction ws with
    | nil => rfl
    | cons w ws ih => rw [moreWords, loopCount_mark, loopCount_word, ih]
  cases ws with
  | nil => rfl
  | cons w ws => rw [words, loopCount_word, hmore]

mutual

/-- As many loops have ended after a tree as before it and in it. -/
theorem Expr.place_snd (e : Expr) (spans : Places) (n : Nat) :
    (e.place spans n).2 = n + loopCount e.yield := by
  match e with
  | .chain head calls =>
      simp [Expr.place, Expr.yield, head.place_snd, calls.place_snd, Nat.add_assoc]
termination_by structural e

theorem Primary.place_snd (e : Primary) (spans : Places) (n : Nat) :
    (e.place spans n).2 = n + loopCount e.yield := by
  match e with
  | .literal value => simp [Primary.place, Primary.yield]
  | .name w => rfl
  | .call w args => simp [Primary.place, Primary.yield, args.place_snd]
  | .lambda params body => simp [Primary.place, Primary.yield, body.place_snd]
termination_by structural e

theorem Calls.place_snd (calls : Calls) (receiver : HandleScript.Expr) (spans : Places)
    (n : Nat) : (calls.place receiver spans n).2 = n + loopCount calls.yield := by
  match calls with
  | .done => rfl
  | .next method args rest =>
      simp [Calls.place, Calls.yield, args.place_snd, rest.place_snd, Nat.add_assoc]
termination_by structural calls

theorem Args.place_snd (args : Args) (spans : Places) (n : Nat) :
    (args.place spans n).2 = n + loopCount args.yield := by
  match args with
  | .empty => rfl
  | .list first rest =>
      simp [Args.place, Args.yield, first.place_snd, rest.place_snd, Nat.add_assoc]
termination_by structural args

theorem MoreArgs.place_snd (args : MoreArgs) (spans : Places) (n : Nat) :
    (args.place spans n).2 = n + loopCount args.yield := by
  match args with
  | .done => rfl
  | .next arg rest =>
      simp [MoreArgs.place, MoreArgs.yield, arg.place_snd, rest.place_snd, Nat.add_assoc]
termination_by structural args

theorem Stmt.place_snd (stmt : Stmt) (spans : Places) (n : Nat) :
    (stmt.place spans n).2 = n + loopCount stmt.yield := by
  match stmt with
  | .branch arms => simp [Stmt.place, Stmt.yield, arms.place_snd]
  | .loop condition body =>
      simp [Stmt.place, Stmt.yield, condition.place_snd, body.place_snd, Nat.add_assoc]
  | .each x iterable body =>
      simp [Stmt.place, Stmt.yield, iterable.place_snd, body.place_snd, Nat.add_assoc]
  | .declare x init => simp [Stmt.place, Stmt.yield, init.place_snd]
  | .giveBack value => simp [Stmt.place, Stmt.yield, value.place_snd]
  | .leave => rfl
  | .skip => rfl
  | .block body => simp [Stmt.place, Stmt.yield, body.place_snd]
  | .assign x value => simp [Stmt.place, Stmt.yield, value.place_snd]
  | .expr value => simp [Stmt.place, Stmt.yield, value.place_snd]
termination_by structural stmt

theorem Arms.place_snd (arms : Arms) (spans : Places) (n : Nat) :
    (arms.place spans n).2 = n + loopCount arms.yield := by
  match arms with
  | .arm condition body rest =>
      simp [Arms.place, Arms.yield, condition.place_snd, body.place_snd,
        rest.place_snd, Nat.add_assoc]
termination_by structural arms

theorem MoreArms.place_snd (arms : MoreArms) (spans : Places) (n : Nat) :
    (arms.place spans n).2 = n + loopCount arms.yield := by
  match arms with
  | .done => rfl
  | .otherwise body => simp [MoreArms.place, MoreArms.yield, body.place_snd]
  | .elseIf arms => simp [MoreArms.place, MoreArms.yield, arms.place_snd]
termination_by structural arms

theorem Stmts.place_snd (stmts : Stmts) (spans : Places) (n : Nat) :
    (stmts.place spans n).2 = n + loopCount stmts.yield := by
  match stmts with
  | .done => rfl
  | .giveBack => rfl
  | .cons stmt rest =>
      simp [Stmts.place, Stmts.yield, stmt.place_snd, rest.place_snd, Nat.add_assoc]
termination_by structural stmts

end

theorem Function.place_snd (g : Function) (spans : Places) (n : Nat) :
    (g.place spans n).2 = n + loopCount g.yield := by
  simp [Function.place, Function.yield, Stmts.place_snd]

theorem Function.placeAll_snd (gs : List Function) (spans : Places) (n : Nat) :
    (placeAll gs spans n).2 = n + loopCount (gs.flatMap yield) := by
  induction gs generalizing spans n with
  | nil => rfl
  | cons g gs ih => simp [placeAll, g.place_snd, ih, Nat.add_assoc]

end Grammar

end HandleScript
