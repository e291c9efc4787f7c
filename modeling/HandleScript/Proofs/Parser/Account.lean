import HandleScript.Proofs.Parser.Script
import HandleScript.Proofs.Placed

/-!
# What each reader does

Each reader follows the script of its part of speech. It reads the tree that the
script reads, and returns what the tree denotes at the places of its tokens, or it
stops where the script stops. The equations of `Accounts` say so for every
position in every sequence of tokens, and for every count of nested readers.
Whatever holds of the readers follows from them.
-/

namespace HandleScript

namespace Parser

open Grammar (Goal Script Parsed Fault plan parse parens braces words placeWords)

/-! ## Positions in a source -/

/-- Tokens with their places. -/
structure Source where
  nodes : List Token
  places : Places
  /-- What stands in for the place of the token before the first one. -/
  fallback : Span
  /-- The place after the last token. -/
  ending : Span

namespace Source

/-- The places from the token with the index `pos` on. -/
def spans (src : Source) (pos : Nat) : Places :=
  fun i => src.places (pos + i)

/-- The place before the token with the index `pos`. -/
def before (src : Source) : (pos : Nat) → Span
  | 0 => src.fallback
  | pos + 1 => src.places pos

/-- The place of the token with the index `pos`, or the end. -/
def placeAt (src : Source) (pos : Nat) : Span :=
  if pos < src.nodes.length then src.places pos else src.ending

/-- The cursor before the token with the index `pos`, when `n` loops have been read. -/
def cursor (src : Source) (pos n : Nat) : Cursor :=
  ⟨locate (src.spans pos) (src.nodes.drop pos), src.before pos, n, src.ending⟩

/-- The error that is reported at the token with the index `place`. -/
def error (src : Source) (place : Nat) : Fault → Located GrammarError
  | .unexpected what => ⟨.unexpected what src.nodes[place]?, src.placeAt place⟩
  | .unclosed opened => ⟨.unterminatedBody (src.places opened), src.placeAt place⟩

/-- What a reader comes to, when a tree that is read has a value and leaves so many
loops read. -/
def realize {T α : Type} (src : Source) (value : T → α × Nat) :
    Parsed T → Except Stop (α × Cursor)
  | .read tree stop => .ok ((value tree).1, src.cursor stop (value tree).2)
  | .refused place cause => .error (.refused (src.error place cause))
  | .exhausted => .error .exhausted

theorem spans_past (src : Source) (pos : Nat) (us : List Token) :
    (src.spans pos).past us = src.spans (pos + us.length) := by
  funext i
  exact congrArg src.places (Nat.add_assoc pos us.length i).symm

theorem spans_zero (src : Source) : src.spans 0 = src.places := by
  funext i
  exact congrArg src.places (Nat.zero_add i)

theorem before_add (src : Source) (pos : Nat) (us : List Token) :
    src.before (pos + us.length) = (src.spans pos).last (src.before pos) us := by
  cases us <;> rfl

theorem placeAt_of_some {src : Source} {pos : Nat} {t : Token}
    (h : src.nodes[pos]? = some t) : src.placeAt pos = src.places pos :=
  if_pos (List.getElem?_eq_some_iff.1 h).1

theorem placeAt_of_none {src : Source} {pos : Nat} (h : src.nodes[pos]? = none) :
    src.placeAt pos = src.ending :=
  if_neg (Nat.not_lt.2 (List.getElem?_eq_none_iff.1 h))

theorem cursor_rest {src : Source} {pos : Nat} {t : Token} (h : src.nodes[pos]? = some t)
    (n : Nat) :
    (src.cursor pos n).rest = ⟨t, src.places pos⟩ :: (src.cursor (pos + 1) n).rest := by
  obtain ⟨hlt, rfl⟩ := List.getElem?_eq_some_iff.1 h
  rw [cursor, List.drop_eq_getElem_cons hlt, locate, spans_past]
  rfl

theorem cursor_rest_nil {src : Source} {pos : Nat} (h : src.nodes[pos]? = none)
    (n : Nat) : (src.cursor pos n).rest = [] := by
  rw [cursor, List.drop_of_length_le (List.getElem?_eq_none_iff.1 h)]
  rfl

theorem head?_cursor (src : Source) (pos n : Nat) :
    (src.cursor pos n).rest.head?.map Located.node = src.nodes[pos]? := by
  cases h : src.nodes[pos]? with
  | none => rw [cursor_rest_nil h]; rfl
  | some t => rw [cursor_rest h]; rfl

end Source

/-- The tokens `ts` of a source text, at the places `spans`. -/
def Source.ofText (source : String) (spans : Places) (ts : List Token) : Source :=
  let ending := (start source []).ending
  ⟨ts, spans, ending, ending⟩

theorem Source.cursor_ofText (source : String) (spans : Places) (ts : List Token) :
    (ofText source spans ts).cursor 0 0 = start source (locate spans ts) := by
  rw [cursor, spans_zero]
  rfl

/-! ## Steps -/

section Steps

variable {α β : Type} {src : Source} {pos n : Nat}

theorem bind_apply (x : Reader α) (f : α → Reader β) (c : Cursor) :
    (x >>= f) c = match x c with
      | .ok (a, c') => f a c'
      | .error e => .error e := by
  change (x c >>= fun p => f p.1 p.2) = _
  cases x c <;> rfl

theorem bind_of_ok {x : Reader α} {f : α → Reader β} {c c' : Cursor} {a : α}
    (h : x c = .ok (a, c')) : (x >>= f) c = f a c' := by
  rw [bind_apply, h]

theorem peek_bind (f : Option Token → Reader β) :
    (peek >>= f) (src.cursor pos n) = f src.nodes[pos]? (src.cursor pos n) := by
  rw [← src.head?_cursor pos n]
  rfl

theorem peekSecond_bind (f : Option Token → Reader β) :
    (peekSecond >>= f) (src.cursor pos n) = f src.nodes[pos + 1]? (src.cursor pos n) := by
  have hsecond : ((src.cursor pos n).rest.drop 1).head?.map Located.node =
      src.nodes[pos + 1]? := by
    cases h : src.nodes[pos]? with
    | none =>
        have hle := List.getElem?_eq_none_iff.1 h
        rw [Source.cursor_rest_nil h, List.getElem?_eq_none (Nat.le_succ_of_le hle)]
        rfl
    | some t =>
        rw [Source.cursor_rest h, ← src.head?_cursor (pos + 1) n]
        rfl
  rw [← hsecond]
  rfl

theorem here_bind (f : Span → Reader β) :
    (here >>= f) (src.cursor pos n) = f (src.placeAt pos) (src.cursor pos n) := by
  have hplace : ((src.cursor pos n).rest.head?.map Located.span).getD src.ending =
      src.placeAt pos := by
    cases h : src.nodes[pos]? with
    | none => rw [Source.cursor_rest_nil h, Source.placeAt_of_none h]; rfl
    | some t => rw [Source.cursor_rest h, Source.placeAt_of_some h]; rfl
  rw [← hplace]
  rfl

theorem advance_of_cons {c : Cursor} {token : Located Token} {rest : List (Located Token)}
    (h : c.rest = token :: rest) :
    advance c = .ok ((), { c with rest := rest, previous := token.span }) := by
  obtain ⟨_, previous, loops, ending⟩ := c
  subst h
  rfl

theorem advance_eq {t : Token} (h : src.nodes[pos]? = some t) :
    advance (src.cursor pos n) = .ok ((), src.cursor (pos + 1) n) := by
  rw [advance_of_cons (Source.cursor_rest h n)]
  rfl

theorem atMark_bind (m : Mark) (f : Bool → Reader β) :
    (atMark m >>= f) (src.cursor pos n) =
      f (src.nodes[pos]?.any (isMark m)) (src.cursor pos n) := by
  rw [← src.head?_cursor pos n]
  rfl

theorem acceptMark_of_head {m : Mark} (h : src.nodes[pos]? = some (.mark m)) :
    acceptMark m (src.cursor pos n) = .ok (true, src.cursor (pos + 1) n) := by
  rw [acceptMark, atMark_bind, any_isMark.2 h]
  exact bind_of_ok (advance_eq h)

theorem acceptMark_of_ne {m : Mark} (h : src.nodes[pos]? ≠ some (.mark m)) :
    acceptMark m (src.cursor pos n) = .ok (false, src.cursor pos n) := by
  rw [acceptMark, atMark_bind, Bool.eq_false_iff.2 (mt any_isMark.1 h)]
  rfl

theorem acceptKeyword_of_head {k : Keyword} (h : src.nodes[pos]? = some (.keyword k)) :
    acceptKeyword k (src.cursor pos n) = .ok (true, src.cursor (pos + 1) n) := by
  rw [acceptKeyword, peek_bind, any_isKeyword.2 h]
  exact bind_of_ok (advance_eq h)

theorem acceptKeyword_of_ne {k : Keyword} (h : src.nodes[pos]? ≠ some (.keyword k)) :
    acceptKeyword k (src.cursor pos n) = .ok (false, src.cursor pos n) := by
  rw [acceptKeyword, peek_bind, Bool.eq_false_iff.2 (mt any_isKeyword.1 h)]
  rfl

theorem unexpected_eq (what : Expected) :
    (unexpected what : Reader α) (src.cursor pos n) =
      .error (.refused (src.error pos (.unexpected what))) := by
  rw [unexpected, peek_bind, here_bind]
  rfl

theorem word_of_head {what : Expected} {w : String}
    (h : src.nodes[pos]? = some (.word w)) :
    word what (src.cursor pos n) = .ok (⟨w, src.places pos⟩, src.cursor (pos + 1) n) := by
  rw [word, peek_bind, h]
  exact bind_of_ok (advance_eq h)

theorem word_of_ne {what : Expected} (h : ∀ w, src.nodes[pos]? = some (.word w) → False) :
    word what (src.cursor pos n) =
      .error (.refused (src.error pos (.unexpected what))) := by
  rw [word, peek_bind, ← unexpected_eq]
  cases hhead : src.nodes[pos]? with
  | none => rfl
  | some t =>
      cases t with
      | word w => exact absurd hhead (h w)
      | mark | keyword | int | double | text => rfl

theorem inWord_of_ne (h : src.nodes[pos]? ≠ some (.word "in")) :
    inWord (src.cursor pos n) =
      .error (.refused (src.error pos (.unexpected .inWord))) := by
  rw [inWord, peek_bind]
  simp only
  exact unexpected_eq _

end Steps

/-! ## Readers beside scripts -/

/-- After the tokens `us` have been read from the index `pos` on, the reader does
what the script does. -/
def Does {T α : Type} (src : Source) (fuel : Nat) (x : Reader α) (pos : Nat)
    (us : List Token) (n : Nat) (s : Script T) (value : T → α × Nat) : Prop :=
  x (src.cursor (pos + us.length) n) =
    src.realize value (s.run src.nodes (parse src.nodes fuel) (pos + us.length))

/-- From the index `pos` on, the reader reads a part of speech. The value of a tree
depends on the places of its tokens. -/
def Realizes {α : Type} (src : Source) (fuel : Nat) (x : Reader α) (pos n : Nat)
    (g : Goal) (value : Places → g.Tree → α × Nat) : Prop :=
  x (src.cursor pos n) = src.realize (value (src.spans pos)) (parse src.nodes fuel g pos)

section Rules

variable {T α β : Type} {src : Source} {fuel pos n : Nat} {us : List Token} {t : Token}
  {value : T → β × Nat} {next yes no : Script T}

theorem does_pure {tree : T} {b : β} (h : value tree = (b, n)) :
    Does src fuel (pure b) pos us n (.done tree) value := by
  rw [Does, Script.run, Source.realize, h]
  rfl

theorem does_unexpected (what : Expected) :
    Does src fuel (unexpected what) pos us n (.fault (.unexpected what)) value :=
  unexpected_eq what

theorem does_unclosed {opened : Nat} (h : src.nodes[pos + us.length]? = none) :
    Does src fuel
        (do throw (.refused ⟨.unterminatedBody (src.places opened), (← get).ending⟩))
      pos us n (.fault (.unclosed opened)) value := by
  rw [Does, Script.run, Source.realize, Source.error, Source.placeAt_of_none h]
  rfl

theorem does_previous {f : Span → Reader β} {s : Script T}
    (h : Does src fuel (f ((src.spans pos).last (src.before pos) us)) pos us n s value) :
    Does src fuel (previous >>= f) pos us n s value := by
  rw [← Source.before_add] at h
  exact h

/-- A token is read by a reader that asks for it. -/
theorem does_token {x : Reader α} {f : α → Reader β} {a : α} {what : Expected}
    (hread : src.nodes[pos + us.length]? = some t →
      x (src.cursor (pos + us.length) n) = .ok (a, src.cursor (pos + us.length + 1) n))
    (hfail : src.nodes[pos + us.length]? ≠ some t →
      x (src.cursor (pos + us.length) n) =
        .error (.refused (src.error (pos + us.length) (.unexpected what))))
    (h : Does src fuel (f a) pos (us ++ [t]) n next value) :
    Does src fuel (x >>= f) pos us n (.token t what next) value := by
  rw [Does, Script.run, bind_apply]
  by_cases ht : src.nodes[pos + us.length]? = some t
  · rw [hread ht, if_pos ht]
    rw [Does, List.length_append, List.length_singleton, ← Nat.add_assoc] at h
    exact h
  · rw [hfail ht, if_neg ht]
    rfl

theorem does_advance {f : Unit → Reader β} (ht : src.nodes[pos + us.length]? = some t)
    (h : Does src fuel (f ()) pos (us ++ [t]) n next value) :
    Does src fuel (advance >>= f) pos us n (.take t next) value :=
  does_token (fun _ => advance_eq ht) (fun hne => absurd ht hne) h

theorem does_mark {m : Mark} {f : Span → Reader β}
    (h : Does src fuel (f (src.spans pos us.length)) pos (us ++ [.mark m]) n next value) :
    Does src fuel (mark m >>= f) pos us n (.mark m next) value := by
  refine does_token (fun ht => ?_) (fun hne => ?_) h
  · rw [mark, bind_of_ok (acceptMark_of_head ht)]
    rfl
  · rw [mark, bind_of_ok (acceptMark_of_ne hne)]
    exact unexpected_eq _

theorem does_keyword {k : Keyword} {f : Span → Reader β}
    (h : Does src fuel (f (src.spans pos us.length)) pos
      (us ++ [.keyword k]) n next value) :
    Does src fuel (keyword k >>= f) pos us n (.keyword k next) value := by
  refine does_token (fun ht => ?_) (fun hne => ?_) h
  · rw [keyword, bind_of_ok (acceptKeyword_of_head ht)]
    rfl
  · rw [keyword, bind_of_ok (acceptKeyword_of_ne hne)]
    exact unexpected_eq _

theorem does_inWord {f : Unit → Reader β}
    (h : Does src fuel (f ()) pos (us ++ [.word "in"]) n next value) :
    Does src fuel (inWord >>= f) pos us n (.token (.word "in") .inWord next) value := by
  refine does_token (fun ht => ?_) (fun hne => ?_) h
  · rw [inWord, peek_bind, ht]
    exact advance_eq ht
  · exact inWord_of_ne hne

theorem does_word {what : Expected} {f : Located String → Reader β}
    {next : String → Script T}
    (h : ∀ w, Does src fuel (f ⟨w, src.spans pos us.length⟩) pos
      (us ++ [.word w]) n (next w) value) :
    Does src fuel (word what >>= f) pos us n (.word what next) value := by
  rw [Does, Script.run]
  split
  next w hw =>
      have hread := h w
      rw [Does, List.length_append, List.length_singleton, ← Nat.add_assoc] at hread
      rw [bind_of_ok (word_of_head hw)]
      exact hread
  next hne =>
      rw [bind_apply, word_of_ne hne]
      rfl

theorem does_peek {f : Option Token → Reader β} {s : Script T}
    (h : Does src fuel (f src.nodes[pos + us.length]?) pos us n s value) :
    Does src fuel (peek >>= f) pos us n s value := by
  rw [Does, peek_bind]
  exact h

theorem does_peekSecond {f : Option Token → Reader β} {s : Script T}
    (h : Does src fuel (f src.nodes[pos + us.length + 1]?) pos us n s value) :
    Does src fuel (peekSecond >>= f) pos us n s value := by
  rw [Does, peekSecond_bind]
  exact h

theorem does_atMark {m : Mark} {f : Bool → Reader β} {s : Script T}
    (h : Does src fuel (f (src.nodes[pos + us.length]?.any (isMark m)))
      pos us n s value) :
    Does src fuel (atMark m >>= f) pos us n s value := by
  rw [Does, atMark_bind]
  exact h

theorem does_here {f : Span → Reader β} {s : Script T}
    (h : Does src fuel (f (src.placeAt (pos + us.length))) pos us n s value) :
    Does src fuel (here >>= f) pos us n s value := by
  rw [Does, here_bind]
  exact h

theorem does_ite {p : Prop} [Decidable p] {x y : Reader β}
    (hyes : p → Does src fuel x pos us n yes value)
    (hno : ¬ p → Does src fuel y pos us n no value) :
    Does src fuel (if p then x else y) pos us n (if p then yes else no) value := by
  by_cases hp : p
  · rw [if_pos hp, if_pos hp]
    exact hyes hp
  · rw [if_neg hp, if_neg hp]
    exact hno hp

theorem does_look {x : Reader β} {next : Nat → Option Token → Option Token → Script T}
    (h : Does src fuel x pos us n (next (pos + us.length) src.nodes[pos + us.length]?
      src.nodes[pos + us.length + 1]?) value) :
    Does src fuel x pos us n (.look next) value :=
  h

theorem does_accept {accept : Reader Bool} {f : Bool → Reader β}
    (hread : src.nodes[pos + us.length]? = some t →
      accept (src.cursor (pos + us.length) n) =
        .ok (true, src.cursor (pos + us.length + 1) n))
    (hpass : src.nodes[pos + us.length]? ≠ some t →
      accept (src.cursor (pos + us.length) n) =
        .ok (false, src.cursor (pos + us.length) n))
    (hyes : Does src fuel (f true) pos (us ++ [t]) n yes value)
    (hno : Does src fuel (f false) pos us n no value) :
    Does src fuel (accept >>= f) pos us n (.accept t yes no) value := by
  apply does_look
  split
  case isTrue ht => exact does_token (fun _ => hread ht) (fun hne => absurd ht hne) hyes
  case isFalse hne =>
      rw [Does, bind_of_ok (hpass hne)]
      exact hno

theorem does_acceptMark {m : Mark} {f : Bool → Reader β}
    (hyes : Does src fuel (f true) pos (us ++ [.mark m]) n yes value)
    (hno : Does src fuel (f false) pos us n no value) :
    Does src fuel (acceptMark m >>= f) pos us n (.accept (.mark m) yes no) value :=
  does_accept acceptMark_of_head acceptMark_of_ne hyes hno

theorem does_acceptKeyword {k : Keyword} {f : Bool → Reader β}
    (hyes : Does src fuel (f true) pos (us ++ [.keyword k]) n yes value)
    (hno : Does src fuel (f false) pos us n no value) :
    Does src fuel (acceptKeyword k >>= f) pos us n (.accept (.keyword k) yes no) value :=
  does_accept acceptKeyword_of_head acceptKeyword_of_ne hyes hno

/-- Another reader reads a part of speech. -/
theorem does_nest {g : Goal} {x : Reader α} {f : α → Reader β} {next : g.Tree → Script T}
    {part : Places → g.Tree → α × Nat}
    (hx : Realizes src fuel x (pos + us.length) n g part)
    (h : ∀ tree, parse src.nodes fuel g (pos + us.length) =
        .read tree (pos + (us ++ g.yield tree).length) →
      Does src fuel (f (part ((src.spans pos).past us) tree).1) pos (us ++ g.yield tree)
        (part ((src.spans pos).past us) tree).2 (next tree) value) :
    Does src fuel (x >>= f) pos us n (.nest g next) value := by
  have hfaithful := Grammar.parse_faithful src.nodes fuel g (pos + us.length)
  rw [Does, Script.run, bind_apply, hx]
  cases hrun : parse src.nodes fuel g (pos + us.length) with
  | read tree stop =>
      rw [hrun] at hfaithful
      obtain ⟨rfl, -⟩ := hfaithful
      rw [Nat.add_assoc, ← List.length_append] at hrun
      have hrest := h tree hrun
      rw [Does, Source.spans_past, List.length_append, ← Nat.add_assoc] at hrest
      exact hrest
  | refused place cause => rfl
  | exhausted => rfl

/-- The hidden variable of a loop is taken at its end. -/
theorem does_takeHidden {f : String → β} {tree : T}
    (h : value tree = (f (hiddenName n), n + 1)) :
    Does src fuel (takeHidden >>= fun name => pure (f name)) pos us n
      (.done tree) value := by
  rw [Does, Script.run, Source.realize, h]
  rfl

/-- Another reader reads all that is left. -/
theorem does_last {g : Goal} {x : Reader β} {next : g.Tree → T}
    {part : Places → g.Tree → β × Nat}
    (hx : Realizes src fuel x (pos + us.length) n g part)
    (h : ∀ tree, value (next tree) = part ((src.spans pos).past us) tree) :
    Does src fuel x pos us n (.nest g fun tree => .done (next tree)) value := by
  have hread : Does src fuel (x >>= pure) pos us n
      (.nest g fun tree => .done (next tree)) value :=
    does_nest hx fun tree _ => does_pure (h tree)
  rwa [bind_pure] at hread

end Rules

theorem Source.placeAt_of_read {g : Goal} {src : Source} {fuel pos stop : Nat}
    {tree : g.Tree} (h : parse src.nodes fuel g pos = .read tree stop)
    (hne : g.yield tree ≠ []) : src.placeAt pos = src.places pos := by
  have hfaithful := Grammar.parse_faithful src.nodes fuel g pos
  rw [h] at hfaithful
  have hle := hfaithful.2.length_le
  have hpos := List.length_pos_iff.2 hne
  rw [List.length_drop] at hle
  exact if_pos (by omega)

/-! ## Values of trees -/

/-- What the parameters and the body of a function denote at their places. -/
def placeFunction (name : Located String) (start : Span) (n : Nat) (spans : Places) :
    Goal.functionRest.Tree → Function × Nat
  | (params, body) =>
    let (stmts, m) :=
      body.place (spans.past (parens (words params) ++ [.mark .openBrace])) n
    (⟨name, placeWords params (spans.past [.mark .openParen]), stmts,
      start.merge (spans.last start (parens (words params) ++ braces body.yield))⟩, m)

/-- Places are those of the whole function, if its first tokens are `ts`. -/
theorem placeFunction_past (name : Located String) (start : Span) (n : Nat)
    (spans : Places) (ts : List Token) (parts : Goal.functionRest.Tree) :
    placeFunction name start n (spans.past ts) parts =
      let (stmts, m) :=
        parts.2.place (spans.past (ts ++ (parens (words parts.1) ++ [.mark .openBrace])))
          n
      (⟨name, placeWords parts.1 (spans.past (ts ++ [.mark .openParen])), stmts,
        start.merge (spans.last start
          (ts ++ (parens (words parts.1) ++ braces parts.2.yield)))⟩,
        m) := by
  have hne : parens (words parts.1) ++ braces parts.2.yield ≠ [] := List.cons_ne_nil _ _
  rw [placeFunction, Places.past_past, Places.past_past,
    Places.last_of_ne_nil (spans.past ts) start (spans.last start ts) hne,
      Places.last_append]

/-- What a `for` loop after its first word denotes at its places. -/
def placeEach (start : Span) (n : Nat) (spans : Places) :
    Goal.eachLoop.Tree → List Stmt × Nat
  | (x, iterable, body) =>
    let head := parens (.word x :: .word "in" :: iterable.yield)
    let (value, m) :=
      iterable.place (spans.past [.mark .openParen, .word x, .word "in"]) n
    let (stmts, k) := body.place (spans.past (head ++ [.mark .openBrace])) m
    (forBlock (hiddenName k) start ⟨x, spans 1⟩ value stmts, k + 1)

/-- What a statement denotes at its places; it may be a `return` without a value. -/
def placeStatement (n : Nat) (spans : Places) : Goal.statement.Tree → Stmt × Nat
  | some stmt => stmt.place spans n
  | none => (.giveBack none (spans.cover [.keyword .giveBack]), n)

/-- With so many nested readers, each reader reads its part of speech. -/
structure Accounts (src : Source) (fuel : Nat) : Prop where
  moreParams (n pos : Nat) : Realizes src fuel (moreParams fuel) pos n .moreParams
    fun spans ws => (placeWords (ws.1 :: ws.2) spans, n)
  params (n pos : Nat) : Realizes src fuel (params fuel) pos n .params
    fun spans ws => (placeWords ws (spans.past [.mark .openParen]), n)
  functionRest (name : Located String) (start : Span) (n pos : Nat) :
    Realizes src fuel (functionRest fuel name start) pos n .functionRest
      (placeFunction name start n)
  body (n pos : Nat) : Realizes src fuel (body fuel) pos n .body
    fun spans stmts => stmts.place (spans.past [.mark .openBrace]) n
  bodyRest (opened n pos : Nat) :
    Realizes src fuel (bodyRest fuel (src.places opened)) pos n (.bodyRest opened)
      fun spans stmts => stmts.place spans n
  statement (n pos : Nat) : Realizes src fuel (statement fuel)
    pos n .statement (placeStatement n)
  condition (n pos : Nat) : Realizes src fuel (condition fuel) pos n .condition
    fun spans e => e.place (spans.past [.mark .openParen]) n
  firstArm (n pos : Nat) : Realizes src fuel (firstArm fuel) pos n .firstArm
    fun spans arms => arms.place spans n
  moreArms (n pos : Nat) : Realizes src fuel (moreArms fuel) pos n .moreArms
    fun spans arms => arms.place spans n
  eachLoop (start : Span) (n pos : Nat) :
    Realizes src fuel (eachLoop fuel start) pos n .eachLoop (placeEach start n)
  expr (n pos : Nat) : Realizes src fuel (expr fuel) pos n .expr
    fun spans e => e.place spans n
  calls (receiver : Expr) (n pos : Nat) : Realizes src fuel
      (calls fuel receiver) pos n .calls
    fun spans calls => calls.place receiver spans n
  primary (n pos : Nat) : Realizes src fuel (primary fuel) pos n .primary
    fun spans p => p.place spans n
  args (n pos : Nat) : Realizes src fuel (args fuel) pos n .args
    fun spans args => args.place (spans.past [.mark .openParen]) n
  moreArgs (n pos : Nat) : Realizes src fuel (moreArgs fuel) pos n .moreArgs
    fun spans args => (Grammar.Args.list args.1 args.2).place spans n

/-- The token that a statement of the sort begins with, if it is always the same. -/
def StmtStart.first : StmtStart → Option Token
  | branch => some (.keyword .branch)
  | loop => some (.keyword .loop)
  | each => some (.keyword .each)
  | declare => some (.keyword .declare)
  | giveBack => some (.keyword .giveBack)
  | leave => some (.keyword .leave)
  | skip => some (.keyword .skip)
  | block => some (.mark .openBrace)
  | assign => none
  | expr => none

section Readers

variable {src : Source} {fuel : Nat}

theorem moreParams_realizes (h : Accounts src fuel) (n pos : Nat) :
    Realizes src (fuel + 1) (moreParams (fuel + 1)) pos n .moreParams
      fun spans ws => (placeWords (ws.1 :: ws.2) spans, n) := by
  change Does src fuel _ pos [] n _ _
  rw [moreParams]
  apply does_word
  intro w
  apply does_acceptMark
  · exact does_pure rfl
  apply does_acceptMark
  · apply does_nest (h.moreParams n _)
    intro ws _
    exact does_pure rfl
  · exact does_unexpected _

theorem params_realizes (h : Accounts src fuel) (n pos : Nat) :
    Realizes src (fuel + 1) (params (fuel + 1)) pos n .params
      fun spans ws => (placeWords ws (spans.past [.mark .openParen]), n) := by
  change Does src fuel _ pos [] n _ _
  rw [params]
  apply does_mark
  apply does_acceptMark
  · exact does_pure rfl
  · exact does_last (h.moreParams n _) fun ws => rfl

theorem functionRest_realizes (h : Accounts src fuel) (name : Located String)
    (start : Span) (n pos : Nat) :
    Realizes src (fuel + 1) (functionRest (fuel + 1) name start) pos n .functionRest
      (placeFunction name start n) := by
  change Does src fuel _ pos [] n _ _
  rw [functionRest]
  apply does_nest (h.params n _)
  intro ws _
  apply does_nest (h.body n _)
  intro stmts _
  apply does_previous
  apply does_pure
  simp only [Places.past_past]
  rfl

theorem body_realizes (h : Accounts src fuel) (n pos : Nat) :
    Realizes src (fuel + 1) (body (fuel + 1)) pos n .body
      fun spans stmts => stmts.place (spans.past [.mark .openBrace]) n := by
  change Does src fuel _ pos [] n _ _
  rw [body]
  apply does_look
  apply does_mark
  exact does_last (h.bodyRest pos n _) fun stmts => rfl

theorem condition_realizes (h : Accounts src fuel) (n pos : Nat) :
    Realizes src (fuel + 1) (condition (fuel + 1)) pos n .condition
      fun spans e => e.place (spans.past [.mark .openParen]) n := by
  change Does src fuel _ pos [] n _ _
  rw [condition]
  apply does_mark
  apply does_nest (h.expr n _)
  intro e _
  apply does_mark
  exact does_pure rfl

theorem firstArm_realizes (h : Accounts src fuel) (n pos : Nat) :
    Realizes src (fuel + 1) (firstArm (fuel + 1)) pos n .firstArm
      fun spans arms => arms.place spans n := by
  change Does src fuel _ pos [] n _ _
  rw [firstArm]
  apply does_nest (h.condition n _)
  intro condition _
  apply does_nest (h.body _ _)
  intro stmts _
  apply does_nest (h.moreArms _ _)
  intro arms _
  apply does_pure
  simp only [Places.past_past]
  rfl

theorem moreArms_realizes (h : Accounts src fuel) (n pos : Nat) :
    Realizes src (fuel + 1) (moreArms (fuel + 1)) pos n .moreArms
      fun spans arms => arms.place spans n := by
  change Does src fuel _ pos [] n _ _
  rw [moreArms]
  apply does_acceptKeyword
  · apply does_acceptKeyword
    · exact does_last (h.firstArm n _) fun arms => rfl
    · apply does_nest (h.body n _)
      intro stmts _
      apply does_pure
      simp only [Places.past_past]
      rfl
  · exact does_pure rfl

theorem eachLoop_realizes (h : Accounts src fuel) (start : Span) (n pos : Nat) :
    Realizes src (fuel + 1) (eachLoop (fuel + 1) start) pos n .eachLoop
      (placeEach start n) := by
  change Does src fuel _ pos [] n _ _
  rw [eachLoop]
  apply does_mark
  apply does_word
  intro x
  apply does_inWord
  apply does_nest (h.expr n _)
  intro iterable _
  apply does_mark
  apply does_nest (h.body _ _)
  intro stmts _
  apply does_takeHidden
  simp only [Places.past_past]
  rfl

theorem expr_realizes (h : Accounts src fuel) (n pos : Nat) :
    Realizes src (fuel + 1) (expr (fuel + 1)) pos n .expr
      fun spans e => e.place spans n := by
  change Does src fuel _ pos [] n _ _
  rw [expr]
  apply does_nest (h.primary n _)
  intro head _
  apply does_last (h.calls _ _ _)
  intro calls
  rw [Places.past_nil]
  rfl

theorem calls_realizes (h : Accounts src fuel) (receiver : Expr) (n pos : Nat) :
    Realizes src (fuel + 1) (calls (fuel + 1) receiver) pos n .calls
      fun spans calls => calls.place receiver spans n := by
  change Does src fuel _ pos [] n _ _
  rw [calls]
  apply does_acceptMark
  · apply does_word
    intro method
    apply does_nest (h.args n _)
    intro args _
    apply does_previous
    apply does_last (h.calls _ _ _)
    intro rest
    simp only [Places.past_past]
    rfl
  · exact does_pure rfl

theorem args_realizes (h : Accounts src fuel) (n pos : Nat) :
    Realizes src (fuel + 1) (args (fuel + 1)) pos n .args
      fun spans args => args.place (spans.past [.mark .openParen]) n := by
  change Does src fuel _ pos [] n _ _
  rw [args]
  apply does_mark
  apply does_acceptMark
  · exact does_pure rfl
  · exact does_last (h.moreArgs n _) fun args => rfl

theorem moreArgs_realizes (h : Accounts src fuel) (n pos : Nat) :
    Realizes src (fuel + 1) (moreArgs (fuel + 1)) pos n .moreArgs
      fun spans args => (Grammar.Args.list args.1 args.2).place spans n := by
  change Does src fuel _ pos [] n _ _
  rw [moreArgs]
  apply does_nest (h.expr n _)
  intro first _
  rw [Places.past_nil]
  apply does_acceptMark
  · exact does_pure rfl
  apply does_acceptMark
  · apply does_nest (h.moreArgs _ _)
    intro args _
    apply does_pure
    simp only [Grammar.Args.place, Grammar.MoreArgs.place,
      Places.past_past, List.append_assoc]
    rfl
  · exact does_unexpected _

theorem bodyRest_of_brace {opened : Span} {pos n : Nat}
    (h : src.nodes[pos]? = some (.mark .closeBrace)) :
    bodyRest (fuel + 1) opened (src.cursor pos n) = .ok ([], src.cursor (pos + 1) n) := by
  rw [bodyRest, bind_of_ok (acceptMark_of_head h)]
  rfl

theorem bodyRest_of_none {opened pos n : Nat} (h : src.nodes[pos]? = none) :
    bodyRest (fuel + 1) (src.places opened) (src.cursor pos n) =
      .error (.refused (src.error pos (.unclosed opened))) := by
  have hne : src.nodes[pos]? ≠ some (.mark .closeBrace) := by
    rw [h]
    exact (Option.some_ne_none _).symm
  rw [bodyRest, bind_of_ok (acceptMark_of_ne hne), Source.error, Source.placeAt_of_none h]
  simp only [Bool.false_eq_true, if_false]
  rw [peek_bind, h]
  rfl

/-- After a `return` without a value, a body ends. -/
theorem does_bodyRest_end {T β : Type} {opened pos n : Nat} {us : List Token} {tree : T}
    {f : List Stmt → β} {value : T → β × Nat}
    (hcloses : Grammar.closes src.nodes[pos + us.length]?) (h : value tree = (f [], n)) :
    Does src (fuel + 1) (bodyRest (fuel + 1) (src.places opened) >>=
        fun rest => pure (f rest))
      pos us n (.accept (.mark .closeBrace) (.done tree) (.fault (.unclosed opened)))
        value := by
  apply does_look
  split
  case isTrue hbrace =>
      exact does_token (fun _ => bodyRest_of_brace hbrace) (fun hne => absurd hbrace hne)
        (does_pure h)
  case isFalse hne =>
      have hnone : src.nodes[pos + us.length]? = none := by
        have hmark := Bool.eq_false_iff.2 (mt any_isMark.1 hne)
        rw [Grammar.closes, hmark, Bool.false_or] at hcloses
        exact Option.isNone_iff_eq_none.1 hcloses
      rw [Does, bind_apply, bodyRest_of_none hnone]
      rfl

theorem bodyRest_realizes (h : Accounts src fuel) (opened n pos : Nat) :
    Realizes src (fuel + 1) (bodyRest (fuel + 1) (src.places opened))
        pos n (.bodyRest opened)
      fun spans stmts => stmts.place spans n := by
  change Does src fuel _ pos [] n _ _
  rw [bodyRest]
  apply does_acceptMark
  · exact does_pure rfl
  apply does_look
  apply does_peek
  cases hhead : src.nodes[pos]? with
  | none => exact does_unclosed hhead
  | some t =>
      apply does_nest (h.statement n _)
      intro tree hread
      rw [Places.past_nil]
      cases tree with
      | some stmt =>
          apply does_nest (h.bodyRest opened _ _)
          intro rest _
          exact does_pure rfl
      | none =>
          cases fuel with
          | zero => cases hread
          | succ fuel =>
              exact does_bodyRest_end (Grammar.closes_of_read_none hread) rfl

theorem stmtStart_first {first second : Option Token} {start : StmtStart} {t : Token}
    (h : stmtStart first second = start) (hfirst : start.first = some t) :
    first = some t := by
  subst h
  unfold stmtStart at hfirst
  split at hfirst
  all_goals first | exact hfirst | (split at hfirst <;> cases hfirst) | cases hfirst

theorem stmtStart_assign {first second : Option Token}
    (h : stmtStart first second = .assign) : ∃ w, first = some (.word w) := by
  unfold stmtStart at h
  split at h
  case h_9 w => exact ⟨w, rfl⟩
  all_goals cases h

theorem statement_realizes (h : Accounts src fuel) (n pos : Nat) :
    Realizes src (fuel + 1) (statement (fuel + 1)) pos n .statement
      (placeStatement n) := by
  change Does src fuel _ pos [] n _ _
  rw [statement]
  apply does_here
  apply does_peek
  apply does_peekSecond
  apply does_look
  generalize hstart : stmtStart _ _ = start
  cases start with
  | branch =>
      have ht := stmtStart_first hstart rfl
      rw [Source.placeAt_of_some ht]
      apply does_advance ht
      apply does_nest (h.firstArm n _)
      intro arms _
      apply does_previous
      exact does_pure rfl
  | loop =>
      have ht := stmtStart_first hstart rfl
      rw [Source.placeAt_of_some ht]
      apply does_advance ht
      apply does_nest (h.condition n _)
      intro condition _
      apply does_nest (h.body _ _)
      intro body _
      apply does_previous
      apply does_pure
      simp only [Places.past_past]
      rfl
  | each =>
      have ht := stmtStart_first hstart rfl
      rw [Source.placeAt_of_some ht]
      apply does_advance ht
      apply does_nest (h.eachLoop _ n _)
      intro parts _
      apply does_previous
      apply does_pure
      simp only [placeEach, Places.past_past]
      rfl
  | declare =>
      have ht := stmtStart_first hstart rfl
      rw [Source.placeAt_of_some ht]
      apply does_advance ht
      apply does_word
      intro x
      apply does_mark
      apply does_nest (h.expr n _)
      intro init _
      apply does_previous
      exact does_pure rfl
  | giveBack =>
      have ht := stmtStart_first hstart rfl
      rw [Source.placeAt_of_some ht]
      apply does_advance ht
      apply does_atMark
      apply does_peek
      apply does_look
      apply does_ite
      · intro _
        apply does_previous
        exact does_pure rfl
      · intro _
        apply does_nest (h.expr n _)
        intro value _
        apply does_previous
        exact does_pure rfl
  | leave =>
      have ht := stmtStart_first hstart rfl
      rw [Source.placeAt_of_some ht]
      apply does_advance ht
      apply does_previous
      exact does_pure rfl
  | skip =>
      have ht := stmtStart_first hstart rfl
      rw [Source.placeAt_of_some ht]
      apply does_advance ht
      apply does_previous
      exact does_pure rfl
  | block =>
      have ht := stmtStart_first hstart rfl
      rw [Source.placeAt_of_some ht]
      apply does_nest (h.body n _)
      intro body _
      apply does_previous
      apply does_pure
      rw [Places.past_nil]
      rfl
  | assign =>
      obtain ⟨w, hw⟩ := stmtStart_assign hstart
      rw [Source.placeAt_of_some hw]
      apply does_word
      intro x
      apply does_mark
      apply does_nest (h.expr n _)
      intro value _
      apply does_previous
      exact does_pure rfl
  | expr =>
      apply does_nest (h.expr n _)
      intro value hread
      rw [Source.placeAt_of_read hread value.yield_ne_nil, Places.past_nil]
      apply does_previous
      apply does_pure
      rw [placeStatement, Grammar.Stmt.place, Places.cover, Grammar.Stmt.yield,
        Places.last_of_ne_nil _ _ (src.before pos) value.yield_ne_nil]
      rfl

theorem primary_realizes (h : Accounts src fuel) (n pos : Nat) :
    Realizes src (fuel + 1) (primary (fuel + 1)) pos n .primary
      fun spans p => p.place spans n := by
  change Does src fuel _ pos [] n _ _
  rw [primary]
  apply does_here
  apply does_peek
  apply does_look
  cases ht : src.nodes[pos]? with
  | none => exact does_unexpected _
  | some t =>
      have hplace : src.placeAt (pos + ([] : List Token).length) = src.places pos :=
        Source.placeAt_of_some ht
      rw [hplace]
      cases t with
      | int i => exact does_advance ht (does_pure rfl)
      | double x => exact does_advance ht (does_pure rfl)
      | text s => exact does_advance ht (does_pure rfl)
      | mark m => exact does_unexpected _
      | word w =>
          apply does_advance ht
          apply does_atMark
          apply does_look
          apply does_ite
          · intro _
            apply does_nest (h.args n _)
            intro args _
            apply does_previous
            apply does_pure
            rw [Places.past_past]
            rfl
          · intro _
            exact does_pure rfl
      | keyword k =>
          cases k with
          | yes => exact does_advance ht (does_pure rfl)
          | no => exact does_advance ht (does_pure rfl)
          | nothing => exact does_advance ht (does_pure rfl)
          | function =>
              apply does_peekSecond
              apply does_ite
              · intro _
                apply does_advance ht
                apply does_nest (h.functionRest _ _ n _)
                intro parts _
                apply does_pure
                rw [placeFunction_past]
                rfl
              · intro _
                exact does_unexpected _
          | declare | branch | otherwise | each | loop | giveBack | leave | skip =>
              exact does_unexpected _

theorem function_realizes (h : Accounts src fuel) (n pos : Nat) :
    Realizes src (fuel + 1) (function fuel) pos n .function
      fun spans f => f.place spans n := by
  change Does src fuel _ pos [] n _ _
  rw [function]
  apply does_keyword
  apply does_word
  intro name
  apply does_last (h.functionRest _ _ n _)
  intro parts
  rw [placeFunction_past]
  rfl

/-- Each reader does what its script does, whatever the tokens and the count of
nested readers. -/
theorem accounts (src : Source) (fuel : Nat) : Accounts src fuel := by
  induction fuel with
  | zero => constructor <;> intros <;> rfl
  | succ fuel ih =>
      exact ⟨moreParams_realizes ih, params_realizes ih, functionRest_realizes ih,
        body_realizes ih, bodyRest_realizes ih, statement_realizes ih,
          condition_realizes ih,
        firstArm_realizes ih, moreArms_realizes ih,
          eachLoop_realizes ih, expr_realizes ih,
        calls_realizes ih, primary_realizes ih, args_realizes ih, moreArgs_realizes ih⟩

end Readers

/-! ## Whole sources -/

section Sources

variable {src : Source}

open Grammar (parseAll parseAll_eq)

/-- A closing brace begins no statement. -/
theorem parseAll_statement_of_brace {ts : List Token} {pos : Nat}
    (h : ts[pos]? = some (.mark .closeBrace)) :
    parseAll ts .statement pos = .refused pos (.unexpected .expression) := by
  have hprimary : parseAll ts .primary pos = .refused pos (.unexpected .expression) := by
    rw [parseAll_eq, plan, Script.run, h]
    rfl
  have hexpr : parseAll ts .expr pos = .refused pos (.unexpected .expression) := by
    rw [parseAll_eq, plan, Script.run, hprimary]
  rw [parseAll_eq, plan, Script.run, h]
  change Script.run ts (parseAll ts) (.nest .expr _) pos = _
  rw [Script.run, hexpr]

theorem untilEnd_of_none {α : Type} {item : Reader α} {rounds pos n : Nat}
    (h : src.nodes[pos]? = none) :
    untilEnd item (rounds + 1) (src.cursor pos n) = .ok ([], src.cursor pos n) := by
  rw [untilEnd, peek_bind, h]
  rfl

/-- After a `return` without a value, only the end of the tokens is expected. -/
theorem does_untilEnd_end {T β : Type} {fuel rounds pos n : Nat} {us : List Token}
    {tree : T} {f : List Stmt → β} {value : T → β × Nat}
    (hfuel : budget src.nodes.length ≤ fuel)
    (hcloses : Grammar.closes src.nodes[pos + us.length]?) (h : value tree = (f [], n)) :
    Does src fuel (untilEnd (statement fuel) (rounds + 1) >>= fun rest => pure (f rest))
        pos us n
      (.look fun _ next _ =>
        if next.isNone then .done tree else .fault (.unexpected .expression)) value := by
  apply does_look
  cases hnext : src.nodes[pos + us.length]? with
  | none =>
      rw [Does, bind_of_ok (untilEnd_of_none hnext)]
      exact does_pure h
  | some t =>
      obtain rfl : t = .mark .closeBrace := by
        rw [hnext, Grammar.closes, Option.isNone_some, Bool.or_false] at hcloses
        exact Option.some.inj (any_isMark.1 hcloses)
      have hrefused := (accounts src fuel).statement n (pos + us.length)
      rw [Realizes, Grammar.parse_eq_parseAll hfuel,
        parseAll_statement_of_brace hnext] at hrefused
      rw [Does, bind_apply, untilEnd, peek_bind, hnext]
      simp only [Option.isNone_some, Bool.false_eq_true, if_false]
      rw [bind_apply, hrefused]
      rfl

/-- The statements up to the end are read in as many rounds as there are tokens, and
one more to see the end. -/
theorem untilEnd_statement (rounds : Nat) {pos : Nat} (n : Nat)
    (hpos : pos ≤ src.nodes.length) (hrounds : src.nodes.length < pos + rounds) :
    Realizes src (budget src.nodes.length)
      (untilEnd (statement (budget src.nodes.length)) rounds) pos n .statements
      fun spans stmts => stmts.place spans n := by
  induction rounds generalizing pos n with
  | zero => omega
  | succ rounds ih =>
      have hstatement := (accounts src (budget src.nodes.length)).statement n pos
      change _ = src.realize _ (parseAll src.nodes .statements pos)
      rw [parseAll_eq]
      change Does src (budget src.nodes.length) _ pos [] n _ _
      rw [untilEnd]
      apply does_peek
      apply does_look
      apply does_ite
      · intro _
        exact does_pure rfl
      intro _
      apply does_nest hstatement
      intro tree hread
      have hstop := (Grammar.stop_of_read hread hpos).2
      rw [Places.past_nil]
      cases tree with
      | some stmt =>
          have hyield := stmt.length_pos
          have hmore : src.nodes.length < pos + ([] ++ stmt.yield).length + rounds := by
            rw [List.nil_append]
            omega
          apply does_nest (ih _ hstop hmore)
          intro rest _
          exact does_pure rfl
      | none =>
          cases rounds with
          | zero => exact absurd hrounds (Nat.not_lt.2 hstop)
          | succ rounds =>
              exact does_untilEnd_end (Nat.le_refl _)
                (Grammar.closes_of_read_none hread) rfl

/-- The functions up to the end are read in as many rounds as there are tokens, and one
more to see the end. -/
theorem untilEnd_function (rounds : Nat) {pos : Nat} (n : Nat)
    (hpos : pos ≤ src.nodes.length) (hrounds : src.nodes.length < pos + rounds) :
    Realizes src (budget src.nodes.length)
      (untilEnd (function (budget src.nodes.length)) rounds) pos n .functions
      fun spans fs => Grammar.Function.placeAll fs spans n := by
  induction rounds generalizing pos n with
  | zero => omega
  | succ rounds ih =>
      have hfunction : Realizes src (budget src.nodes.length)
          (function (budget src.nodes.length)) pos n .function
            fun spans f => f.place spans n := by
        have hmore := function_realizes (accounts src (budget src.nodes.length)) n pos
        rwa [Realizes, Grammar.parse_eq_parseAll (Nat.le_succ _)] at hmore
      change _ = src.realize _ (parseAll src.nodes .functions pos)
      rw [parseAll_eq]
      change Does src (budget src.nodes.length) _ pos [] n _ _
      rw [untilEnd]
      apply does_peek
      apply does_look
      apply does_ite
      · intro _
        exact does_pure rfl
      intro _
      apply does_nest hfunction
      intro f hread
      have hstop := (Grammar.stop_of_read hread hpos).2
      rw [Places.past_nil]
      have hmore : src.nodes.length < pos + ([] ++ f.yield).length + rounds := by
        have hyield : 0 < f.yield.length := Nat.succ_pos _
        rw [List.nil_append]
        omega
      apply does_nest (ih _ hstop hmore)
      intro rest _
      exact does_pure rfl

theorem readAll_eq {α : Type} {item : Nat → Reader α} {source : String} {spans : Places}
    {ts : List Token} {g : Goal} {value : Places → g.Tree → List α × Nat}
    (h : Realizes (.ofText source spans ts) (budget ts.length)
      (untilEnd (item (budget ts.length)) (ts.length + 1)) 0 0 g value) :
    readAll item source (locate spans ts) =
      ((Source.ofText source spans ts).realize (value spans) (parseAll ts g 0)).map
        Prod.fst := by
  rw [Realizes, Source.cursor_ofText, Source.spans_zero] at h
  rw [readAll, length_locate]
  change Except.map Prod.fst (untilEnd _ _ (start source (locate spans ts))) = _
  rw [h]
  rfl

theorem readAll_statement (source : String) (spans : Places) (ts : List Token) :
    readAll statement source (locate spans ts) =
      ((Source.ofText source spans ts).realize (fun stmts => stmts.place spans 0)
        (parseAll ts .statements 0)).map Prod.fst := by
  have hrounds : ts.length < 0 + (ts.length + 1) := by omega
  exact readAll_eq (untilEnd_statement _ 0 (Nat.zero_le _) hrounds)

theorem readAll_function (source : String) (spans : Places) (ts : List Token) :
    readAll function source (locate spans ts) =
      ((Source.ofText source spans ts).realize
          (fun fs => Grammar.Function.placeAll fs spans 0)
        (parseAll ts .functions 0)).map Prod.fst := by
  have hrounds : ts.length < 0 + (ts.length + 1) := by omega
  exact readAll_eq (untilEnd_function _ 0 (Nat.zero_le _) hrounds)

theorem Source.map_realize_ne_exhausted {T α : Type} {value : T → α × Nat}
    {result : Parsed T} (h : result ≠ .exhausted) :
    (src.realize value result).map Prod.fst ≠ .error .exhausted := by
  cases result with
  | read tree stop =>
      intro heq
      cases heq
  | refused place cause =>
      intro heq
      cases heq
  | exhausted => exact absurd rfl h

/-- Functions are read or refused, whatever the tokens. -/
theorem functions_settle (source : String) (tokens : List (Located Token)) :
    readAll function source tokens ≠ .error .exhausted := by
  have hread := readAll_function source (placesOf tokens) (tokens.map Located.node)
  rw [locate_nodes] at hread
  rw [hread]
  exact Source.map_realize_ne_exhausted Grammar.parseAll_ne_exhausted

/-- Statements are read or refused, whatever the tokens. -/
theorem statements_settle (source : String) (tokens : List (Located Token)) :
    readAll statement source tokens ≠ .error .exhausted := by
  have hread := readAll_statement source (placesOf tokens) (tokens.map Located.node)
  rw [locate_nodes] at hread
  rw [hread]
  exact Source.map_realize_ne_exhausted Grammar.parseAll_ne_exhausted

end Sources

end Parser

end HandleScript
