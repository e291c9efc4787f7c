import HandleScript.Proofs.Parser.Soundness

/-!
# Progress of the parser

A cursor stands at a position in a sequence of tokens. A reader that succeeds leaves
it further on in the tokens, asks for the token read last only when one has been
read, and comes to the same with a larger count of nested readers as soon as its own
one suffices for all of the tokens. So the loop around the readers of functions and
of statements ends after at most as many rounds as there are tokens, and what stands
in for the token before the first one is of no consequence.
-/

namespace HandleScript

namespace Parser

open Grammar (Goal parse parseAll)

/-! ## Positions -/

/-- The tokens ahead, without their places. -/
def Cursor.tokens (c : Cursor) : List Token :=
  c.rest.map Located.node

/-- The cursor stands at the position `pos` of the tokens: those from there on are ahead,
and the span of the one before, if there is one, is that of the token read last. -/
structure Cursor.At (tokens : List (Located Token)) (pos : Nat) (c : Cursor) : Prop where
  le : pos ≤ tokens.length
  rest : c.rest = tokens.drop pos
  previous : ∀ i, pos = i + 1 → tokens[i]?.map Located.span = some c.previous

/-- The tokens, with what the cursor has for the token before the first one and for the
end. -/
def Cursor.sourceIn (tokens : List (Located Token)) (c : Cursor) : Source :=
  ⟨tokens.map Located.node, placesOf tokens, c.previous, c.ending⟩

section Positions

variable {tokens : List (Located Token)} {pos : Nat} {c : Cursor}

theorem spans_sourceIn (tokens : List (Located Token)) (pos : Nat) (c : Cursor) :
    (c.sourceIn tokens).spans pos = placesOf (tokens.drop pos) := by
  funext i
  rw [placesOf, List.getElem?_drop]
  rfl

theorem rest_cursor (tokens : List (Located Token)) (pos n : Nat) (c : Cursor) :
    ((c.sourceIn tokens).cursor pos n).rest = tokens.drop pos := by
  change locate ((c.sourceIn tokens).spans pos) ((tokens.map Located.node).drop pos) = _
  rw [spans_sourceIn, ← List.map_drop, locate_nodes]

theorem Cursor.At.eq_cursor (hc : c.At tokens pos) :
    c = (c.sourceIn tokens).cursor pos c.loops := by
  have hrest := hc.rest.trans (rest_cursor tokens pos c.loops c).symm
  have hprevious : c.previous = (c.sourceIn tokens).before pos := by
    cases pos with
    | zero => rfl
    | succ i =>
        change c.previous = (tokens[i]?.map Located.span).getD default
        rw [hc.previous i rfl, Option.getD_some]
  calc
    c = ⟨c.rest, c.previous, c.loops, c.ending⟩ := rfl
    _ = (c.sourceIn tokens).cursor pos c.loops := by rw [hrest, hprevious]; rfl

theorem at_cursor (c : Cursor) (n : Nat) (hpos : pos ≤ tokens.length) :
    ((c.sourceIn tokens).cursor pos n).At tokens pos := by
  refine ⟨hpos, rest_cursor tokens pos n c, ?_⟩
  rintro i rfl
  change _ = some ((tokens[i]?.map Located.span).getD default)
  rw [List.getElem?_eq_getElem hpos]
  rfl

theorem at_start (source : String) (tokens : List (Located Token)) :
    (start source tokens).At tokens 0 :=
  ⟨Nat.zero_le _, rfl, fun i hi => by cases hi⟩

/-- Any cursor stands before the tokens that are ahead. -/
theorem at_rest (c : Cursor) : c.At c.rest 0 :=
  ⟨Nat.zero_le _, rfl, fun i hi => by cases hi⟩

end Positions

/-! ## The token read last -/

/-- From the cursor on, the reader asks for the token read last only where there is one:
at a position above zero, with the span of the token before as the answer. -/
inductive Grounded (tokens : List (Located Token)) : {α : Type} → Reader α → Cursor → Prop
  | pure {α : Type} (a : α) (c : Cursor) : Grounded tokens (pure a) c
  | throw {α : Type} (e : Stop) (c : Cursor) : Grounded tokens (throw e : Reader α) c
  /-- To look at anything but the token read last. -/
  | look {α : Type} {c : Cursor} (f : Cursor → α)
      (h : ∀ c s, f { c with previous := s } = f c) :
      Grounded tokens (do return f (← get)) c
  | previous {c : Cursor} {i : Nat} (h : c.At tokens (i + 1)) : Grounded tokens previous c
  | advance (c : Cursor) : Grounded tokens advance c
  | takeHidden (c : Cursor) : Grounded tokens takeHidden c
  | bind {α β : Type} {x : Reader α} {f : α → Reader β} {c : Cursor}
      (hx : Grounded tokens x c)
      (hf : ∀ a d, x c = .ok (a, d) → Grounded tokens (f a) d) :
        Grounded tokens (x >>= f) c

/-- While no token has been read, the span that stands in for it is carried along.
Afterwards it is gone. -/
theorem Grounded.fallback {tokens : List (Located Token)} {α : Type} {x : Reader α}
    {c : Cursor} (h : Grounded tokens x c) (hc : c.rest = tokens) (s : Span) :
    x { c with previous := s } = x c ∨
      ∃ a d, x c = .ok (a, d) ∧ d.rest = tokens ∧
        x { c with previous := s } = .ok (a, { d with previous := s }) := by
  induction h with
  | pure a c => exact .inr ⟨a, c, rfl, hc, rfl⟩
  | throw e c => exact .inl rfl
  | @look α c f hf =>
      refine .inr ⟨f c, c, rfl, hc, ?_⟩
      rw [← hf c s]
      rfl
  | @previous c i hat =>
      have hlength := congrArg List.length (hc.symm.trans hat.rest)
      have hle := hat.le
      rw [List.length_drop] at hlength
      omega
  | advance c =>
      obtain ⟨rest, previous, loops, ending⟩ := c
      cases rest with
      | nil => exact .inr ⟨(), _, rfl, hc, rfl⟩
      | cons token rest => exact .inl rfl
  | takeHidden c => exact .inr ⟨_, _, rfl, hc, rfl⟩
  | @bind α β x f c hx hf ihx ihf =>
      rw [bind_apply, bind_apply]
      rcases ihx hc with hsame | ⟨a, d, hrun, hrest, hrun'⟩
      · exact .inl (by rw [hsame])
      · rw [hrun, hrun']
        exact ihf a d hrun hrest

theorem Grounded.run'_fallback {tokens : List (Located Token)} {α : Type} {x : Reader α}
    {c : Cursor} (h : Grounded tokens x c) (hc : c.rest = tokens) (s : Span) :
    x.run' { c with previous := s } = x.run' c := by
  change Prod.fst <$> x { c with previous := s } = Prod.fst <$> x c
  rcases h.fallback hc s with hsame | ⟨a, d, hrun, -, hrun'⟩
  · rw [hsame]
  · rw [hrun, hrun']
    rfl

/-! ## Readers of a part of speech -/

/-- The reader reads a part of speech that has at least one token. -/
structure ReadsPart {α : Type} (reader : Nat → Reader α) (g : Goal) (extra : Nat)
    (value : (n : Nat) → Places → g.Tree → α × Nat) : Prop where
  realizes : ∀ src fuel pos n, Realizes src (fuel + extra) (reader fuel) pos n g (value n)
  nonempty : ∀ tree, g.yield tree ≠ []
  loops : ∀ n spans tree, n ≤ (value n spans tree).2

/-- Reads so many tokens, whatever they are. -/
def advanceBy : (count : Nat) → Reader Unit
  | 0 => return ()
  | count + 1 => do
    advance
    advanceBy count

/-- Takes so many hidden variables. -/
def takeHiddens : (count : Nat) → Reader Unit
  | 0 => return ()
  | count + 1 => do
    let _ ← takeHidden
    takeHiddens count

section Parts

variable {α : Type} {tokens : List (Located Token)} {reader : Nat → Reader α} {g : Goal}
  {extra fuel pos n : Nat}
  {value : (n : Nat) → Places → g.Tree → α × Nat} {c d : Cursor} {src : Source}

theorem ReadsPart.run_eq (h : ReadsPart reader g extra value) (hc : c.At tokens pos)
    (fuel : Nat) :
    reader fuel c = (c.sourceIn tokens).realize
        (value c.loops ((c.sourceIn tokens).spans pos))
      (parse (tokens.map Located.node) (fuel + extra) g pos) := by
  have hread := h.realizes (c.sourceIn tokens) fuel pos c.loops
  rwa [Realizes, ← hc.eq_cursor] at hread

/-- What a reader does is decided by the tokens ahead. -/
theorem ReadsPart.run_tokens (h : ReadsPart reader g extra value) (fuel : Nat)
    (c : Cursor) :
    reader fuel c = (c.sourceIn c.rest).realize (value c.loops (placesOf c.rest))
      (parse c.tokens (fuel + extra) g 0) := by
  rw [h.run_eq (at_rest c), Source.spans_zero]
  rfl

theorem ReadsPart.moves (h : ReadsPart reader g extra value) (hc : c.At tokens pos)
    {a : α} (hrun : reader fuel c = .ok (a, d)) :
    ∃ pos', pos < pos' ∧ d.At tokens pos' := by
  rw [h.run_eq hc] at hrun
  obtain ⟨tree, stop, hparse, -, rfl⟩ := Source.realize_eq_ok hrun
  obtain ⟨rfl, hle⟩ := Grammar.stop_of_read hparse (by simpa using hc.le)
  have hpos := List.length_pos_iff.2 (h.nonempty tree)
  exact ⟨_, by omega, at_cursor c _ (by simpa using hle)⟩

/-- With a sufficient count, the reader does what it does with the budget, and does not
run out of it. -/
theorem ReadsPart.ends (h : ReadsPart reader g extra value)
    (hfuel : budget tokens.length ≤ fuel) (hc : c.At tokens pos) :
    reader fuel c = reader (budget tokens.length) c ∧
      reader fuel c ≠ .error .exhausted := by
  have hall (fuel : Nat) (hfuel : budget tokens.length ≤ fuel) :
      parse (tokens.map Located.node) (fuel + extra) g pos =
        parseAll (tokens.map Located.node) g pos := by
    refine Grammar.parse_eq_parseAll ?_
    rw [List.length_map]
    omega
  rw [h.run_eq hc, h.run_eq hc, hall fuel hfuel, hall _ (Nat.le_refl _)]
  refine ⟨rfl, fun hexhausted => ?_⟩
  exact Source.map_realize_ne_exhausted Grammar.parseAll_ne_exhausted
    (congrArg (Except.map Prod.fst) hexhausted)

theorem advanceBy_cursor {count : Nat} (n : Nat) (h : pos + count ≤ src.nodes.length) :
    advanceBy count (src.cursor pos n) = .ok ((), src.cursor (pos + count) n) := by
  induction count generalizing pos with
  | zero => rfl
  | succ count ih =>
      have hlt : pos < src.nodes.length := by omega
      rw [advanceBy, bind_of_ok (advance_eq (List.getElem?_eq_getElem hlt)),
        ih (by omega)]
      rw [Nat.add_assoc, Nat.add_comm 1]

theorem takeHiddens_cursor (count : Nat) :
    takeHiddens count (src.cursor pos n) = .ok ((), src.cursor pos (n + count)) := by
  induction count generalizing n with
  | zero => rfl
  | succ count ih =>
      rw [takeHiddens, Nat.add_comm count, ← Nat.add_assoc]
      exact ih

theorem grounded_advanceBy (count : Nat) (c : Cursor) :
    Grounded tokens (advanceBy count) c := by
  induction count generalizing c with
  | zero => exact .pure () c
  | succ count ih => exact .bind (.advance c) fun _ d _ => ih d

theorem grounded_takeHiddens (count : Nat) (c : Cursor) :
    Grounded tokens (takeHiddens count) c := by
  induction count generalizing c with
  | zero => exact .pure () c
  | succ count ih => exact .bind (.takeHidden c) fun _ d _ => ih d

/-- What the tokens ahead of a cursor come to: a value, with the numbers of tokens and
of loops that are read for it. -/
def foresee (fuel : Nat) (g : Goal) (value : (n : Nat) → Places → g.Tree → α × Nat)
    (c : Cursor) : Except Stop (α × Nat × Nat) :=
  match parse c.tokens fuel g 0 with
  | .read tree stop =>
    let (a, m) := value c.loops (placesOf c.rest) tree
    .ok (a, stop, m - c.loops)
  | .refused place cause => .error (.refused ((c.sourceIn c.rest).error place cause))
  | .exhausted => .error .exhausted

/-- Reads what has been foreseen. -/
def fulfil : Except Stop (α × Nat × Nat) → Reader α
  | .ok (a, count, loops) => do
    advanceBy count
    takeHiddens loops
    return a
  | .error e => throw e

/-- A reader looks at the tokens ahead, and then reads those that it needs. -/
theorem ReadsPart.eq_fulfil (h : ReadsPart reader g extra value) (fuel : Nat) :
    reader fuel = (do return foresee (fuel + extra) g value (← get)) >>= fulfil := by
  funext c
  rw [h.run_tokens fuel c]
  change _ = fulfil (foresee (fuel + extra) g value c) c
  rw [foresee]
  cases hparse : parse c.tokens (fuel + extra) g 0 with
  | read tree stop =>
      have hstop := (Grammar.stop_of_read hparse (Nat.zero_le _)).2
      have hloops := h.loops c.loops (placesOf c.rest) tree
      have hread : advanceBy stop c =
          .ok ((), (c.sourceIn c.rest).cursor stop c.loops) := by
        have hlength : 0 + stop ≤ (c.sourceIn c.rest).nodes.length := by
          rwa [Nat.zero_add]
        have hadvance := advanceBy_cursor c.loops hlength
        rwa [← (at_rest c).eq_cursor, Nat.zero_add] at hadvance
      simp only [fulfil]
      rw [bind_of_ok hread, bind_of_ok (takeHiddens_cursor _), Nat.add_sub_cancel' hloops]
      rfl
  | refused place cause => rfl
  | exhausted => rfl

theorem ReadsPart.grounded (h : ReadsPart reader g extra value) (fuel : Nat)
    (c : Cursor) : Grounded tokens (reader fuel) c := by
  rw [h.eq_fulfil fuel]
  refine .bind (.look _ fun _ _ => rfl) fun outcome d _ => ?_
  rcases outcome with e | ⟨a, count, loops⟩
  · exact .throw e d
  · exact .bind (grounded_advanceBy count d) fun _ d _ =>
      .bind (grounded_takeHiddens loops d) fun _ d _ => .pure a d

end Parts

/-- From wherever it starts in the tokens, a reader that succeeds stands further on in
them. For all sufficient counts of nested readers it comes to the same, and does not run
out of them. It asks for the token read last only when there is one, so that at the first
token it does not matter what stands in for it. -/
structure Progresses {α : Type} (tokens : List (Located Token))
    (reader : Nat → Reader α) : Prop where
  moves : ∀ fuel c pos, c.At tokens pos → ∀ a d, reader fuel c = .ok (a, d) →
    ∃ pos', pos < pos' ∧ d.At tokens pos'
  ends : ∀ fuel, budget tokens.length ≤ fuel → ∀ c pos, c.At tokens pos →
    reader fuel c = reader (budget tokens.length) c
  settles : ∀ fuel, budget tokens.length ≤ fuel → ∀ c pos, c.At tokens pos →
    reader fuel c ≠ .error .exhausted
  grounded : ∀ fuel c pos, c.At tokens pos → Grounded tokens (reader fuel) c
  fallback : ∀ fuel c s, c.At tokens 0 →
    reader fuel { c with previous := s } = reader fuel c

/-- A reader that has read a token has another one for the token read last than the one
that stands in for it. -/
theorem ReadsPart.fallback {α : Type} {tokens : List (Located Token)}
    {reader : Nat → Reader α} {g : Goal} {extra : Nat}
    {value : (n : Nat) → Places → g.Tree → α × Nat} (h : ReadsPart reader g extra value)
    (fuel : Nat) {c : Cursor} (s : Span) (hc : c.At tokens 0) :
    reader fuel { c with previous := s } = reader fuel c := by
  have hfirst : c.rest = tokens := by rw [hc.rest, List.drop_zero]
  rcases (h.grounded fuel c).fallback hfirst s with hsame | ⟨a, d, hrun, hrest, -⟩
  · exact hsame
  · obtain ⟨pos', hpos, hd⟩ := h.moves hc hrun
    have hle := hd.le
    have hlength := congrArg List.length (hrest.symm.trans hd.rest)
    rw [List.length_drop] at hlength
    omega

theorem ReadsPart.progresses {α : Type} {reader : Nat → Reader α} {g : Goal} {extra : Nat}
    {value : (n : Nat) → Places → g.Tree → α × Nat} (h : ReadsPart reader g extra value)
    (tokens : List (Located Token)) : Progresses tokens reader where
  moves _ _ _ hc _ _ hrun := h.moves hc hrun
  ends _ hfuel _ _ hc := (h.ends hfuel hc).1
  settles _ hfuel _ _ hc := (h.ends hfuel hc).2
  grounded fuel c _ _ := h.grounded fuel c
  fallback fuel _ s hc := h.fallback fuel s hc

/-! ## The loop around the readers -/

/-- The loop that reads one item after the other as long as tokens are ahead, in so many
rounds. -/
inductive Loops {α : Type} (item : Reader α) :
    Nat → Cursor → Except Stop (List α × Cursor) → Prop
  | ends {c : Cursor} (h : c.rest = []) : Loops item 0 c (.ok ([], c))
  | fails {c : Cursor} {e : Stop} (h : c.rest ≠ []) (hrun : item c = .error e) :
      Loops item 1 c (.error e)
  | round {c d : Cursor} {a : α} {k : Nat} {result : Except Stop (List α × Cursor)}
      (h : c.rest ≠ []) (hrun : item c = .ok (a, d)) (hloop : Loops item k d result) :
      Loops item (k + 1) c (result.map fun r => (a :: r.1, r.2))

/-- The loop around a reader has the outcome, in at most as many rounds as there are
tokens and for all sufficient counts of nested readers. The token read last is asked for
only when there is one. -/
structure LoopEnds {α : Type} (source : String) (tokens : List (Located Token))
    (reader : Nat → Reader α) (outcome : Except (Located GrammarError) (List α)) :
    Prop where
  rounds : ∃ k result, k ≤ tokens.length ∧
      outcome.mapError .refused = result.map Prod.fst ∧
    ∀ fuel, budget tokens.length ≤ fuel →
      Loops (reader fuel) k (start source tokens) result
  grounded : Grounded tokens
      (untilEnd (reader (budget tokens.length)) (tokens.length + 1))
    (start source tokens)
  fallback : ∀ s, (untilEnd (reader (budget tokens.length)) (tokens.length + 1)).run'
    { start source tokens with previous := s } = outcome.mapError .refused

section Loops

variable {α : Type} {tokens : List (Located Token)} {item : Reader α}
  {reader : Nat → Reader α}
  {c : Cursor} {pos : Nat}

theorem Cursor.At.lt (hc : c.At tokens pos) (h : c.rest ≠ []) : pos < tokens.length := by
  rw [hc.rest, ne_eq, List.drop_eq_nil_iff] at h
  omega

theorem untilEnd_of_nil (rounds : Nat) (h : c.rest = []) :
    untilEnd item (rounds + 1) c = .ok ([], c) := by
  obtain ⟨rest, previous, loops, ending⟩ := c
  subst h
  rfl

theorem untilEnd_of_ne_nil (rounds : Nat) (h : c.rest ≠ []) :
    untilEnd item (rounds + 1) c =
      (item >>= fun first => untilEnd item rounds >>= fun rest =>
        pure (first :: rest)) c := by
  obtain ⟨rest, previous, loops, ending⟩ := c
  cases rest with
  | nil => exact absurd rfl h
  | cons token rest => rfl

/-- Each round moves on by a token, so that there are enough rounds if there are more than
tokens ahead. -/
theorem Progresses.loops_untilEnd (h : Progresses tokens reader) (fuel rounds : Nat)
    (hc : c.At tokens pos) (hrounds : tokens.length < pos + rounds) :
    ∃ k, pos + k ≤ tokens.length ∧ Loops (reader fuel) k c
      (untilEnd (reader fuel) rounds c) := by
  induction rounds generalizing pos c with
  | zero =>
      have hle := hc.le
      omega
  | succ rounds ih =>
      by_cases hnil : c.rest = []
      · rw [untilEnd_of_nil rounds hnil]
        exact ⟨0, hc.le, .ends hnil⟩
      · rw [untilEnd_of_ne_nil rounds hnil, bind_apply]
        cases hrun : reader fuel c with
        | error e => exact ⟨1, hc.lt hnil, .fails hnil hrun⟩
        | ok r =>
            obtain ⟨a, d⟩ := r
            obtain ⟨pos', hpos, hd⟩ := h.moves fuel c pos hc a d hrun
            obtain ⟨k, hk, hloop⟩ := ih hd (by omega)
            have hrest : (untilEnd (reader fuel) rounds >>= fun rest => pure (a :: rest))
                d =
                (untilEnd (reader fuel) rounds d).map fun r => (a :: r.1, r.2) := by
              rw [bind_apply]
              cases untilEnd (reader fuel) rounds d <;> rfl
            refine ⟨k + 1, by omega, ?_⟩
            simp only
            rw [hrest]
            exact .round hnil hrun hloop

/-- The loop goes through the same rounds with all sufficient counts of nested readers. -/
theorem Progresses.loops_of_le (h : Progresses tokens reader) {fuel k : Nat}
    (hfuel : budget tokens.length ≤ fuel) {result : Except Stop (List α × Cursor)}
    (hloop : Loops (reader (budget tokens.length)) k c result) (hc : c.At tokens pos) :
    Loops (reader fuel) k c result := by
  induction hloop generalizing pos with
  | ends hnil => exact .ends hnil
  | @fails c e hne hrun => exact .fails hne ((h.ends fuel hfuel c pos hc).trans hrun)
  | @round c d a k result hne hrun hloop ih =>
      obtain ⟨pos', -, hd⟩ := h.moves _ c pos hc a d hrun
      exact .round hne ((h.ends fuel hfuel c pos hc).trans hrun) (ih hd)

theorem Progresses.grounded_untilEnd (h : Progresses tokens reader) (fuel rounds : Nat)
    (hc : c.At tokens pos) : Grounded tokens (untilEnd (reader fuel) rounds) c := by
  induction rounds generalizing pos c with
  | zero => exact .throw _ c
  | succ rounds ih =>
      have hpeek : Grounded tokens peek c := .look _ fun _ _ => rfl
      refine .bind hpeek fun next d hnext => ?_
      cases hnext
      split
      · exact .pure [] c
      · refine .bind (h.grounded fuel c pos hc) fun first d hrun => ?_
        obtain ⟨pos', -, hd⟩ := h.moves fuel c pos hc first d hrun
        exact .bind (ih hd) fun rest d _ => .pure (first :: rest) d

theorem Progresses.loopEnds (h : Progresses tokens reader) {source : String}
    {outcome : Except (Located GrammarError) (List α)}
    (houtcome : outcome.mapError .refused = readAll reader source tokens) :
    LoopEnds source tokens reader outcome := by
  have hstart := at_start source tokens
  have hgrounded := h.grounded_untilEnd (budget tokens.length) (tokens.length + 1) hstart
  obtain ⟨k, hk, hloop⟩ :=
    h.loops_untilEnd (budget tokens.length) (tokens.length + 1) hstart (by omega)
  refine ⟨⟨k, _, by omega, houtcome, fun fuel hfuel => h.loops_of_le hfuel hloop hstart⟩,
    hgrounded, fun s => ?_⟩
  rw [hgrounded.run'_fallback rfl, houtcome]
  rfl

theorem mapError_settle {outcome : Except Stop α} (h : outcome ≠ .error .exhausted) :
    (settle outcome h).mapError .refused = outcome := by
  rcases outcome with (e | -) | a
  · rfl
  · exact absurd rfl h
  · rfl

end Loops

/-! ## The parser -/

theorem function_readsPart :
    ReadsPart function .function 1 fun n spans f => f.place spans n where
  realizes src fuel pos n := function_realizes (accounts src fuel) n pos
  nonempty _ := List.cons_ne_nil _ _
  loops n spans f := f.place_snd spans n ▸ Nat.le_add_right _ _

theorem statement_readsPart : ReadsPart statement .statement 0 placeStatement where
  realizes src fuel pos n := (accounts src fuel).statement n pos
  nonempty tree := by
    cases tree with
    | some stmt => exact stmt.yield_ne_nil
    | none => exact List.cons_ne_nil _ _
  loops n spans tree := by
    cases tree with
    | some stmt =>
        rw [placeStatement, stmt.place_snd]
        exact Nat.le_add_right _ _
    | none => exact Nat.le_refl n

theorem body_readsPart :
    ReadsPart body .body 0 fun n spans stmts =>
      stmts.place (spans.past [.mark .openBrace]) n where
  realizes src fuel pos n := (accounts src fuel).body n pos
  nonempty _ := List.cons_ne_nil _ _
  loops n _ stmts := stmts.place_snd _ n ▸ Nat.le_add_right _ _

theorem expr_readsPart : ReadsPart expr .expr 0 fun n spans e => e.place spans n where
  realizes src fuel pos n := (accounts src fuel).expr n pos
  nonempty := Grammar.Expr.yield_ne_nil
  loops n spans e := e.place_snd spans n ▸ Nat.le_add_right _ _

theorem primary_readsPart :
    ReadsPart primary .primary 0 fun n spans p => p.place spans n where
  realizes src fuel pos n := (accounts src fuel).primary n pos
  nonempty := Grammar.Primary.yield_ne_nil
  loops n spans p := p.place_snd spans n ▸ Nat.le_add_right _ _

theorem args_readsPart :
    ReadsPart args .args 0 fun n spans args =>
      args.place (spans.past [.mark .openParen]) n where
  realizes src fuel pos n := (accounts src fuel).args n pos
  nonempty _ := List.cons_ne_nil _ _
  loops n _ args := args.place_snd _ n ▸ Nat.le_add_right _ _

theorem condition_readsPart :
    ReadsPart condition .condition 0 fun n spans e =>
      e.place (spans.past [.mark .openParen]) n where
  realizes src fuel pos n := (accounts src fuel).condition n pos
  nonempty _ := List.cons_ne_nil _ _
  loops n _ e := e.place_snd _ n ▸ Nat.le_add_right _ _

theorem firstArm_readsPart :
    ReadsPart firstArm .firstArm 0 fun n spans arms => arms.place spans n where
  realizes src fuel pos n := (accounts src fuel).firstArm n pos
  nonempty arms := by
    cases arms
    exact List.cons_ne_nil _ _
  loops n spans arms := arms.place_snd spans n ▸ Nat.le_add_right _ _

theorem eachLoop_readsPart (start : Span) :
    ReadsPart (fun fuel => eachLoop fuel start) .eachLoop 0 (placeEach start) where
  realizes src fuel pos n := (accounts src fuel).eachLoop start n pos
  nonempty _ := List.cons_ne_nil _ _
  loops n spans tree := by
    obtain ⟨x, iterable, stmts⟩ := tree
    change n ≤ (stmts.place _ (iterable.place _ n).2).2 + 1
    rw [stmts.place_snd, iterable.place_snd]
    omega

/-- Whatever the tokens are and wherever in them a reader starts, if it succeeds then it
stands further on, at a position that is not past the end. So the loops over functions and
over statements end on all tokens, in at most as many rounds as there are tokens. The
token read last is asked for only at positions above zero, where it is the token
before. -/
theorem readers_move_on_and_loops_end (tokens : List (Located Token)) :
    (Progresses tokens function ∧ Progresses tokens statement ∧ Progresses tokens body ∧
      Progresses tokens expr ∧ Progresses tokens primary ∧ Progresses tokens args ∧
      Progresses tokens condition ∧ Progresses tokens firstArm ∧
      ∀ start, Progresses tokens fun fuel => eachLoop fuel start) ∧
    ∀ source, LoopEnds source tokens function
        ((parseProgram source tokens).map Program.functions) ∧
      LoopEnds source tokens statement (parseStatements source tokens) := by
  have hfunction := function_readsPart.progresses tokens
  have hstatement := statement_readsPart.progresses tokens
  refine ⟨⟨hfunction, hstatement, body_readsPart.progresses tokens,
    expr_readsPart.progresses tokens, primary_readsPart.progresses tokens,
    args_readsPart.progresses tokens, condition_readsPart.progresses tokens,
    firstArm_readsPart.progresses tokens, fun start =>
      (eachLoop_readsPart start).progresses tokens⟩,
    fun source => ⟨hfunction.loopEnds ?_, hstatement.loopEnds (mapError_settle _)⟩⟩
  have hfunctions : (parseProgram source tokens).map Program.functions =
      settle (readAll function source tokens) (functions_settle source tokens) := by
    rw [parseProgram]
    cases settle (readAll function source tokens) (functions_settle source tokens) <;> rfl
  rw [hfunctions]
  exact mapError_settle _

/-- After a call has been read, the name that is the last token is read as a statement of
its own. -/
theorem readers_move_on_and_loops_end_within :
    let place (i : Nat) : Span := ⟨i, i + 1, 1, i.toUInt32⟩
    let tokens : List (Located Token) :=
      [⟨.word "x", place 0⟩, ⟨.mark .dot, place 1⟩, ⟨.word "m", place 2⟩,
          ⟨.mark .openParen, place 3⟩,
        ⟨.mark .closeParen, place 4⟩, ⟨.word "y", place 5⟩]
    let c : Cursor := ⟨tokens.drop 5, place 4, 0, default⟩
    c.At tokens 5 ∧ ∃ e d pos, statement 4 c = .ok (e, d) ∧
      5 < pos ∧ d.At tokens pos := by
  intro place tokens c
  have hc : c.At tokens 5 := by
    refine ⟨by decide, rfl, fun i hi => ?_⟩
    rw [← Nat.succ.inj hi]
    rfl
  obtain ⟨e, d, hrun⟩ : ∃ e d, statement 4 c = .ok (e, d) := ⟨_, _, rfl⟩
  obtain ⟨pos, hpos, hd⟩ :=
    (readers_move_on_and_loops_end tokens).1.2.1.moves 4 c 5 hc e d hrun
  exact ⟨hc, e, d, pos, hrun, hpos, hd⟩

end Parser

end HandleScript
