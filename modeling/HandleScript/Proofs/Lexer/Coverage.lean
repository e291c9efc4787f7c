import HandleScript.Proofs.Lexer.Segments

/-!
# Tokens cover the source

The spans of the tokens of a text are disjoint and in order, the bytes outside them are
blanks and comments, and each token is the one that its slice of the text denotes. A text
that is not lexed is lexed up to the place of its error, where neither a blank nor a
comment nor a token begins.
-/

namespace HandleScript

/-- The byte at the offset `i` is inside the span. -/
def Span.Holds (s : Span) (i : Nat) : Prop :=
  s.start ≤ i ∧ i < s.stop

theorem Keyword.mem_all (k : Keyword) : k ∈ Keyword.all := by
  cases k <;> decide

namespace Lexer

/-- The span marks `slice` in the source, between `before` and `after`. -/
structure Marks (source : String) (span : Span) (before slice after : List Char) :
    Prop where
  text : source.toList = before ++ (slice ++ after)
  start : span.start = byteSize before
  stop : span.stop = byteSize before + byteSize slice

/-- The tokens that a run of word characters can be. -/
def InRun : Token → Prop
  | .keyword _ => True
  | .int _ => True
  | .word _ => True
  | .mark _ => False
  | .double _ => False
  | .text _ => False

/-- What the slice of a token says about it, where the slice is a run of word
characters. -/
structure RunOf (t : Token) (slice : List Char) : Prop where
  plain : ∀ c ∈ slice, c ∉ separators
  keyword : (∃ k, t = .keyword k) ↔ ∃ k ∈ Keyword.all, k.spelling.toList = slice
  integer : (∃ n, t = .int n) ↔ ∃ n, IntegerText slice n
  word : (∃ w, t = .word w) ↔ ¬ (∃ k ∈ Keyword.all, k.spelling.toList = slice) ∧
    ¬ ∃ n, IntegerText slice n

/-- The tokens cover the source: what their spans leave out are blanks and comments. -/
structure Covers (tokens : List (Located Token)) (source : String) : Prop where
  nonempty : ∀ t ∈ tokens, t.span.start < t.span.stop
  within : ∀ t ∈ tokens, t.span.stop ≤ source.utf8ByteSize
  increasing : tokens.Pairwise fun t u => t.span.stop ≤ u.span.start
  skipped : ∀ i, i < source.utf8ByteSize → (∀ t ∈ tokens, ¬ t.span.Holds i) →
    ∃ span before slice after, Marks source span before slice after ∧
        Piece .gap slice after ∧ span.Holds i ∧
      ∀ t ∈ tokens, t.span.stop ≤ span.start ∨ span.stop ≤ t.span.start
  denoted : ∀ t ∈ tokens, ∃ before slice after, Marks source t.span before slice after ∧
    (∀ u, Denotes slice u ↔ u = t.node) ∧ EndsBefore after t.node ∧
      (InRun t.node → RunOf t.node slice)

/-- The text before the error is lexed, and no piece of text begins at the error. -/
def StopsAt (error : Located LexError) (source : String) : Prop :=
  ∃ before slice after, Marks source error.span before slice after ∧
    (∃ tokens, tokenize (String.ofList before) = .ok tokens) ∧ slice ≠ [] ∧
    ∀ lexeme taken rest, slice ++ after = taken ++ rest → ¬ Piece lexeme taken rest

/-! ## Runs of word characters -/

theorem Denotes.runOf {slice : List Char} {t : Token} (h : Denotes slice t)
    (hrun : InRun t) : RunOf t slice := by
  have hkeyword : (∃ k, t = .keyword k) ↔ ∃ k ∈ Keyword.all,
      k.spelling.toList = slice := by
    constructor
    · rintro ⟨k, rfl⟩
      cases h
      exact ⟨k, k.mem_all, rfl⟩
    · rintro ⟨k, -, rfl⟩
      exact ⟨k, (Denotes.keyword k).unique h⟩
  cases h with
  | keyword k =>
      refine ⟨keyword_notMem_separators k, hkeyword,
        iff_of_false ?_ (keyword_not_integer k), iff_of_false ?_ ?_⟩
      · rintro ⟨n, hn⟩
        cases hn
      · rintro ⟨w, hw⟩
        cases hw
      · rintro ⟨hnone, -⟩
        exact hnone ⟨k, k.mem_all, rfl⟩
  | @int _ n h =>
      refine ⟨h.notMem_separators, hkeyword, iff_of_true ⟨n, rfl⟩ ⟨_, h⟩,
        iff_of_false ?_ ?_⟩
      · rintro ⟨w, hw⟩
        cases hw
      · rintro ⟨-, hnone⟩
        exact hnone ⟨_, h⟩
  | word hne hslice hinteger hnone =>
      refine ⟨hslice, hkeyword, iff_of_false ?_ hinteger,
        iff_of_true ⟨_, rfl⟩ ⟨?_, hinteger⟩⟩
      · rintro ⟨n, hn⟩
        cases hn
      · rintro ⟨k, -, hk⟩
        exact hnone k hk
  | mark => exact hrun.elim
  | double => exact hrun.elim
  | text => exact hrun.elim

/-! ## Tokens among the pieces -/

theorem exists_of_mem_placed {cs last before : List Char} {segments : List Segment}
    (h : Pieces cs segments last) {t : Located Token} (ht : t ∈ placed before segments) :
    ∃ inner slice after, cs = inner ++ (slice ++ after) ∧
        t.span = spanAfter (before ++ inner) slice ∧
      Piece (.token t.node) slice after := by
  induction h generalizing before with
  | nil => cases ht
  | @cons lexeme slice rest last segments h hrest ih =>
      rw [placed_cons, List.mem_append] at ht
      rcases ht with ht | ht
      · cases h with
        | blank => cases ht
        | comment => cases ht
        | token hslice hafter =>
            rw [placed, placed, List.mem_singleton] at ht
            subst ht
            exact ⟨[], slice, rest, rfl, by rw [List.append_nil], .token hslice hafter⟩
      · obtain ⟨inner, slice', after, hcs, hspan, hpiece⟩ := ih ht
        refine ⟨slice ++ inner, slice', after, by rw [hcs, List.append_assoc], ?_, hpiece⟩
        rw [hspan, List.append_assoc]

theorem le_start_of_mem_placed {before : List Char} {segments : List Segment}
    {t : Located Token} (ht : t ∈ placed before segments) :
    byteSize before ≤ t.span.start := by
  induction segments generalizing before with
  | nil => cases ht
  | cons segment segments ih =>
      obtain ⟨lexeme, slice⟩ := segment
      have htail : t ∈ placed (before ++ slice) segments →
          byteSize before ≤ t.span.start := by
        intro hmem
        have hle := ih hmem
        rw [byteSize_append] at hle
        omega
      cases lexeme with
      | token u =>
          rcases List.mem_cons.mp ht with rfl | hmem
          · exact Nat.le_refl _
          · exact htail hmem
      | gap => exact htail ht
      | bad => exact htail ht

theorem pairwise_placed (before : List Char) (segments : List Segment) :
    (placed before segments).Pairwise fun t u => t.span.stop ≤ u.span.start := by
  induction segments generalizing before with
  | nil => exact List.Pairwise.nil
  | cons segment segments ih =>
      obtain ⟨lexeme, slice⟩ := segment
      cases lexeme with
      | token t =>
          refine List.Pairwise.cons (fun u hu => ?_) (ih _)
          have hle := le_start_of_mem_placed hu
          rw [byteSize_append] at hle
          exact hle
      | gap => exact ih _
      | bad => exact ih _

/-- A byte that no token holds is in a gap, which no token reaches into. -/
theorem exists_gap {cs last : List Char} {segments : List Segment}
    (h : Pieces cs segments last) (before : List Char) {i : Nat}
    (hge : byteSize before ≤ i) (hlt : i < byteSize before + byteSize (slices segments))
    (hfree : ∀ t ∈ placed before segments, ¬ t.span.Holds i) :
    ∃ inner slice after, cs = inner ++ (slice ++ after) ∧ Piece .gap slice after ∧
      (spanAfter (before ++ inner) slice).Holds i ∧
      ∀ t ∈ placed before segments,
        t.span.stop ≤ byteSize (before ++ inner) ∨
          byteSize (before ++ inner) + byteSize slice ≤ t.span.start := by
  induction h generalizing before with
  | nil =>
      rw [slices, List.flatMap_nil, byteSize_nil] at hlt
      omega
  | @cons lexeme slice rest last segments h hrest ih =>
      have hnext : byteSize (before ++ slice) = byteSize before + byteSize slice :=
        byteSize_append _ _
      have hplaced := placed_cons before ⟨lexeme, slice⟩ segments
      dsimp only at hplaced
      rw [hplaced] at hfree ⊢
      rcases Nat.lt_or_ge i (byteSize before + byteSize slice) with hhere | hbeyond
      · cases lexeme with
        | token t =>
            refine absurd ⟨hge, hhere⟩ (hfree ⟨t, spanAfter before slice⟩ ?_)
            exact List.mem_append_left _ List.mem_cons_self
        | bad e => cases h
        | gap =>
            refine ⟨[], slice, rest, rfl, h, ?_, fun t ht => .inr ?_⟩
            · rw [List.append_nil]
              exact ⟨hge, hhere⟩
            · rw [List.append_nil, ← hnext]
              exact le_start_of_mem_placed ht
      · have hslices : byteSize (slices (⟨lexeme, slice⟩ :: segments)) =
            byteSize slice + byteSize (slices segments) := by
          rw [slices, slices, List.flatMap_cons, byteSize_append]
        obtain ⟨inner, slice', after, hcs, hpiece, hholds, hdisjoint⟩ :=
            ih _ (by omega) (by omega)
          (fun t ht => hfree t (List.mem_append_right _ ht))
        rw [List.append_assoc] at hholds hdisjoint
        refine ⟨slice ++ inner, slice',
          after, by rw [hcs, List.append_assoc], hpiece, hholds, fun t ht => ?_⟩
        rcases List.mem_append.mp ht with hfirst | hlater
        · cases h with
          | blank => cases hfirst
          | comment => cases hfirst
          | token =>
              rw [placed, placed, List.mem_singleton] at hfirst
              subst hfirst
              refine .inl ?_
              rw [← List.append_assoc, byteSize_append, hnext]
              exact Nat.le_add_right _ _
        · exact hdisjoint t hlater

/-! ## The whole text -/

theorem Pieces.covers {source : String} {segments : List Segment}
    (h : Pieces source.toList segments []) : Covers (placed [] segments) source := by
  have hsize : byteSize (slices segments) = source.utf8ByteSize := by
    rw [← byteSize_toList, h.eq_append, List.append_nil]
  have hmarks : ∀ t ∈ placed [] segments, ∃ before slice after,
      Marks source t.span before slice after ∧ Piece (.token t.node) slice after := by
    intro t ht
    obtain ⟨before, slice, after, htext, hspan, hpiece⟩ := exists_of_mem_placed h ht
    rw [List.nil_append] at hspan
    exact ⟨before, slice, after,
      ⟨htext, by rw [hspan, spanAfter], by rw [hspan, spanAfter]⟩, hpiece⟩
  refine ⟨fun t ht => ?_, fun t ht => ?_, pairwise_placed [] segments,
    fun i hi hfree => ?_, fun t ht => ?_⟩
  · obtain ⟨before, slice, after, hmark, hpiece⟩ := hmarks t ht
    have hpos := byteSize_pos hpiece.ne_nil
    rw [hmark.start, hmark.stop]
    omega
  · obtain ⟨before, slice, after, hmark, hpiece⟩ := hmarks t ht
    rw [hmark.stop, ← byteSize_toList, hmark.text, byteSize_append, byteSize_append]
    omega
  · obtain ⟨before, slice, after, htext, hpiece, hholds, hdisjoint⟩ :=
      exists_gap h [] (Nat.zero_le i)
        (by rw [byteSize_nil, hsize, Nat.zero_add]; exact hi) hfree
    exact ⟨spanAfter before slice, before, slice, after, ⟨htext, rfl, rfl⟩,
      hpiece, hholds, hdisjoint⟩
  · obtain ⟨before, slice, after, hmark, hpiece⟩ := hmarks t ht
    cases hpiece with
    | token hslice hafter =>
        refine ⟨before, slice, after, hmark, fun u => ?_, hafter, hslice.runOf⟩
        constructor
        · intro hu
          exact hslice.unique hu
        · rintro rfl
          exact hslice

theorem Pieces.stopsAt {source : String} {segments : List Segment} {c : Char}
    {tail : List Char} {e : LexError} (h : Pieces source.toList segments (c :: tail))
    (he : (cut c tail).lexeme = .bad e) :
    StopsAt ⟨e, spanAfter (slices segments) (cut c tail).taken⟩ source := by
  have happend := cut_append c tail
  refine ⟨slices segments, (cut c tail).taken, (cut c tail).rest,
    ⟨?_, rfl, rfl⟩, ?_, ?_, ?_⟩
  · rw [happend]
    exact h.eq_append
  · have hbefore : Pieces (String.ofList (slices segments)).toList segments [] := by
      rw [String.toList_ofList]
      exact h.truncate
    exact ⟨_, tokenize_of_pieces hbefore⟩
  · intro hempty
    have hle := length_cut_le c tail
    rw [hempty, List.nil_append] at happend
    rw [happend, List.length_cons] at hle
    omega
  · intro lexeme taken rest htext hpiece
    rw [happend] at htext
    rw [cut_of_piece hpiece htext] at he
    subst he
    cases hpiece

/-- Lexing covers the source exactly, or stops where no token begins. -/
theorem tokenize_covers_source (source : String) :
    match tokenize source with
    | .ok tokens => Covers tokens source
    | .error error => StopsAt error source := by
  obtain ⟨segments, last, hpieces, rfl | ⟨c, tail, e, rfl, he⟩⟩ :=
    exists_pieces source.toList
  · rw [tokenize_of_pieces hpieces]
    exact hpieces.covers
  · rw [tokenize_of_bad hpieces he]
    exact hpieces.stopsAt he

end Lexer

end HandleScript
