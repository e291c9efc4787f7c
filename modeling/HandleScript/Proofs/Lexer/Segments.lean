import HandleScript.Proofs.Lexer.Pieces
import HandleScript.Proofs.Lines

/-!
# Texts cut into pieces

The pieces that a text is cut into, one after another, each with all that follows it in
sight. The scan loop goes along them: a text is lexed when its pieces cover it, and the
lexer fails where the pieces stop. Pieces stay pieces when the text after them is cut
short, and when a new line is put there, so lexing goes line by line.
-/

namespace HandleScript

/-- The same span in a text that has `bytes` more bytes and `lines` more lines before
it. -/
def Span.shift (s : Span) (bytes lines : Nat) : Span :=
  { start := s.start + bytes
    stop := s.stop + bytes
    line := s.line + UInt32.ofNat lines
    column := s.column }

/-- The span of a whole text. -/
def Span.whole (source : String) : Span :=
  ⟨0, source.utf8ByteSize, 1, 1⟩

/-- The same value in a text that has `bytes` more bytes and `lines` more lines before
it. -/
def Located.shift {α : Type} (x : Located α) (bytes lines : Nat) : Located α :=
  ⟨x.node, x.span.shift bytes lines⟩

namespace Lexer

/-- A piece of text and what it is. -/
structure Segment where
  lexeme : Lexeme
  slice : List Char

/-- The text is cut into pieces up to `last`. -/
inductive Pieces : List Char → List Segment → List Char → Prop
  | nil (last : List Char) : Pieces last [] last
  | cons {lexeme : Lexeme} {slice rest last : List Char} {segments : List Segment}
      (h : Piece lexeme slice rest)
      (hrest : Pieces rest segments last) : Pieces (slice ++ rest)
        (⟨lexeme, slice⟩ :: segments) last

/-- The span of `slice` where it follows the text `before`. -/
def spanAfter (before slice : List Char) : Span :=
  { start := byteSize before
    stop := byteSize before + byteSize slice
    line := UInt32.ofNat (before.count '\n') + 1
    column := UInt32.ofNat (byteSize (lastLine before)) + 1 }

/-- The tokens among the pieces, where the first piece follows the text `before`. -/
def placed (before : List Char) : List Segment → List (Located Token)
  | [] => []
  | ⟨.token t, slice⟩ :: segments =>
    ⟨t, spanAfter before slice⟩ :: placed (before ++ slice) segments
  | ⟨_, slice⟩ :: segments => placed (before ++ slice) segments

/-- The text that the pieces make up. -/
def slices (segments : List Segment) : List Char :=
  segments.flatMap Segment.slice

theorem Pieces.eq_append {cs last : List Char} {segments : List Segment}
    (h : Pieces cs segments last) : cs = slices segments ++ last := by
  induction h with
  | nil => rfl
  | cons h hrest ih => rw [ih, slices, slices, List.flatMap_cons, List.append_assoc]

theorem span_eq_spanAfter {source : String} (before : List Char) {slice rest : List Char}
    (h : source.toList = before ++ (slice ++ rest)) :
    (LineIndex.ofSource source).span (byteSize before)
      (byteSize before + byteSize slice) = spanAfter before slice := by
  rw [LineIndex.span, LineIndex.position_of_append h, spanAfter]

/-! ## The scan loop -/

/-- One turn of the loop takes the first piece. -/
theorem scan_of_piece {source : String} {before slice rest : List Char} {lexeme : Lexeme}
    (h : Piece lexeme slice rest) (hsource : source.toList = before ++ (slice ++ rest))
    (found : List (Located Token)) :
    scan (LineIndex.ofSource source) (byteSize before) found (slice ++ rest) =
      scan (LineIndex.ofSource source) (byteSize (before ++ slice))
        ((placed before [⟨lexeme, slice⟩]).reverse ++ found) rest := by
  obtain ⟨c, tail, hslice⟩ := List.exists_cons_of_ne_nil h.ne_nil
  have hcut : cut c (tail ++ rest) = ⟨lexeme, slice, rest⟩ :=
    cut_of_piece h (by rw [hslice, List.cons_append])
  have hspan := span_eq_spanAfter before hsource
  rw [hslice, List.cons_append, scan, hcut, ← hslice, byteSize_append]
  cases h with
  | blank => rfl
  | comment => rfl
  | token =>
      simp only [hspan]
      rfl

theorem placed_cons (before : List Char) (segment : Segment) (segments : List Segment) :
    placed before (segment :: segments) = placed before [segment] ++ placed
      (before ++ segment.slice) segments := by
  obtain ⟨lexeme, slice⟩ := segment
  cases lexeme <;> rfl

theorem placed_append (before : List Char) (first second : List Segment) :
    placed before (first ++ second) = placed before first ++ placed
      (before ++ slices first) second := by
  induction first generalizing before with
  | nil =>
      rw [slices, List.flatMap_nil, List.append_nil, placed,
        List.nil_append, List.nil_append]
  | cons segment first ih =>
      rw [List.cons_append, placed_cons, ih, placed_cons before segment first,
        List.append_assoc, slices, slices, List.flatMap_cons, List.append_assoc]

theorem scan_of_pieces {source : String} {cs last : List Char} {segments : List Segment}
    (h : Pieces cs segments last) (before : List Char)
    (hsource : source.toList = before ++ cs) (found : List (Located Token)) :
    scan (LineIndex.ofSource source) (byteSize before) found cs =
      scan (LineIndex.ofSource source) (byteSize (before ++ slices segments))
        ((placed before segments).reverse ++ found) last := by
  induction h generalizing before found with
  | nil last =>
      rw [slices, List.flatMap_nil, List.append_nil, placed,
        List.reverse_nil, List.nil_append]
  | @cons lexeme slice rest last segments h hrest ih =>
      have hrest : source.toList = (before ++ slice) ++ rest := by
        rw [hsource, List.append_assoc]
      rw [scan_of_piece h hsource, ih _ hrest,
        placed_cons before ⟨lexeme, slice⟩ segments, List.reverse_append,
        List.append_assoc, List.append_assoc, slices, slices, List.flatMap_cons]

/-- Every text is cut into pieces up to its end or up to an error. -/
theorem exists_pieces (cs : List Char) :
    ∃ segments last, Pieces cs segments last ∧
      (last = [] ∨ ∃ c tail e, last = c :: tail ∧ (cut c tail).lexeme = .bad e) := by
  induction hlength : cs.length using Nat.strongRecOn generalizing cs with
  | ind length ih =>
      cases cs with
      | nil => exact ⟨[], [], .nil [], .inl rfl⟩
      | cons c tail =>
          rcases cut_sound c tail with ⟨e, he⟩ | hpiece
          · exact ⟨[], c :: tail, .nil _, .inr ⟨c, tail, e, rfl, he⟩⟩
          · have hshorter : (cut c tail).rest.length < length := by
              have hle := length_cut_le c tail
              rw [List.length_cons] at hlength
              omega
            obtain ⟨segments, last, hpieces, hlast⟩ := ih _ hshorter (cut c tail).rest rfl
            have hcons := Pieces.cons hpiece hpieces
            rw [cut_append c tail] at hcons
            exact ⟨_, last, hcons, hlast⟩

theorem tokenize_of_pieces {source : String} {segments : List Segment}
    (h : Pieces source.toList segments []) :
    tokenize source = .ok (placed [] segments) := by
  have hscan := scan_of_pieces h [] rfl []
  rw [scan, List.append_nil, List.reverse_reverse] at hscan
  exact hscan

theorem tokenize_of_bad {source : String} {segments : List Segment} {c : Char}
    {tail : List Char} {e : LexError} (h : Pieces source.toList segments (c :: tail))
    (he : (cut c tail).lexeme = .bad e) :
    tokenize source = .error ⟨e, spanAfter (slices segments) (cut c tail).taken⟩ := by
  have hscan := scan_of_pieces h [] rfl []
  have hspan := span_eq_spanAfter (slices segments)
    (h.eq_append.trans (congrArg _ (cut_append c tail).symm))
  rw [scan, he] at hscan
  simp only [List.nil_append, hspan] at hscan
  exact hscan

/-- The lexer succeeds when pieces cover the text, and gives the tokens among them. -/
theorem tokenize_eq_ok_iff {source : String} {tokens : List (Located Token)} :
    tokenize source = .ok tokens ↔ ∃ segments, Pieces source.toList segments [] ∧
      placed [] segments = tokens := by
  constructor
  · intro h
    obtain ⟨segments, last, hpieces, rfl | ⟨c, tail, e, rfl, he⟩⟩ :=
      exists_pieces source.toList
    · rw [tokenize_of_pieces hpieces] at h
      exact ⟨segments, hpieces, Except.ok.inj h⟩
    · rw [tokenize_of_bad hpieces he] at h
      cases h
  · rintro ⟨segments, hpieces, rfl⟩
    exact tokenize_of_pieces hpieces

/-- A text that is cut off as a whole is a gap, one token or one error. -/
theorem tokenize_of_cut_all {source : String} {c : Char} {cs : List Char}
    (hsource : source.toList = c :: cs) (hrest : (cut c cs).rest = []) :
    tokenize source =
      match (cut c cs).lexeme with
      | .gap => .ok []
      | .token t => .ok [⟨t, Span.whole source⟩]
      | .bad e => .error ⟨e, Span.whole source⟩ := by
  have htaken : (cut c cs).taken = source.toList := by
    have happend := cut_append c cs
    rwa [hrest, List.append_nil, ← hsource] at happend
  have hspan : (LineIndex.ofSource source).span 0 source.utf8ByteSize =
      Span.whole source := by
    have hafter := span_eq_spanAfter [] (List.append_nil source.toList).symm
    rw [byteSize_toList, byteSize_nil, Nat.zero_add, spanAfter, byteSize_toList,
      byteSize_nil, Nat.zero_add] at hafter
    exact hafter
  rw [tokenize, hsource, scan, hrest, htaken, byteSize_toList, Nat.zero_add, hspan]
  cases (cut c cs).lexeme with
  | gap => simp only [scan, List.reverse_nil]
  | token t => simp only [scan, List.reverse_singleton]
  | bad e => rfl

/-! ## What follows a piece -/

theorem EndsBefore.of_append {t : Token} {rest more : List Char}
    (h : EndsBefore (rest ++ more) t) : EndsBefore rest t := by
  cases t with
  | int n =>
      refine ⟨h.1.of_append, ?_⟩
      rintro ⟨d, tail, rfl, hd⟩
      exact h.2 ⟨d, tail ++ more, rfl, hd⟩
  | mark => trivial
  | text => trivial
  | _ => exact Begins.of_append h

theorem EndsBefore.append_line {t : Token} {rest : List Char} (h : EndsBefore rest t)
    (more : List Char) : EndsBefore (rest ++ '\n' :: more) t := by
  cases t with
  | int n =>
      refine ⟨h.1.append (by decide), ?_⟩
      rintro ⟨d, tail, heq, hd⟩
      -- A rest of at most a point lets the new line come next.
      match rest, heq with
      | [_], heq =>
          cases heq
          cases hd
      | _ :: _ :: _, heq =>
          cases heq
          exact h.2 ⟨d, _, rfl, hd⟩
  | mark => trivial
  | text => trivial
  | double x => exact Begins.append h (by decide)
  | _ => exact Begins.append h (by decide)

theorem Piece.of_append {lexeme : Lexeme} {slice rest more : List Char}
    (h : Piece lexeme slice (rest ++ more)) : Piece lexeme slice rest := by
  cases h with
  | blank hc => exact .blank hc rest
  | comment hbody hrest => exact .comment hbody hrest.of_append
  | token hslice hrest => exact .token hslice hrest.of_append

theorem Piece.append_line {lexeme : Lexeme} {slice rest : List Char}
    (h : Piece lexeme slice rest) (more : List Char) :
    Piece lexeme slice (rest ++ '\n' :: more) := by
  cases h with
  | blank hc => exact .blank hc _
  | comment hbody hrest => exact .comment hbody (hrest.append rfl)
  | token hslice hrest => exact .token hslice (hrest.append_line more)

/-- The pieces before a place cover the text before it. -/
theorem Pieces.truncate {cs last : List Char} {segments : List Segment}
    (h : Pieces cs segments last) : Pieces (slices segments) segments [] := by
  induction h with
  | nil => exact .nil []
  | cons h hrest ih =>
      rw [hrest.eq_append] at h
      exact .cons h.of_append ih

theorem Pieces.append_line {a b last : List Char} {first second : List Segment}
    (ha : Pieces a first []) (hb : Pieces b second last) :
    Pieces (a ++ '\n' :: b) (first ++ ⟨.gap, ['\n']⟩ :: second) last := by
  generalize hend : ([] : List Char) = done at ha
  induction ha with
  | nil =>
      subst hend
      exact .cons (.blank (by decide) b) hb
  | cons h hrest ih =>
      rw [List.append_assoc]
      exact .cons (h.append_line b) (ih hend)

/-! ## Blanks around a token -/

/-- Blanks as pieces. -/
def gaps (cs : List Char) : List Segment :=
  cs.map fun c => ⟨.gap, [c]⟩

theorem slices_gaps (cs : List Char) : slices (gaps cs) = cs := by
  simp [slices, gaps, List.flatMap_map]

theorem placed_gaps (before cs : List Char) : placed before (gaps cs) = [] := by
  induction cs generalizing before with
  | nil => rfl
  | cons c cs ih => exact ih (before ++ [c])

theorem Pieces.append_gaps {cs rest last : List Char} {segments : List Segment}
    (hcs : ∀ c ∈ cs, c ∈ blanks) (h : Pieces rest segments last) :
    Pieces (cs ++ rest) (gaps cs ++ segments) last := by
  induction cs with
  | nil => exact h
  | cons c cs ih =>
      obtain ⟨hc, hcs⟩ := List.forall_mem_cons.mp hcs
      exact .cons (.blank hc _) (ih hcs)

theorem endsBefore_blanks {cs : List Char} (h : ∀ c ∈ cs, c ∈ blanks) (t : Token) :
    EndsBefore cs t := by
  cases cs with
  | nil => exact endsBefore_nil t
  | cons c cs =>
      have hc := h c List.mem_cons_self
      have hseparator : c ∈ separators := List.mem_append_left _ hc
      cases t with
      | int n =>
          refine ⟨Begins.cons_iff.mpr hseparator, ?_⟩
          rintro ⟨d, tail, heq, -⟩
          cases heq
          exact absurd hc (by decide)
      | double x =>
          refine Begins.cons_iff.mpr ?_
          rw [← Bool.not_eq_true]
          exact fun hdigit => digit_notMem_separators hdigit hseparator
      | mark => trivial
      | text => trivial
      | _ => exact Begins.cons_iff.mpr hseparator

/-- A token with blanks around it is the only one. -/
theorem tokenize_of_blanks {before text after : String} {t : Token}
    (hbefore : ∀ c ∈ before.toList, c ∈ blanks) (ht : Denotes text.toList t)
    (hafter : ∀ c ∈ after.toList, c ∈ blanks) :
    tokenize (before ++ text ++ after) =
      .ok [⟨t, spanAfter before.toList text.toList⟩] := by
  have hend : Pieces (after.toList ++ []) (gaps after.toList ++ []) [] :=
    .append_gaps hafter (.nil [])
  rw [List.append_nil, List.append_nil] at hend
  have hpieces := Pieces.append_gaps hbefore
    (.cons (.token ht (endsBefore_blanks hafter t)) hend)
  rw [← List.append_assoc, ← String.toList_append, ← String.toList_append] at hpieces
  rw [tokenize_of_pieces hpieces, placed_append, placed_gaps, slices_gaps, placed,
    placed_gaps, List.nil_append, List.nil_append]

/-! ## Lines put together -/

theorem spanAfter_append_line (a before slice : List Char) :
    spanAfter (a ++ '\n' :: before) slice = (spanAfter before slice).shift
      (byteSize a + 1) (a.count '\n' + 1) := by
  have hnewline : '\n'.utf8Size = 1 := by decide
  have hbytes : byteSize (a ++ '\n' :: before) = byteSize before + (byteSize a + 1) := by
    rw [byteSize_append, byteSize_cons, hnewline]
    omega
  have hlines : (a ++ '\n' :: before).count '\n' = before.count '\n' +
      (a.count '\n' + 1) := by
    rw [List.count_append, List.count_cons_self]
    omega
  have hwords : ∀ m n : Nat, UInt32.ofNat (m + n) + 1 = UInt32.ofNat m +
      1 + UInt32.ofNat n := by
    intro m n
    rw [UInt32.ofNat_add]
    ac_rfl
  rw [spanAfter, spanAfter, Span.shift, lastLine_append_newline, hbytes, hlines,
    hwords, Nat.add_right_comm]

theorem placed_append_line (a before : List Char) (segments : List Segment) :
    placed (a ++ '\n' :: before) segments =
      (placed before segments).map (·.shift (byteSize a + 1) (a.count '\n' + 1)) := by
  induction segments generalizing before with
  | nil => rfl
  | cons segment segments ih =>
      have hbefore : a ++ '\n' :: before ++ segment.slice = a ++
          '\n' :: (before ++ segment.slice) := by
        rw [List.append_assoc, List.cons_append]
      rw [placed_cons, placed_cons before, hbefore, ih, List.map_append]
      obtain ⟨lexeme, slice⟩ := segment
      cases lexeme with
      | token t =>
          rw [placed, placed, placed, placed, spanAfter_append_line,
            List.map_singleton, Located.shift]
      | _ => rfl

/-- Lexing goes line by line: after a text that is lexed and a new line, a text has the
tokens or the error that it has alone, further down. -/
theorem tokenize_append_line {a b : String} {tokens : List (Located Token)}
    (ha : tokenize a = .ok tokens) :
    tokenize (a ++ "\n" ++ b) =
      match tokenize b with
      | .ok more =>
          .ok (tokens ++ more.map
            (·.shift (a.utf8ByteSize + 1) (1 + a.toList.count '\n')))
      | .error error =>
          .error (error.shift (a.utf8ByteSize + 1) (1 + a.toList.count '\n')) := by
  obtain ⟨first, hfirst, rfl⟩ := tokenize_eq_ok_iff.mp ha
  have hfirstText : slices first = a.toList := by rw [hfirst.eq_append, List.append_nil]
  have htext : (a ++ "\n" ++ b).toList = a.toList ++ '\n' :: b.toList := by simp
  obtain ⟨second, last, hsecond, hlast⟩ := exists_pieces b.toList
  have hboth := hfirst.append_line hsecond
  rw [← htext] at hboth
  rw [← byteSize_toList, Nat.add_comm 1]
  rcases hlast with rfl | ⟨c, tail, e, rfl, he⟩
  · rw [tokenize_of_pieces hsecond, tokenize_of_pieces hboth, placed_append,
      List.nil_append, hfirstText]
    exact congrArg (fun more => Except.ok (placed [] first ++ more))
      (placed_append_line a.toList [] second)
  · have hslices : slices (first ++ ⟨.gap, ['\n']⟩ :: second) = a.toList ++
        '\n' :: slices second := by
      rw [← hfirstText, slices, slices, slices, List.flatMap_append, List.flatMap_cons]
      rfl
    rw [tokenize_of_bad hsecond he, tokenize_of_bad hboth he,
      hslices, spanAfter_append_line]
    rfl

/-- A comment ends with its line, and an escape that is wrong in the second line is found
there. -/
theorem tokenize_append_line_bad_escape :
    tokenize "f(1) // é" =
        .ok [⟨.word "f", ⟨0, 1, 1, 1⟩⟩, ⟨.mark .openParen, ⟨1, 2, 1, 2⟩⟩,
            ⟨.int 1, ⟨2, 3, 1, 3⟩⟩,
          ⟨.mark .closeParen, ⟨3, 4, 1, 4⟩⟩] ∧
      tokenize "x \"\\q\"" = .error ⟨.badEscape 'q', ⟨2, 6, 1, 3⟩⟩ ∧
      tokenize ("f(1) // é" ++ "\n" ++ "x \"\\q\"") =
        .error ⟨.badEscape 'q', ⟨13, 17, 2, 3⟩⟩ := by
  have ha : tokenize "f(1) // é" =
      .ok [⟨.word "f", ⟨0, 1, 1, 1⟩⟩, ⟨.mark .openParen, ⟨1, 2, 1, 2⟩⟩,
          ⟨.int 1, ⟨2, 3, 1, 3⟩⟩,
        ⟨.mark .closeParen, ⟨3, 4, 1, 4⟩⟩] := by with_unfolding_all rfl
  have hb : tokenize "x \"\\q\"" = .error ⟨.badEscape 'q', ⟨2, 6, 1, 3⟩⟩ := by
    with_unfolding_all rfl
  refine ⟨ha, hb, ?_⟩
  rw [tokenize_append_line ha, hb]
  with_unfolding_all rfl

end Lexer

end HandleScript
