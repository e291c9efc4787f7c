import HandleScript.Proofs.Lexer.Segments

/-!
# Text literals

A literal ends at the first double quote that no backslash escapes, and its body is
decoded escape by escape. Both go through the body in the same parts, whatever backslashes
stand next to each other in it. So a text that is written with the escapes is read back,
and of a literal with an unknown escape the first one is reported.
-/

namespace HandleScript

namespace Lexer

/-- The ways to write a character in a literal. A double quote and a backslash need a
backslash before them; all other characters stand for themselves, and some have an escape
as well. -/
def spellings : Char → List (List Char)
  | '"' => [['\\', '"']]
  | '\\' => [['\\', '\\']]
  | '\r' => [['\r'], ['\\', 'r']]
  | '\n' => [['\n'], ['\\', 'n']]
  | '\t' => [['\t'], ['\\', 't']]
  | c => [[c]]

/-- A part of the body of a literal: any character but a double quote and a backslash, or
a backslash and a character that does not end the line. -/
inductive LiteralPart where
  | plain (c : Char) (hquote : c ≠ '"') (hslash : c ≠ '\\')
  | escape (c : Char) (hline : c ≠ '\n')

namespace LiteralPart

/-- The characters that write the part. -/
def chars : LiteralPart → List Char
  | plain c _ _ => [c]
  | escape c _ => ['\\', c]

/-- The character of an escape that stands for nothing. -/
def unknown? : LiteralPart → Option Char
  | plain _ _ _ => none
  | escape c _ => if c ∈ escapes.map Prod.fst then none else some c

end LiteralPart

/-- The body of a literal that has these parts. -/
def bodyOf (parts : List LiteralPart) : List Char :=
  parts.flatMap LiteralPart.chars

/-- The literal with this body. -/
def literal (body : List Char) : String :=
  String.ofList ('"' :: (body ++ ['"']))

theorem toList_literal (body : List Char) :
    (literal body).toList = '"' :: (body ++ ['"']) :=
  String.toList_ofList

/-! ## Written texts -/

theorem cases_of_mem_spellings {c : Char} {piece : List Char} (h : piece ∈ spellings c) :
    (piece = [c] ∧ c ≠ '"' ∧ c ≠ '\\') ∨ ∃ e, (e, c) ∈ escapes ∧ piece = ['\\', e] := by
  unfold spellings at h
  split at h <;> simp_all [escapes]

theorem Unescapes.append_spelling {c : Char} {piece body text : List Char}
    (hpiece : piece ∈ spellings c) (h : Unescapes body text) :
    Unescapes (piece ++ body) (c :: text) := by
  rcases cases_of_mem_spellings hpiece with ⟨rfl, hquote, hslash⟩ | ⟨e, hescape, rfl⟩
  · exact .plain hquote hslash h
  · exact .escape hescape h

theorem unescapes_flatten {text : List Char} {pieces : List (List Char)}
    (h : List.Forall₂ (fun c piece => piece ∈ spellings c) text pieces) :
    Unescapes pieces.flatten text := by
  induction h with
  | nil => exact .nil
  | cons hpiece _ ih => exact ih.append_spelling hpiece

/-! ## Parts -/

theorem bodyOf_cons (part : LiteralPart) (parts : List LiteralPart) :
    bodyOf (part :: parts) = part.chars ++ bodyOf parts :=
  List.flatMap_cons

/-- The search for the end of a literal goes along its parts. -/
theorem literalBody_bodyOf (parts : List LiteralPart) (rest : List Char) :
    literalBody (bodyOf parts ++ '"' :: rest) = (bodyOf parts, '"' :: rest) := by
  induction parts with
  | nil => simp [bodyOf, literalBody]
  | cons part parts ih =>
      rw [bodyOf_cons]
      cases part with
      | plain c hquote hslash => simp [LiteralPart.chars, literalBody, hquote, hslash, ih]
      -- The search takes an escape as a whole, so a quote in it does not end the literal.
      | escape c hline => simp [LiteralPart.chars, literalBody, hline, ih]

theorem escaped?_eq_none_iff {c : Char} :
    escaped? c = none ↔ c ∉ escapes.map Prod.fst := by
  simp [Option.eq_none_iff_forall_ne_some, escaped?_eq_some_iff]

theorem map_eq_error_iff {ε α β : Type} {f : α → β} {x : Except ε α} {e : ε} :
    x.map f = .error e ↔ x = .error e := by
  cases x <;> simp [Except.map]

/-- The decoding of a literal goes along its parts, and fails at the first escape that
stands for nothing. -/
theorem decodeBody_bodyOf_eq_error_iff {parts : List LiteralPart} {c : Char} :
    decodeBody (bodyOf parts) = .error c ↔
      parts.findSome? LiteralPart.unknown? = some c := by
  induction parts with
  | nil => simp [bodyOf, decodeBody]
  | cons part parts ih =>
      rw [bodyOf_cons, List.findSome?_cons]
      cases part with
      | plain d hquote hslash =>
          have hdecode : decodeBody (d :: bodyOf parts) =
              (decodeBody (bodyOf parts)).map (d :: ·) := by
            simp [decodeBody, hslash]
          simp only [LiteralPart.chars, LiteralPart.unknown?, List.singleton_append,
            hdecode, map_eq_error_iff, ih]
      | escape d hline =>
          simp only [LiteralPart.chars, LiteralPart.unknown?, List.cons_append,
            List.nil_append, decodeBody]
          by_cases hknown : d ∈ escapes.map Prod.fst
          · obtain ⟨e, he⟩ := Option.ne_none_iff_exists'.mp
              (mt escaped?_eq_none_iff.mp (not_not.mpr hknown))
            simp only [he, if_pos hknown, map_eq_error_iff, ih]
          · simp only [escaped?_eq_none_iff.mpr hknown, if_neg hknown,
              Except.error.injEq, Option.some.injEq]

/-! ## Whole literals -/

/-- A literal whose body ends at its last character is one token or one error, as the
decoding says. -/
theorem tokenize_literal {body : List Char}
    (h : literalBody (body ++ ['"']) = (body, ['"'])) :
    tokenize (literal body) =
      match decodeBody body with
      | .ok text => .ok [⟨.text (String.ofList text), Span.whole (literal body)⟩]
      | .error c => .error ⟨.badEscape c, Span.whole (literal body)⟩ := by
  have hquote : cut '"' (body ++ ['"']) = cutLiteral (body ++ ['"']) := rfl
  cases hdecode : decodeBody body with
  | ok text =>
      have hcut : cut '"' (body ++ ['"']) =
          ⟨.token (.text (String.ofList text)), '"' :: (body ++ ['"']), []⟩ := by
        rw [hquote, cutLiteral, h]
        simp only [hdecode]
      rw [tokenize_of_cut_all (toList_literal body) (congrArg Cut.rest hcut), hcut]
  | error c =>
      have hcut : cut '"' (body ++ ['"']) =
          ⟨.bad (.badEscape c), '"' :: (body ++ ['"']), []⟩ := by
        rw [hquote, cutLiteral, h]
        simp only [hdecode]
      rw [tokenize_of_cut_all (toList_literal body) (congrArg Cut.rest hcut), hcut]

theorem tokenize_bodyOf_eq_error_iff {parts : List LiteralPart}
    {error : Located LexError} :
    tokenize (literal (bodyOf parts)) = .error error ↔
      ∃ c, parts.findSome? LiteralPart.unknown? = some c ∧
        error = ⟨.badEscape c, Span.whole (literal (bodyOf parts))⟩ := by
  simp only [← decodeBody_bodyOf_eq_error_iff]
  rw [tokenize_literal (literalBody_bodyOf parts [])]
  cases decodeBody (bodyOf parts) with
  | ok text => simp
  | error c => simp [eq_comm]

/-- Every way to write a text between double quotes is read as that text. A literal that
is closed at its end is refused just when it has an escape that stands for nothing, and
the error is about the first such escape. -/
theorem literals_read_back :
    (∀ (s : String) (pieces : List (List Char)),
      List.Forall₂ (fun c piece => piece ∈ spellings c) s.toList pieces →
        tokenize (literal pieces.flatten) =
          .ok [⟨.text s, Span.whole (literal pieces.flatten)⟩]) ∧
    ∀ parts : List LiteralPart,
      let source := literal (bodyOf parts)
      ((∃ error, tokenize source = .error error) ↔ ∃ part ∈ parts, part.unknown?.isSome) ∧
      ∀ error, tokenize source = .error error →
          ∃ c, parts.findSome? LiteralPart.unknown? = some c ∧
        error = ⟨.badEscape c, Span.whole source⟩ := by
  refine ⟨fun s pieces h => ?_, fun parts =>
    ⟨?_, fun error => tokenize_bodyOf_eq_error_iff.mp⟩⟩
  · have hread := unescapes_flatten h
    rw [tokenize_literal (hread.literalBody_eq []), hread.decodeBody_eq]
    simp only [String.ofList_toList]
  · rw [← List.findSome?_isSome_iff, Option.isSome_iff_exists]
    constructor
    · rintro ⟨error, herror⟩
      obtain ⟨c, hc, -⟩ := tokenize_bodyOf_eq_error_iff.mp herror
      exact ⟨c, hc⟩
    · rintro ⟨c, hc⟩
      exact ⟨_, tokenize_bodyOf_eq_error_iff.mpr ⟨c, hc, rfl⟩⟩

/-- Five backslashes before a quote are two backslashes and the quote, and a line may end
inside of a literal. After two backslashes, the third one makes the first unknown
escape. -/
theorem literals_read_back_backslashes :
    tokenize "\"\\\\\\\\\\\"\n\\n\"" = .ok [⟨.text "\\\\\"\n\n", ⟨0, 11, 1, 1⟩⟩] ∧
    tokenize "\"\\\\\\q\\é\"" = .error ⟨.badEscape 'q', ⟨0, 9, 1, 1⟩⟩ := by
  have hread := literals_read_back.1 "\\\\\"\n\n"
      [['\\', '\\'], ['\\', '\\'], ['\\', '"'], ['\n'], ['\\', 'n']]
    (by decide)
  obtain ⟨hrefused, hfirst⟩ := literals_read_back.2
    [.escape '\\' (by decide), .escape 'q' (by decide), .escape 'é' (by decide)]
  obtain ⟨error, herror⟩ := hrefused.mpr ⟨.escape 'q' (by decide), by simp, by decide⟩
  obtain ⟨c, hc, rfl⟩ := hfirst error herror
  obtain rfl : 'q' = c := Option.some.inj hc
  exact ⟨hread, herror⟩

end Lexer

end HandleScript
