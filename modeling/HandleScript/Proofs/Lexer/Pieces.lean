import HandleScript.Proofs.Number.Decimals
import HandleScript.Token.Lexer

/-!
# Pieces of text

What a piece of source text denotes, said without the lexer: which texts are integers,
literals and words, and what may follow a token for it to be the longest one there. A cut
of the lexer that is not an error is such a piece, and every such piece is the cut of the
lexer. So a text denotes at most one token.
-/

namespace HandleScript

theorem Keyword.ofWord?_spelling (k : Keyword) : Keyword.ofWord? k.spelling = some k := by
  cases k <;> rfl

theorem Keyword.ofWord?_eq_some_iff {word : String} {k : Keyword} :
    Keyword.ofWord? word = some k ↔ k.spelling = word := by
  constructor
  · intro h
    have hspelling := List.find?_some h
    exact eq_of_beq hspelling
  · rintro rfl
    exact Keyword.ofWord?_spelling k

theorem Mark.ofChar?_eq_some_iff {c : Char} {m : Mark} :
    Mark.ofChar? c = some m ↔ m.spelling.toList = [c] := by
  constructor
  · intro h
    unfold Mark.ofChar? at h
    split at h <;> cases h <;> rfl
  · intro h
    have hchar : ∃ d, m.spelling.toList = [d] ∧ Mark.ofChar? d = some m := by
      cases m <;> exact ⟨_, rfl, rfl⟩
    obtain ⟨d, hd, hmark⟩ := hchar
    rw [h] at hd
    rw [List.singleton_inj.mp hd]
    exact hmark

theorem Number.toWord?_eq_some_iff {n : Int} {word : Int64} :
    toWord? n = some word ↔ word.toInt = n := by
  unfold toWord?
  constructor
  · intro h
    split at h
    · rename_i hfits
      obtain ⟨hlow, hhigh⟩ := hfits
      rw [Int64.toInt_minValue] at hlow
      rw [Int64.toInt_maxValue] at hhigh
      cases h
      exact Int64.toInt_ofInt_of_le hlow (by omega)
    · cases h
  · rintro rfl
    rw [if_pos ⟨word.minValue_le_toInt, word.toInt_le⟩, Int64.ofInt_toInt]

namespace Lexer

/-! ## Characters -/

/-- The characters that stand between tokens: space, tab, carriage return, line feed and
form feed. -/
def blanks : List Char := [' ', '\t', '\r', '\n', '\x0c']

/-- The characters that no word, keyword or integer holds. -/
def separators : List Char := blanks ++ ['(', ')', '{', '}', '.', ',', '=', '"', '/']

theorem isSpace_iff {c : Char} : isSpace c = true ↔ c ∈ blanks := by
  simp [isSpace, blanks, or_assoc]

theorem ofChar?_eq_none_iff {c : Char} :
    Mark.ofChar? c = none ↔ c ∉ ['(', ')', '{', '}', '.', ',', '='] := by
  unfold Mark.ofChar?
  split <;> simp_all

theorem isWordChar_iff {c : Char} : isWordChar c = true ↔ c ∉ separators := by
  have hspace : isSpace c = false ↔ c ∉ blanks := by
    rw [← isSpace_iff, Bool.not_eq_true]
  simp only [isWordChar, separators, Bool.and_eq_true, Bool.not_eq_true',
    Option.isNone_iff_eq_none, decide_eq_true_eq, hspace, ofChar?_eq_none_iff,
    List.mem_append, List.mem_cons, not_or, List.not_mem_nil, not_false_eq_true,
    and_true, and_assoc, ne_eq]

/-- The text is empty or begins with a character of the given sort. -/
def Begins (p : Char → Prop) (cs : List Char) : Prop :=
  ∀ c, cs.head? = some c → p c

namespace Begins

variable {p : Char → Prop} {c : Char} {cs rest : List Char}

theorem nil : Begins p [] := by
  intro c h
  cases h

theorem cons_iff : Begins p (c :: cs) ↔ p c := by
  simp [Begins]

theorem append (h : Begins p rest) (hc : p c) : Begins p (rest ++ c :: cs) := by
  cases rest with
  | nil => exact cons_iff.mpr hc
  | cons d rest => exact cons_iff.mpr (cons_iff.mp h)

theorem of_append (h : Begins p (rest ++ cs)) : Begins p rest := by
  cases rest with
  | nil => exact nil
  | cons d rest => exact cons_iff.mpr (cons_iff.mp h)

theorem imp {q : Char → Prop} (h : Begins p cs) (hpq : ∀ c, p c → q c) : Begins q cs :=
  fun c hc => hpq c (h c hc)

theorem dropWhile (q : Char → Bool) (cs : List Char) :
    Begins (q · = false) (cs.dropWhile q) := by
  intro c h
  have hnot := List.head?_dropWhile_not q cs
  rw [h] at hnot
  exact hnot

theorem takeWhile_eq {q : Char → Bool} {run : List Char} (hrun : ∀ c ∈ run, q c = true)
    (h : Begins (q · = false) rest) : (run ++ rest).takeWhile q = run := by
  rw [List.takeWhile_append_of_pos hrun]
  cases rest with
  | nil => exact List.append_nil run
  | cons c rest =>
      rw [List.takeWhile_cons_of_neg (by simp [cons_iff.mp h]), List.append_nil]

theorem dropWhile_eq {q : Char → Bool} {run : List Char} (hrun : ∀ c ∈ run, q c = true)
    (h : Begins (q · = false) rest) : (run ++ rest).dropWhile q = rest := by
  rw [List.dropWhile_append_of_pos hrun]
  cases rest with
  | nil => rfl
  | cons c rest => exact List.dropWhile_cons_of_neg (by simp [cons_iff.mp h])

end Begins

/-! ## What a text denotes -/

/-- At least one character, and digits only. -/
def Digits (cs : List Char) : Prop :=
  cs ≠ [] ∧ ∀ c ∈ cs, Number.isDigit c = true

/-- An integer of any size: digits after an optional minus sign. -/
inductive IntegerText : List Char → Int → Prop
  | plain {digits : List Char} (h : Digits digits) :
      IntegerText digits (Nat.ofDigitChars 10 digits 0)
  | minus {digits : List Char} (h : Digits digits) : IntegerText ('-' :: digits)
      (-(Nat.ofDigitChars 10 digits 0 : Nat))

/-- The escapes of text literals: the character after the backslash and what the two stand
for. -/
def escapes : List (Char × Char) :=
  [('r', '\r'), ('n', '\n'), ('t', '\t'), ('\\', '\\'), ('"', '"')]

/-- The body of a literal as it is written, and the text that it stands for. -/
inductive Unescapes : List Char → List Char → Prop
  | nil : Unescapes [] []
  | plain {c : Char} {body text : List Char} (hquote : c ≠ '"') (hslash : c ≠ '\\')
      (h : Unescapes body text) :
      Unescapes (c :: body) (c :: text)
  | escape {c d : Char} {body text : List Char} (hescape : (c, d) ∈ escapes)
      (h : Unescapes body text) :
      Unescapes ('\\' :: c :: body) (d :: text)

/-- The token that a text denotes, when it stands alone. -/
inductive Denotes : List Char → Token → Prop
  | keyword (k : Keyword) : Denotes k.spelling.toList (.keyword k)
  | mark (m : Mark) : Denotes m.spelling.toList (.mark m)
  | int {slice : List Char} {n : Int64} (h : IntegerText slice n.toInt) :
      Denotes slice (.int n)
  | double {whole fraction : List Char} {n : Int} {x : Float}
      (hwhole : IntegerText whole n) (hfraction : Digits fraction)
      (hx : Binary64.RoundsTo (whole.head? = some '-')
        (n.natAbs + Nat.ofDigitChars 10 fraction 0 / 10 ^ fraction.length) x) :
      Denotes (whole ++ '.' :: fraction) (.double x)
  | text {body text : List Char} (h : Unescapes body text) :
      Denotes ('"' :: (body ++ ['"'])) (.text (String.ofList text))
  | word {slice : List Char} (hne : slice ≠ []) (hslice : ∀ c ∈ slice, c ∉ separators)
      (hinteger : ¬ ∃ n, IntegerText slice n)
        (hkeyword : ∀ k : Keyword, k.spelling.toList ≠ slice) :
      Denotes slice (.word (String.ofList slice))

/-- The text `rest` does not go on the token that ends before it. -/
def EndsBefore (rest : List Char) : Token → Prop
  | .keyword _ => Begins (· ∈ separators) rest
  | .word _ => Begins (· ∈ separators) rest
  | .int _ =>
    Begins (· ∈ separators) rest ∧ ¬ ∃ d tail, rest = '.' :: d :: tail ∧
      Number.isDigit d = true
  | .double _ => Begins (Number.isDigit · = false) rest
  | .mark _ => True
  | .text _ => True

/-- The piece `slice` of a text that goes on with `rest`: a blank, a comment to the end of
its line, or a token that `rest` does not go on. -/
inductive Piece : Lexeme → List Char → List Char → Prop
  | blank {c : Char} (hc : c ∈ blanks) (rest : List Char) : Piece .gap [c] rest
  | comment {body rest : List Char} (hbody : '\n' ∉ body)
      (hrest : Begins (· = '\n') rest) :
      Piece .gap ('/' :: '/' :: body) rest
  | token {t : Token} {slice rest : List Char} (hslice : Denotes slice t)
      (hrest : EndsBefore rest t) :
      Piece (.token t) slice rest

/-- A cut is an error or a piece of the text. -/
def Cut.Sound (k : Cut) : Prop :=
  (∃ e, k.lexeme = .bad e) ∨ Piece k.lexeme k.taken k.rest

/-! ## Numbers -/

theorem readNat?_eq_some_iff {cs : List Char} {n : Nat} :
    Number.readNat? cs = some n ↔ Digits cs ∧ Nat.ofDigitChars 10 cs 0 = n := by
  have hdigits : (!cs.isEmpty && cs.all Number.isDigit) = true ↔ Digits cs := by
    simp [Digits]
  unfold Number.readNat?
  by_cases h : Digits cs
  · rw [if_pos (hdigits.mpr h), Number.digitsValue_eq, Option.some_inj]
    exact ⟨fun hn => ⟨h, hn⟩, And.right⟩
  · rw [if_neg (fun hcond => h (hdigits.mp hcond))]
    exact iff_of_false (Option.some_ne_none n).symm (fun hn => h hn.1)

theorem not_digits_minus (cs : List Char) : ¬ Digits ('-' :: cs) := by
  rintro ⟨-, hdigits⟩
  exact absurd (hdigits '-' List.mem_cons_self) (by decide)

theorem integerValue?_minus (digits : List Char) :
    integerValue? ('-' :: digits) = (Number.readNat? digits).map
      fun n : Nat => -(n : Int) := by
  rw [integerValue?]
  cases Number.readNat? digits <;> rfl

theorem integerValue?_plain {digits : List Char} (h : ∀ rest, digits ≠ '-' :: rest) :
    integerValue? digits = (Number.readNat? digits).map fun n : Nat => (n : Int) := by
  rw [integerValue?]
  · cases Number.readNat? digits <;> rfl
  · exact h

theorem integerValue?_eq_some_iff {cs : List Char} {n : Int} :
    integerValue? cs = some n ↔ IntegerText cs n := by
  constructor
  · intro h
    by_cases hminus : ∃ digits, cs = '-' :: digits
    · obtain ⟨digits, rfl⟩ := hminus
      rw [integerValue?_minus] at h
      obtain ⟨m, hm, rfl⟩ := Option.map_eq_some_iff.mp h
      obtain ⟨hdigits, rfl⟩ := readNat?_eq_some_iff.mp hm
      exact .minus hdigits
    · rw [integerValue?_plain (not_exists.mp hminus)] at h
      obtain ⟨m, hm, rfl⟩ := Option.map_eq_some_iff.mp h
      obtain ⟨hdigits, rfl⟩ := readNat?_eq_some_iff.mp hm
      exact .plain hdigits
  · intro h
    cases h with
    | minus h =>
        rw [integerValue?_minus, readNat?_eq_some_iff.mpr ⟨h, rfl⟩, Option.map_some]
    | plain h =>
        have hplain : ∀ rest, cs ≠ '-' :: rest := by
          rintro rest rfl
          exact not_digits_minus rest h
        rw [integerValue?_plain hplain, readNat?_eq_some_iff.mpr ⟨h, rfl⟩,
          Option.map_some]

theorem integerValue?_eq_none_iff {cs : List Char} :
    integerValue? cs = none ↔ ¬ ∃ n, IntegerText cs n := by
  simp only [← integerValue?_eq_some_iff, Option.eq_none_iff_forall_ne_some,
    not_exists, ne_eq]

theorem digit_notMem_separators {c : Char} (h : Number.isDigit c = true) :
    c ∉ separators := by
  have hseparators : separators.all (fun c => !Number.isDigit c) = true := by decide
  intro hc
  have hnot := List.all_eq_true.mp hseparators c hc
  rw [h] at hnot
  cases hnot

theorem IntegerText.ne_nil {cs : List Char} {n : Int} (h : IntegerText cs n) :
    cs ≠ [] := by
  cases h with
  | plain h => exact h.1
  | minus h => exact List.cons_ne_nil _ _

theorem IntegerText.notMem_separators {cs : List Char} {n : Int} (h : IntegerText cs n) :
    ∀ c ∈ cs, c ∉ separators := by
  intro c hc
  cases h with
  | plain h => exact digit_notMem_separators (h.2 c hc)
  | minus h =>
      rcases List.mem_cons.mp hc with rfl | hc
      · decide
      · exact digit_notMem_separators (h.2 c hc)

theorem fractionOf_eq_nil_iff {rest : List Char} :
    fractionOf rest = [] ↔ ¬ ∃ d tail, rest = '.' :: d :: tail ∧
      Number.isDigit d = true := by
  unfold fractionOf
  split
  · rename_i cs
    cases cs with
    | nil => simp
    | cons d tail => by_cases hd : Number.isDigit d = true <;> simp [hd]
  · rename_i hpoint
    refine iff_of_true rfl ?_
    rintro ⟨d, tail, rfl, -⟩
    exact hpoint (d :: tail) rfl

theorem readSign_of_digits {digits : List Char} (h : Digits digits) (rest : List Char) :
    Number.readSign (digits ++ rest) = (false, digits ++ rest) := by
  obtain ⟨d, tail, rfl⟩ := List.exists_cons_of_ne_nil h.1
  have hd := h.2 d List.mem_cons_self
  unfold Number.readSign
  split
  · rename_i heq
    rw [(List.cons.inj heq).1] at hd
    exact absurd hd (by decide)
  · rename_i heq
    rw [(List.cons.inj heq).1] at hd
    exact absurd hd (by decide)
  · rfl

theorem ofDigits_fraction_roundsTo {digits fraction : List Char} (hdigits : Digits digits)
    (hfraction : Digits fraction) (negative : Bool) :
    Binary64.RoundsTo negative (Nat.ofDigitChars 10 digits 0 +
        Nat.ofDigitChars 10 fraction 0 / 10 ^ fraction.length)
      (Number.ofDigits negative (digits ++ fraction) (-(fraction.length : Int))) := by
  have hall : ∀ c ∈ digits ++ fraction, Number.isDigit c = true :=
    List.forall_mem_append.mpr ⟨hdigits.2, hfraction.2⟩
  have hrounds := Number.ofDigits_roundsTo negative hall (-(fraction.length : Int))
  rw [Number.digitsValue_split, neg_add_cancel, zpow_zero, mul_one] at hrounds
  rwa [← Number.digitsValue_eq, ← Number.digitsValue_eq]

/-- The double of the lexer is the nearest to the number that its text denotes. -/
theorem doubleValue_roundsTo {whole fraction : List Char} {n : Int}
    (hwhole : IntegerText whole n) (hfraction : Digits fraction) :
    Binary64.RoundsTo (whole.head? = some '-')
        (n.natAbs + Nat.ofDigitChars 10 fraction 0 / 10 ^ fraction.length)
      (doubleValue whole fraction) := by
  cases hwhole with
  | @minus digits h =>
      rw [Int.natAbs_neg, Int.natAbs_natCast]
      exact ofDigits_fraction_roundsTo h hfraction true
  | plain h =>
      have hsign := readSign_of_digits h []
      rw [List.append_nil] at hsign
      have hplain : whole.head? ≠ some '-' := by
        intro hminus
        obtain ⟨rest, rfl⟩ := List.head?_eq_some_iff.mp hminus
        exact not_digits_minus rest h
      rw [Int.natAbs_natCast, decide_eq_false hplain, doubleValue, hsign]
      exact ofDigits_fraction_roundsTo h hfraction false

/-! ## Literals -/

theorem escaped?_eq_some_iff {c d : Char} : escaped? c = some d ↔ (c, d) ∈ escapes := by
  unfold escaped?
  constructor
  · intro h
    repeat' split at h
    all_goals cases h <;> simp_all [escapes]
  · intro h
    simp only [escapes, List.mem_cons, Prod.mk.injEq, List.not_mem_nil, or_false] at h
    rcases h with ⟨rfl, rfl⟩ | ⟨rfl, rfl⟩ | ⟨rfl, rfl⟩ | ⟨rfl, rfl⟩ | ⟨rfl, rfl⟩ <;> rfl

theorem exists_of_map_eq_ok {ε α β : Type} {f : α → β} {x : Except ε α} {b : β}
    (h : x.map f = .ok b) : ∃ a, x = .ok a ∧ f a = b := by
  cases x with
  | error e => cases h
  | ok a =>
      cases h
      exact ⟨a, rfl, rfl⟩

theorem Unescapes.decodeBody_eq {body text : List Char} (h : Unescapes body text) :
    decodeBody body = .ok text := by
  induction h with
  | nil => rfl
  | @plain c body text hquote hslash h ih => simp [decodeBody, hslash, ih, Except.map]
  | @escape c d body text hescape h ih =>
      simp [decodeBody, escaped?_eq_some_iff.mpr hescape, ih, Except.map]

theorem Unescapes.literalBody_eq {body text : List Char} (h : Unescapes body text)
    (rest : List Char) : literalBody (body ++ '"' :: rest) = (body, '"' :: rest) := by
  induction h with
  | nil => simp [literalBody]
  | @plain c body text hquote hslash h ih => simp [literalBody, hquote, hslash, ih]
  | @escape c d body text hescape h ih =>
      have hc : c ≠ '\n' := by
        have htable : ∀ e ∈ escapes, e.1 ≠ '\n' := by decide
        exact htable (c, d) hescape
      simp [literalBody, hc, ih]

theorem unescapes_of_literalBody {cs body rest text : List Char}
    (hbody : literalBody cs = (body, '"' :: rest)) (htext : decodeBody body = .ok text) :
    Unescapes body text := by
  fun_induction literalBody cs generalizing body text with
  | case1 => cases hbody
  | case2 => cases hbody
  | case3 c cs hc inner after heq ih =>
      cases hbody
      rw [decodeBody] at htext
      split at htext
      · cases htext
      · rename_i d hescape
        obtain ⟨s, hinner, rfl⟩ := exists_of_map_eq_ok htext
        exact .escape (escaped?_eq_some_iff.mp hescape) (ih heq hinner)
  | case4 c cs hlone hc =>
      cases hbody
      cases htext
      exact .nil
  | case5 c cs hlone hc inner after heq ih =>
      cases hbody
      simp only [Bool.or_eq_true, decide_eq_true_eq, not_or] at hc
      have hdecode : decodeBody (c :: inner) = (decodeBody inner).map (c :: ·) := by
        simp [decodeBody, hc.2]
      rw [hdecode] at htext
      obtain ⟨s, hinner, rfl⟩ := exists_of_map_eq_ok htext
      exact .plain hc.1 hc.2 (ih heq hinner)

theorem literalBody_append (cs : List Char) :
    (literalBody cs).1 ++ (literalBody cs).2 = cs := by
  fun_induction literalBody cs <;> simp_all

/-! ## Words -/

theorem wordLexeme_of_integer {run : List Char} {n : Int64}
    (h : IntegerText run n.toInt) : wordLexeme run = .token (.int n) := by
  rw [wordLexeme, integerValue?_eq_some_iff.mpr h]
  simp only [Number.toWord?_eq_some_iff.mpr rfl]

theorem wordLexeme_of_keyword (k : Keyword) :
    wordLexeme k.spelling.toList = .token (.keyword k) := by
  cases k <;> rfl

theorem ofWord?_eq_none_iff {run : List Char} :
    Keyword.ofWord? (String.ofList run) = none ↔
      ∀ k : Keyword, k.spelling.toList ≠ run := by
  simp only [Option.eq_none_iff_forall_ne_some, ne_eq,
    Keyword.ofWord?_eq_some_iff, ← String.toList_inj, String.toList_ofList]

theorem wordLexeme_of_word {run : List Char} (hinteger : ¬ ∃ n, IntegerText run n)
    (hkeyword : ∀ k : Keyword, k.spelling.toList ≠ run) :
    wordLexeme run = .token (.word (String.ofList run)) := by
  rw [wordLexeme, integerValue?_eq_none_iff.mpr hinteger]
  simp only [ofWord?_eq_none_iff.mpr hkeyword]

/-- A run of word characters is an integer, a keyword or a word. -/
theorem wordLexeme_sound {run rest : List Char} (hne : run ≠ [])
    (hrun : ∀ c ∈ run, c ∉ separators) (hrest : Begins (· ∈ separators) rest)
    (hdouble : (∃ n, IntegerText run n) → fractionOf rest = []) :
    Cut.Sound ⟨wordLexeme run, run, rest⟩ := by
  unfold wordLexeme
  split
  · rename_i n hinteger
    have htext := integerValue?_eq_some_iff.mp hinteger
    split
    · rename_i word hword
      rw [← Number.toWord?_eq_some_iff.mp hword] at htext
      exact .inr (.token (.int htext)
        ⟨hrest, fractionOf_eq_nil_iff.mp (hdouble ⟨_, htext⟩)⟩)
    · exact .inl ⟨_, rfl⟩
  · rename_i hinteger
    split
    · rename_i k hkeyword
      have hspelling : k.spelling.toList = run := by
        rw [Keyword.ofWord?_eq_some_iff.mp hkeyword, String.toList_ofList]
      exact .inr (.token (hspelling ▸ .keyword k) hrest)
    · rename_i hkeyword
      have hword : Denotes run (.word (String.ofList run)) :=
        .word hne hrun (integerValue?_eq_none_iff.mp hinteger)
          (ofWord?_eq_none_iff.mp hkeyword)
      exact .inr (.token hword hrest)

theorem cutWord_append {run rest : List Char} (hrun : ∀ c ∈ run, c ∉ separators)
    (hrest : Begins (· ∈ separators) rest) :
    cutWord (run ++ rest) =
      if (integerValue? run).isSome && !(fractionOf rest).isEmpty then
        ⟨.token (.double (doubleValue run (fractionOf rest))),
            run ++ '.' :: fractionOf rest,
          rest.drop ((fractionOf rest).length + 1)⟩
      else ⟨wordLexeme run, run, rest⟩ := by
  have hword : ∀ c ∈ run, isWordChar c = true :=
    fun c hc => isWordChar_iff.mpr (hrun c hc)
  have hstop : Begins (isWordChar · = false) rest := by
    refine hrest.imp fun c hc => ?_
    rw [Bool.eq_false_iff]
    exact fun hword => isWordChar_iff.mp hword hc
  rw [cutWord, Begins.takeWhile_eq hword hstop, Begins.dropWhile_eq hword hstop]

theorem cut_of_notMem_separators {c : Char} (h : c ∉ separators) (cs : List Char) :
    cut c cs = cutWord (c :: cs) := by
  have hword := isWordChar_iff.mpr h
  simp only [isWordChar, Bool.and_eq_true, Bool.not_eq_true', Option.isNone_iff_eq_none,
    decide_eq_true_eq] at hword
  obtain ⟨⟨⟨hspace, hmark⟩, hquote⟩, hslash⟩ := hword
  simp [cut, hspace, hmark, hquote, hslash]

/-- A run of word characters that is no double is cut off whole. -/
theorem cut_run {c : Char} {cs run rest : List Char} (hcs : c :: cs = run ++ rest)
    (hne : run ≠ []) (hrun : ∀ c ∈ run, c ∉ separators)
    (hrest : Begins (· ∈ separators) rest)
    (hdouble : (∃ n, IntegerText run n) → fractionOf rest = []) :
    cut c cs = ⟨wordLexeme run, run, rest⟩ := by
  obtain ⟨d, tail, rfl⟩ := List.exists_cons_of_ne_nil hne
  have hc : c = d := (List.cons.inj hcs).1
  rw [cut_of_notMem_separators (hc ▸ hrun d List.mem_cons_self), hcs,
    cutWord_append hrun hrest, if_neg]
  rintro hcond
  rw [Bool.and_eq_true, Bool.not_eq_true', List.isEmpty_eq_false_iff] at hcond
  obtain ⟨n, hn⟩ := Option.isSome_iff_exists.mp hcond.1
  exact hcond.2 (hdouble ⟨n, integerValue?_eq_some_iff.mp hn⟩)

/-! ## Cuts -/

theorem keyword_spelling_ne_nil (k : Keyword) : k.spelling.toList ≠ [] := by
  cases k <;> decide

theorem keyword_notMem_separators (k : Keyword) :
    ∀ c ∈ k.spelling.toList, c ∉ separators := by
  have hspelling : k.spelling.toList.all (fun c => !separators.contains c) = true := by
    cases k <;> decide
  intro c hc hmem
  have hnot := List.all_eq_true.mp hspelling c hc
  rw [List.contains_iff_mem.mpr hmem] at hnot
  cases hnot

theorem keyword_not_integer (k : Keyword) : ¬ ∃ n, IntegerText k.spelling.toList n := by
  rw [← integerValue?_eq_none_iff]
  cases k <;> rfl

theorem cut_of_denotes {c : Char} {cs slice rest : List Char} {t : Token}
    (hslice : Denotes slice t) (hrest : EndsBefore rest t)
    (hcs : c :: cs = slice ++ rest) : cut c cs = ⟨.token t, slice, rest⟩ := by
  cases hslice with
  | keyword k =>
      rw [cut_run hcs (keyword_spelling_ne_nil k) (keyword_notMem_separators k) hrest
        (fun h => absurd h (keyword_not_integer k)), wordLexeme_of_keyword]
  | mark m =>
      obtain ⟨d, hd, hmark⟩ : ∃ d, m.spelling.toList = [d] ∧ Mark.ofChar? d = some m := by
        cases m <;> exact ⟨_, rfl, rfl⟩
      rw [hd] at hcs ⊢
      obtain ⟨rfl, rfl⟩ := List.cons.inj hcs
      have hother : isSpace c = false ∧ c ≠ '/' ∧ c ≠ '"' := by
        cases m <;> cases hd <;> decide
      simp [cut, hmark, hother]
  | @int _ n h =>
      rw [cut_run hcs h.ne_nil h.notMem_separators hrest.1
        (fun _ => fractionOf_eq_nil_iff.mpr hrest.2), wordLexeme_of_integer h]
  | @double whole fraction n x hwhole hfraction hx =>
      have hx := (doubleValue_roundsTo hwhole hfraction).unique hx
      have hdigits : fractionOf ('.' :: fraction ++ rest) = fraction :=
        Begins.takeWhile_eq hfraction.2 hrest
      have hpoint : Begins (· ∈ separators) ('.' :: fraction ++ rest) := by
        rw [List.cons_append]
        exact Begins.cons_iff.mpr (by decide)
      rw [List.append_assoc] at hcs
      obtain ⟨d, tail, rfl⟩ := List.exists_cons_of_ne_nil hwhole.ne_nil
      have hc : c = d := (List.cons.inj hcs).1
      rw [cut_of_notMem_separators (hc ▸ hwhole.notMem_separators d List.mem_cons_self),
        hcs, cutWord_append hwhole.notMem_separators hpoint, hdigits, if_pos, hx]
      · simp
      · simp [integerValue?_eq_some_iff.mpr hwhole, hfraction.1]
  | @text body s h =>
      rw [List.cons_append] at hcs
      obtain ⟨rfl, rfl⟩ := List.cons.inj hcs
      have hbody : literalBody (body ++ ['"'] ++ rest) = (body, '"' :: rest) := by
        rw [List.append_assoc]
        exact h.literalBody_eq rest
      have hquote : cut '"' (body ++ ['"'] ++ rest) = cutLiteral
        (body ++ ['"'] ++ rest) := rfl
      rw [hquote, cutLiteral, hbody]
      simp only [h.decodeBody_eq]
  | word hne hrun hinteger hkeyword =>
      rw [cut_run hcs hne hrun hrest (fun h => absurd h hinteger),
        wordLexeme_of_word hinteger hkeyword]

/-- A piece is what the lexer cuts off. -/
theorem cut_of_piece {c : Char} {cs slice rest : List Char} {lexeme : Lexeme}
    (h : Piece lexeme slice rest) (hcs : c :: cs = slice ++ rest) :
    cut c cs = ⟨lexeme, slice, rest⟩ := by
  cases h with
  | blank hc =>
      obtain ⟨rfl, rfl⟩ := List.cons.inj hcs
      exact if_pos (isSpace_iff.mpr hc)
  | @comment body rest hbody hrest =>
      rw [List.cons_append] at hcs
      obtain ⟨rfl, rfl⟩ := List.cons.inj hcs
      have hline : ∀ c ∈ '/' :: body, decide (c ≠ '\n') = true := by
        intro c hc
        rw [decide_eq_true_eq]
        rintro rfl
        rcases List.mem_cons.mp hc with h | h
        · cases h
        · exact hbody h
      have hend : Begins (fun c => decide (c ≠ '\n') = false) rest := by
        refine hrest.imp fun c hc => ?_
        simp [hc]
      have hslash : cut '/' ('/' :: body ++ rest) = cutSlash ('/' :: (body ++ rest)) :=
        rfl
      rw [hslash, cutSlash, ← List.cons_append, Begins.takeWhile_eq hline hend,
        Begins.dropWhile_eq hline hend]
  | token hslice hrest => exact cut_of_denotes hslice hrest hcs

theorem Denotes.ne_nil {slice : List Char} {t : Token} (h : Denotes slice t) :
    slice ≠ [] := by
  cases h with
  | keyword k => exact keyword_spelling_ne_nil k
  | mark m => cases m <;> decide
  | int h => exact h.ne_nil
  | double => simp
  | text => simp
  | word hne => exact hne

theorem endsBefore_nil (t : Token) : EndsBefore [] t := by
  cases t with
  | int n =>
      refine ⟨Begins.nil, ?_⟩
      rintro ⟨d, tail, h, -⟩
      cases h
  | mark => trivial
  | text => trivial
  | _ => exact Begins.nil

/-- A text denotes at most one token. -/
theorem Denotes.unique {slice : List Char} {t t' : Token} (h : Denotes slice t)
    (h' : Denotes slice t') : t' = t := by
  obtain ⟨c, cs, rfl⟩ := List.exists_cons_of_ne_nil h.ne_nil
  have hcs : c :: cs = c :: cs ++ [] := (List.append_nil _).symm
  have hcut := cut_of_denotes h (endsBefore_nil t) hcs
  rw [cut_of_denotes h' (endsBefore_nil t') hcs] at hcut
  exact Lexeme.token.inj (congrArg Cut.lexeme hcut)

theorem Piece.ne_nil {lexeme : Lexeme} {slice rest : List Char}
    (h : Piece lexeme slice rest) : slice ≠ [] := by
  cases h with
  | blank => exact List.cons_ne_nil _ _
  | comment => exact List.cons_ne_nil _ _
  | token hslice => exact hslice.ne_nil

theorem cutSlash_sound (cs : List Char) : (cutSlash cs).Sound := by
  unfold cutSlash
  split
  · rename_i body
    refine .inr ?_
    have hline : ('/' :: body).takeWhile (· ≠ '\n') = '/' :: body.takeWhile (· ≠ '\n') :=
      List.takeWhile_cons_of_pos (by decide)
    rw [hline]
    refine .comment (fun hmem => ?_) ((Begins.dropWhile _ _).imp fun c hc => ?_)
    · have hnot := List.all_eq_true.mp List.all_takeWhile _ hmem
      simp at hnot
    · simpa using hc
  · exact .inl ⟨_, rfl⟩

theorem cutLiteral_sound (cs : List Char) : (cutLiteral cs).Sound := by
  unfold cutLiteral
  split
  · rename_i body rest hbody
    cases htext : decodeBody body with
    | error c => exact .inl ⟨_, rfl⟩
    | ok text =>
        exact .inr (.token (.text (unescapes_of_literalBody hbody htext)) trivial)
  · exact .inl ⟨_, rfl⟩

/-- After an integer, a point and at least one digit, the fraction runs as far as there
are digits. -/
theorem fractionOf_spec {rest : List Char} (h : fractionOf rest ≠ []) :
    rest = '.' :: (fractionOf rest ++ rest.drop ((fractionOf rest).length + 1)) ∧
        Digits (fractionOf rest) ∧
      Begins (Number.isDigit · = false) (rest.drop ((fractionOf rest).length + 1)) := by
  unfold fractionOf at h ⊢
  split at h
  · rename_i cs
    have hdrop : cs.drop (cs.takeWhile Number.isDigit).length =
        cs.dropWhile Number.isDigit := by
      conv => lhs; arg 2; rw [← List.takeWhile_append_dropWhile
        (p := Number.isDigit) (l := cs)]
      exact List.drop_left
    simp only [List.drop_succ_cons, hdrop, List.takeWhile_append_dropWhile]
    exact ⟨trivial, ⟨h, List.all_eq_true.mp List.all_takeWhile⟩, Begins.dropWhile _ _⟩
  · exact absurd rfl h

theorem cutWord_sound {c : Char} {cs : List Char} (hc : c ∉ separators) :
    (cutWord (c :: cs)).Sound := by
  have hrun : ∀ d ∈ (c :: cs).takeWhile isWordChar, d ∉ separators := by
    intro d hd
    exact isWordChar_iff.mp (List.all_eq_true.mp List.all_takeWhile d hd)
  have hne : (c :: cs).takeWhile isWordChar ≠ [] := by
    rw [List.takeWhile_cons_of_pos (isWordChar_iff.mpr hc)]
    exact List.cons_ne_nil _ _
  have hrest : Begins (· ∈ separators) ((c :: cs).dropWhile isWordChar) := by
    refine (Begins.dropWhile isWordChar (c :: cs)).imp fun d hd => ?_
    rw [Bool.eq_false_iff, ne_eq, isWordChar_iff] at hd
    exact Decidable.not_not.mp hd
  unfold cutWord
  generalize (c :: cs).takeWhile isWordChar = run at hrun hne ⊢
  generalize (c :: cs).dropWhile isWordChar = rest at hrest ⊢
  simp only
  split
  · rename_i hdouble
    rw [Bool.and_eq_true, Bool.not_eq_true', List.isEmpty_eq_false_iff] at hdouble
    obtain ⟨n, hn⟩ := Option.isSome_iff_exists.mp hdouble.1
    have hwhole := integerValue?_eq_some_iff.mp hn
    obtain ⟨-, hdigits, hend⟩ := fractionOf_spec hdouble.2
    exact .inr (.token (.double hwhole hdigits (doubleValue_roundsTo hwhole hdigits))
      hend)
  · rename_i hdouble
    have hfraction : (∃ n, IntegerText run n) → fractionOf rest = [] := by
      rintro ⟨n, hn⟩
      rw [← integerValue?_eq_some_iff] at hn
      simpa [hn] using hdouble
    exact wordLexeme_sound hne hrun hrest hfraction

/-- Whatever the lexer cuts off without an error is a piece of the text. -/
theorem cut_sound (c : Char) (cs : List Char) : (cut c cs).Sound := by
  unfold cut
  split
  · rename_i hspace
    exact .inr (.blank (isSpace_iff.mp hspace) cs)
  split
  · exact cutSlash_sound cs
  split
  · exact cutLiteral_sound cs
  split
  · rename_i m hmark
    rw [← Mark.ofChar?_eq_some_iff.mp hmark]
    exact .inr (.token (.mark m) trivial)
  · apply cutWord_sound
    rw [← isWordChar_iff]
    simp_all [isWordChar]

theorem cutLiteral_append (cs : List Char) :
    (cutLiteral cs).taken ++ (cutLiteral cs).rest = '"' :: cs := by
  have happend := literalBody_append cs
  unfold cutLiteral
  split
  · rename_i body rest hbody
    rw [hbody] at happend
    split <;> simp [← happend]
  · rename_i body rest _ hbody
    rw [hbody] at happend
    simp [← happend]

theorem cutWord_taken_append (cs : List Char) :
    (cutWord cs).taken ++ (cutWord cs).rest = cs := by
  unfold cutWord
  simp only
  split
  · rename_i hdouble
    rw [Bool.and_eq_true, Bool.not_eq_true', List.isEmpty_eq_false_iff] at hdouble
    obtain ⟨happend, -, -⟩ := fractionOf_spec hdouble.2
    rw [List.append_assoc, List.cons_append, ← happend]
    exact List.takeWhile_append_dropWhile
  · exact List.takeWhile_append_dropWhile

/-- A cut splits the text, whether or not it is an error. -/
theorem cut_append (c : Char) (cs : List Char) :
    (cut c cs).taken ++ (cut c cs).rest = c :: cs := by
  unfold cut
  split
  · rfl
  split
  · rename_i hslash
    unfold cutSlash
    split
    · rw [hslash]
      exact congrArg _ List.takeWhile_append_dropWhile
    · rw [hslash]
      rfl
  split
  · rename_i hquote
    rw [hquote]
    exact cutLiteral_append cs
  split
  · rfl
  · exact cutWord_taken_append (c :: cs)

end Lexer

end HandleScript
