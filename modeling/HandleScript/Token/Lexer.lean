import HandleScript.Number.Reader
import HandleScript.Token

/-!
# Cutting a source text into tokens

The text is cut from the left into lexemes: blanks and comments, which are dropped, and
tokens. Every cut is the longest that the text allows. A run of word characters is an
integer when it looks like one, a keyword when it is spelt like one, and a word otherwise;
an integer that is followed by a point and a digit goes on as a double. The first lexeme
that is no token ends the work with an error.
-/

namespace HandleScript

/-- Why a piece of source text is no token. -/
inductive LexError where
  /-- No token starts with this text. -/
  | unexpected (slice : String)
  /-- A text literal is not closed. -/
  | unterminated
  /-- A text literal has a backslash before a character that makes no escape. -/
  | badEscape (c : Char)
  /-- An integer does not fit in 64 bits. -/
  | malformedNumber (slice : String)
deriving DecidableEq, Repr

/-- The message of a lexical error. -/
def LexError.message : LexError → String
  | unexpected slice => "unexpected character: " ++ Text.quote slice
  | unterminated => "unterminated string literal"
  | badEscape c => "invalid escape sequence `\\" ++ c.toString ++ "` in string literal"
  | malformedNumber slice => "malformed numeric literal `" ++ slice ++ "`"

namespace Lexer

/-- Whether a character separates tokens: a space, a tab, a line feed, a carriage return
or a form feed. -/
def isSpace (c : Char) : Bool :=
  c = ' ' || c = '\t' || c = '\r' || c = '\n' || c = '\x0c'

/-- Whether a character can stand in a word: all but spaces, marks, double quotes and
slashes. -/
def isWordChar (c : Char) : Bool :=
  !isSpace c && (Mark.ofChar? c).isNone && c ≠ '"' && c ≠ '/'

/-- What a piece of source text is. -/
inductive Lexeme where
  /-- Blanks or a comment. -/
  | gap
  | token (t : Token)
  | bad (e : LexError)
deriving Repr

/-- A piece cut off at the beginning of a text, and what is left. -/
structure Cut where
  lexeme : Lexeme
  taken : List Char
  rest : List Char
deriving Repr

/-- The body of a text literal, as it is written, and what follows it. The body ends
before a double quote, before a backslash that has no character to escape on its line, and
at the end of the text. -/
def literalBody : List Char → List Char × List Char
  | [] => ([], [])
  | '\\' :: c :: cs =>
    if c = '\n' then ([], '\\' :: c :: cs)
    else
      let (body, rest) := literalBody cs
      ('\\' :: c :: body, rest)
  | c :: cs =>
    if c = '"' || c = '\\' then ([], c :: cs)
    else
      let (body, rest) := literalBody cs
      (c :: body, rest)

/-- The character that a backslash and `c` stand for. -/
def escaped? (c : Char) : Option Char :=
  if c = 'r' then some '\r'
  else if c = 'n' then some '\n'
  else if c = 't' then some '\t'
  else if c = '\\' then some '\\'
  else if c = '"' then some '"'
  else none

/-- The text that the body of a literal denotes, or the character of its first bad
escape. -/
def decodeBody : List Char → Except Char (List Char)
  | [] => .ok []
  | '\\' :: c :: cs =>
    match escaped? c with
    | none => .error c
    | some d => (decodeBody cs).map (d :: ·)
  | c :: cs => (decodeBody cs).map (c :: ·)

/-- Cuts off a text literal, whose opening quote stands before `cs`. -/
def cutLiteral (cs : List Char) : Cut :=
  match literalBody cs with
  | (body, '"' :: rest) =>
    let taken := '"' :: (body ++ ['"'])
    match decodeBody body with
    | .ok s => ⟨.token (.text (String.ofList s)), taken, rest⟩
    | .error c => ⟨.bad (.badEscape c), taken, rest⟩
  | (body, rest) => ⟨.bad .unterminated, '"' :: body, rest⟩

/-- The integer that a run of word characters is written as: digits after an optional
minus sign. -/
def integerValue? : List Char → Option Int
  | '-' :: digits => (Number.readNat? digits).map fun n => -(n : Int)
  | digits => (Number.readNat? digits).map fun n => (n : Int)

/-- The token that a whole run of word characters makes. -/
def wordLexeme (run : List Char) : Lexeme :=
  match integerValue? run with
  | some n =>
    match Number.toWord? n with
    | some word => .token (.int word)
    | none => .bad (.malformedNumber (String.ofList run))
  | none =>
    match Keyword.ofWord? (String.ofList run) with
    | some k => .token (.keyword k)
    | none => .token (.word (String.ofList run))

/-- The digits after a point at the beginning of `rest`, if there are any. -/
def fractionOf (rest : List Char) : List Char :=
  match rest with
  | '.' :: cs => cs.takeWhile Number.isDigit
  | _ => []

/-- The double written as the integer `whole`, a point and the digits `fraction`. -/
def doubleValue (whole fraction : List Char) : Float :=
  let (negative, digits) := Number.readSign whole
  Number.ofDigits negative (digits ++ fraction) (-(fraction.length : Int))

/-- Cuts off a word, a keyword or a number, which the run of word characters at the
beginning of `cs` starts. -/
def cutWord (cs : List Char) : Cut :=
  let run := cs.takeWhile isWordChar
  let rest := cs.dropWhile isWordChar
  let fraction := fractionOf rest
  if (integerValue? run).isSome && !fraction.isEmpty then
    ⟨.token (.double (doubleValue run fraction)), run ++ '.' :: fraction,
      rest.drop (fraction.length + 1)⟩
  else ⟨wordLexeme run, run, rest⟩

/-- Cuts off a comment, which runs to the end of its line, or refuses a lone slash. The
first slash stands before `cs`. -/
def cutSlash (cs : List Char) : Cut :=
  match cs with
  | '/' :: _ => ⟨.gap, '/' :: cs.takeWhile (· ≠ '\n'), cs.dropWhile (· ≠ '\n')⟩
  | _ => ⟨.bad (.unexpected "/"), ['/'], cs⟩

/-- Cuts off the first lexeme of the text `c :: cs`. -/
def cut (c : Char) (cs : List Char) : Cut :=
  if isSpace c then ⟨.gap, [c], cs⟩
  else if c = '/' then cutSlash cs
  else if c = '"' then cutLiteral cs
  else
    match Mark.ofChar? c with
    | some m => ⟨.token (.mark m), [c], cs⟩
    | none => cutWord (c :: cs)

theorem length_dropWhile_le (p : Char → Bool) (cs : List Char) :
    (cs.dropWhile p).length ≤ cs.length :=
  (List.dropWhile_suffix p).length_le

theorem length_literalBody_le (cs : List Char) :
    (literalBody cs).2.length ≤ cs.length := by
  fun_induction literalBody cs <;> simp_all <;> omega

/-- A text literal leaves no more than what follows its opening quote. -/
theorem length_cutLiteral_le (cs : List Char) :
    (cutLiteral cs).rest.length ≤ cs.length := by
  have h := length_literalBody_le cs
  unfold cutLiteral
  split
  · rename_i body rest heq
    rw [heq] at h
    simp only [List.length_cons] at h
    split <;> simp only <;> omega
  · rename_i body rest _ heq
    rw [heq] at h
    exact h

/-- A comment or a lone slash leaves no more than what follows its first slash. -/
theorem length_cutSlash_le (cs : List Char) : (cutSlash cs).rest.length ≤ cs.length := by
  unfold cutSlash
  split
  · exact length_dropWhile_le _ _
  · exact Nat.le_refl _

/-- A run that starts with a word character leaves no more than what follows that
character. -/
theorem length_cutWord_le (c : Char) (cs : List Char) (h : isWordChar c = true) :
    (cutWord (c :: cs)).rest.length ≤ cs.length := by
  have hdrop : ((c :: cs).dropWhile isWordChar).length ≤ cs.length := by
    rw [List.dropWhile_cons_of_pos h]
    exact length_dropWhile_le _ _
  unfold cutWord
  simp only
  split
  · simp only [List.length_drop]
    omega
  · exact hdrop

/-- Every cut leaves a shorter text. -/
theorem length_cut_le (c : Char) (cs : List Char) :
    (cut c cs).rest.length ≤ cs.length := by
  unfold cut
  split
  · exact Nat.le_refl _
  split
  · exact length_cutSlash_le cs
  split
  · exact length_cutLiteral_le cs
  split
  · exact Nat.le_refl _
  · apply length_cutWord_le
    simp_all [isWordChar]

/-- The number of bytes of a piece of text. -/
def byteSize (cs : List Char) : Nat :=
  cs.foldl (fun n c => n + c.utf8Size) 0

/-- Cuts the text `cs`, which stands at the byte `offset` of the source, into tokens, and
puts them after the tokens `found` so far, latest first. -/
def scan (index : LineIndex) (offset : Nat) (found : List (Located Token)) :
    List Char → Except (Located LexError) (List (Located Token))
  | [] => .ok found.reverse
  | c :: cs =>
    let piece := cut c cs
    let stop := offset + byteSize piece.taken
    match piece.lexeme with
    | .gap => scan index stop found piece.rest
    | .token t => scan index stop (⟨t, index.span offset stop⟩ :: found) piece.rest
    | .bad e => .error ⟨e, index.span offset stop⟩
termination_by cs => cs.length
decreasing_by
  all_goals
    simp only [List.length_cons]
    exact Nat.lt_succ_of_le (length_cut_le c cs)

end Lexer

/-- The tokens of a source text with their spans, or its first lexical error. -/
def tokenize (source : String) : Except (Located LexError) (List (Located Token)) :=
  Lexer.scan (LineIndex.ofSource source) 0 [] source.toList

end HandleScript
