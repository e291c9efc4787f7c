import HandleScript.Proofs.Lexer.Segments
import HandleScript.Proofs.WordArithmetic

/-!
# Integers as texts

Integers are written by one function and read by two: by the lexer, where they stand in
code, and by the conversions, where they stand in texts. All three agree about every
integer, and both readers refuse the same texts.
-/

namespace HandleScript

namespace WordKind

/-- The kind of value that holds such an integer. -/
def kind : WordKind → Kind
  | int => .int
  | long => .long

/-- The operation of the factory that makes integers of the kind. -/
def maker : WordKind → FactoryOp
  | int => .int
  | long => .long

end WordKind

/-- What a script can call to convert a value to a 64-bit integer. -/
inductive IntegerConversion where
  /-- The function `int`. -/
  | function
  /-- The factory, for a value of this kind. -/
  | factory (kind : WordKind)

namespace IntegerConversion

/-- The kind of the integer that is asked for. -/
def target : IntegerConversion → WordKind
  | function => .int
  | factory kind => kind

/-- What the conversion is called on. -/
def receiver : IntegerConversion → Value
  | function => .dispatcher
  | factory _ => .factory

/-- Converts a value. -/
def call (conversion : IntegerConversion) (host : Host) (fuel scope : Nat) (v : Value) :
    Run Value :=
  dispatch host (fuel + 3) scope conversion.receiver conversion.target.kind.name
    (.ready [v])

/-- The conversion of the value makes this integer. -/
def Makes (conversion : IntegerConversion) (host : Host) (fuel scope : Nat) (v : Value)
    (s : State) (n : Int64) : Prop :=
  conversion.call host fuel scope v s = Run.alloc (.number (conversion.target.number n)) s

/-- The conversion of the text is refused. -/
def Refuses (conversion : IntegerConversion) (host : Host) (fuel scope : Nat) (v : Value)
    (s : State) (text : String) : Prop :=
  conversion.call host fuel scope v s =
    .failed ⟨.invalidConversion (.text text) conversion.target.kind, none⟩ s

end IntegerConversion

/-! ## Blanks -/

theorem Text.trimChars_of_blanks {before cs after : List Char}
    (hbefore : ∀ c ∈ before, isBlank c = true) (hafter : ∀ c ∈ after, isBlank c = true)
    (hne : cs ≠ []) (hcs : ∀ c ∈ cs, isBlank c = false) :
    trimChars (before ++ cs ++ after) = cs := by
  have hbegins : Lexer.Begins (isBlank · = false) (cs ++ after) := by
    obtain ⟨c, tail, rfl⟩ := List.exists_cons_of_ne_nil hne
    exact Lexer.Begins.cons_iff.mpr (hcs c List.mem_cons_self)
  have hends : Lexer.Begins (isBlank · = false) cs.reverse := by
    obtain ⟨c, tail, hreverse⟩ :=
      List.exists_cons_of_ne_nil (List.reverse_ne_nil_iff.mpr hne)
    rw [hreverse]
    exact Lexer.Begins.cons_iff.mpr
      (hcs c (List.mem_reverse.mp (hreverse ▸ List.mem_cons_self)))
  have hfront : (before ++ (cs ++ after)).dropWhile isBlank = cs ++ after :=
    Lexer.Begins.dropWhile_eq hbefore hbegins
  have hback : (after.reverse ++ cs.reverse).dropWhile isBlank = cs.reverse :=
    Lexer.Begins.dropWhile_eq (fun c hc => hafter c (List.mem_reverse.mp hc)) hends
  rw [trimChars, List.append_assoc, hfront, List.reverse_append,
    hback, List.reverse_reverse]

namespace Lexer

theorem not_isBlank_of_isDigit {c : Char} (h : Number.isDigit c = true) :
    Text.isBlank c = false := by
  have hbounds : 48 ≤ c.toNat ∧ c.toNat ≤ 57 := by
    simpa [Number.isDigit, Char.le_def, UInt32.le_iff_toNat_le] using h
  rw [← Bool.not_eq_true]
  intro hblank
  simp only [Text.isBlank, Bool.or_eq_true, Bool.and_eq_true,
    decide_eq_true_eq, beq_iff_eq] at hblank
  omega

theorem IntegerText.not_isBlank {cs : List Char} {n : Int} (h : IntegerText cs n) :
    ∀ c ∈ cs, Text.isBlank c = false := by
  intro c hc
  cases h with
  | plain h => exact not_isBlank_of_isDigit (h.2 c hc)
  | minus h =>
      rcases List.mem_cons.mp hc with rfl | hc
      · decide
      · exact not_isBlank_of_isDigit (h.2 c hc)

/-! ## The two readers -/

theorem IntegerText.readInt?_eq {cs : List Char} {n : Int} (h : IntegerText cs n) :
    Number.readInt? cs = some n := by
  cases h with
  | minus h =>
      simp [Number.readInt?, Number.readSign, readNat?_eq_some_iff.mpr ⟨h, rfl⟩,
        Number.signed]
  | plain h =>
      have hsign := readSign_of_digits h []
      rw [List.append_nil] at hsign
      simp [Number.readInt?, hsign, readNat?_eq_some_iff.mpr ⟨h, rfl⟩, Number.signed]

theorem IntegerText.tokenize_eq {source : String} {n : Int}
    (h : IntegerText source.toList n) :
    tokenize source =
      match Number.toWord? n with
      | some word => .ok [⟨.int word, Span.whole source⟩]
      | none => .error ⟨.malformedNumber source, Span.whole source⟩ := by
  obtain ⟨c, cs, hsource⟩ := List.exists_cons_of_ne_nil h.ne_nil
  have hcut : cut c cs = ⟨wordLexeme source.toList, source.toList, []⟩ :=
    cut_run (by rw [hsource, List.append_nil]) h.ne_nil h.notMem_separators Begins.nil
      (fun _ => rfl)
  rw [tokenize_of_cut_all hsource (congrArg Cut.rest hcut), hcut, wordLexeme,
    integerValue?_eq_some_iff.mpr h, String.ofList_toList]
  cases hword : Number.toWord? n <;> simp only [hword]

/-- Blanks around a text of digits do not matter to the conversion. -/
theorem IntegerText.wordOfText?_eq {before text after : String} {n : Int}
    (h : IntegerText text.toList n) (hbefore : ∀ c ∈ before.toList, Text.isBlank c = true)
    (hafter : ∀ c ∈ after.toList, Text.isBlank c = true) :
    Number.wordOfText? (before ++ text ++ after) = Number.toWord? n := by
  rw [Number.wordOfText?, String.toList_append, String.toList_append,
    Text.trimChars_of_blanks hbefore hafter h.ne_nil h.not_isBlank, Number.readWord?,
      h.readInt?_eq, Option.bind_some]

end Lexer

theorem Number.toWord?_eq_none_iff {n : Int} :
    toWord? n = none ↔ ¬(-2 ^ 63 ≤ n ∧ n < 2 ^ 63) := by
  rw [toWord?, Int64.toInt_minValue, Int64.toInt_maxValue]
  simp only [ite_eq_right_iff, reduceCtorEq, imp_false]
  omega

/-! ## The writer -/

theorem digits_toDigits (n : Nat) : Lexer.Digits (Nat.toDigits 10 n) := by
  refine ⟨Nat.toDigits_ne_nil, fun c hc => ?_⟩
  have hdigit := Nat.isDigit_of_mem_toDigits (by decide) (by decide) hc
  simpa [Number.isDigit, Char.isDigit, Char.le_def] using hdigit

theorem integerText_toString (n : Int) : Lexer.IntegerText (toString n).toList n := by
  cases n with
  | ofNat m =>
      have h := Lexer.IntegerText.plain (digits_toDigits m)
      rw [Nat.ofDigitChars_ten_toDigits] at h
      have htext : (toString (Int.ofNat m)).toList = Nat.toDigits 10 m :=
        String.toList_ofList
      rw [htext]
      exact h
  | negSucc m =>
      have h := Lexer.IntegerText.minus (digits_toDigits (m + 1))
      rw [Nat.ofDigitChars_ten_toDigits] at h
      have htext : (toString (Int.negSucc m)).toList =
          '-' :: Nat.toDigits 10 (m + 1) := by
        simp [ToString.toString, Int.repr, Nat.toList_repr]
      rw [htext]
      exact h

theorem WordKind.exists_handle {kind : WordKind} {store : Store} {v : Value} {n : Int64}
    (h : store.number? v = some (kind.number n)) :
    ∃ cell, v = kind.handle cell ∧ store.integers.get cell = n := by
  cases kind <;> cases v <;> cases h <;> exact ⟨_, rfl, rfl⟩

theorem WordKind.render_handle (kind : WordKind) (store : Store) (cell : Nat) :
    store.render (kind.handle cell) = toString (store.integers.get cell).toInt := by
  cases kind <;> rfl

theorem dispatch_toText_of_word (host : Host) (fuel scope : Nat) {s : State} {v : Value}
    {kind : WordKind} {n : Int64} (h : s.store.number? v = some (kind.number n)) :
    dispatch host (fuel + 3) scope v "toString" (.ready []) s = Run.alloc
      (.text (toString n.toInt)) s := by
  obtain ⟨cell, rfl, rfl⟩ := WordKind.exists_handle h
  have hfound : (kind.handle cell).kind.operation? "toString" = some (.common .toText) :=
    kind.operation?_handle cell (by decide)
  rw [dispatch_of_eager hfound rfl, ← kind.render_handle]
  exact Run.carryOut_fresh rfl

/-! ## Conversions -/

theorem WordKind.plan_maker (kind : WordKind) (store : Store) (method : String)
    (v : Value) :
    kind.maker.plan store method [v] = (toWord store v kind.kind).map fun n =>
      .fresh (.number (kind.number n)) := by
  cases kind <;> rfl

theorem toWord_of_text {store : Store} {v : Value} {text : String}
    (h : store.text? v = some text) (target : Kind) :
    toWord store v target =
      match Number.wordOfText? text with
      | some n => .ok n
      | none => .error (.invalidConversion (.text text) target) := by
  cases v <;> cases h
  rfl

theorem Run.alloc_word_inj {kind : WordKind} {m n : Int64} {s : State}
    (h : Run.alloc (.number (kind.number m)) s = Run.alloc (.number (kind.number n)) s) :
    m = n := by
  cases kind <;> simpa [Run.alloc, Store.alloc, WordKind.number, Pool.push,
    Array.push_eq_push] using h

namespace IntegerConversion

variable (conversion : IntegerConversion) (host : Host)
  (fuel scope : Nat) {s : State} {v : Value}

/-- Whatever is called, the value is converted in the same way. -/
theorem call_eq_carryOut :
    conversion.call host fuel scope v =
      Run.carryOut fun store =>
        conversion.target.maker.plan store conversion.target.kind.name [v] := by
  cases conversion with
  | function =>
      have hbuiltin : Builtin.ofName? WordKind.int.kind.name = some .int := by decide
      change callNamed host (fuel + 2) scope WordKind.int.kind.name (.ready [v]) = _
      rw [callNamed_builtin host (fuel + 1) hbuiltin, force]
      rfl
  | factory kind =>
      have hfound : Value.factory.kind.operation? kind.kind.name =
          some (.factory kind.maker) := by
        cases kind <;> decide
      exact dispatch_of_eager hfound (by cases kind <;> rfl) fuel

theorem call_of_text {text : String} (h : s.store.text? v = some text) :
    conversion.call host fuel scope v s =
      match Number.wordOfText? text with
      | some n => Run.alloc (.number (conversion.target.number n)) s
      | none =>
          .failed ⟨.invalidConversion (.text text) conversion.target.kind, none⟩ s := by
  have hplan := conversion.target.plan_maker s.store conversion.target.kind.name v
  rw [toWord_of_text h] at hplan
  rw [call_eq_carryOut]
  cases hword : Number.wordOfText? text with
  | some n => exact Run.carryOut_fresh (by rw [hplan, hword]; rfl)
  | none => exact Run.carryOut_of_error (by rw [hplan, hword]; rfl)

theorem makes_iff {text : String} (h : s.store.text? v = some text) {n : Int64} :
    conversion.Makes host fuel scope v s n ↔ Number.wordOfText? text = some n := by
  rw [Makes, conversion.call_of_text host fuel scope h]
  cases Number.wordOfText? text with
  | some m =>
      constructor
      · intro heq
        rw [Run.alloc_word_inj heq]
      · intro heq
        rw [Option.some.inj heq]
  | none => exact iff_of_false (fun heq => nomatch heq) (fun heq => nomatch heq)

theorem refuses_iff {text : String} (h : s.store.text? v = some text) :
    conversion.Refuses host fuel scope v s text ↔ Number.wordOfText? text = none := by
  rw [Refuses, conversion.call_of_text host fuel scope h]
  cases Number.wordOfText? text with
  | some m => exact iff_of_false (fun heq => nomatch heq) (fun heq => nomatch heq)
  | none => exact iff_of_true rfl rfl

end IntegerConversion

/-- What an int or a long is written as is the token of its number, with blanks around it
or without, and converts back to it. For digits after an optional minus sign, the lexer
and every conversion give the integer that they denote, and refuse them just when it does
not fit in 64 bits. -/
theorem integer_texts_are_read_as_written (host : Host) (fuel scope : Nat) (s : State) :
    (∀ (v : Value) (kind : WordKind) (n : Int64),
        s.store.number? v = some (kind.number n) →
      let text := toString n.toInt
      dispatch host (fuel + 3) scope v "toString" (.ready []) s =
        Run.alloc (.text text) s ∧
      tokenize text = .ok [⟨.int n, Span.whole text⟩] ∧
      (∀ before after : String, (∀ c ∈ before.toList, c ∈ Lexer.blanks) →
          (∀ c ∈ after.toList, c ∈ Lexer.blanks) →
        tokenize (before ++ text ++ after) =
          .ok [⟨.int n, Lexer.spanAfter before.toList text.toList⟩]) ∧
      ∀ before after : String,
        (∀ c ∈ before.toList, Text.isBlank c = true) →
            (∀ c ∈ after.toList, Text.isBlank c = true) →
          ∀ (conversion : IntegerConversion) (s' : State) (w : Value),
            s'.store.text? w = some (before ++ text ++ after) →
              conversion.Makes host fuel scope w s' n) ∧
    ∀ (text : String) (m : Int), Lexer.IntegerText text.toList m →
      ∀ (conversion : IntegerConversion) (v : Value), s.store.text? v = some text →
        (∀ n, (tokenize text = .ok [⟨.int n, Span.whole text⟩] ↔
            conversion.Makes host fuel scope v s n) ∧
          (conversion.Makes host fuel scope v s n ↔ n.toInt = m)) ∧
        (tokenize text = .error ⟨.malformedNumber text, Span.whole text⟩ ↔
          ¬(-2 ^ 63 ≤ m ∧ m < 2 ^ 63)) ∧
        (conversion.Refuses host fuel scope v s text ↔ ¬(-2 ^ 63 ≤ m ∧ m < 2 ^ 63)) := by
  refine ⟨fun v kind n hv => ?_, fun text m hm conversion v hv => ?_⟩
  · have htext := integerText_toString n.toInt
    have hword : Number.toWord? n.toInt = some n := Number.toWord?_eq_some_iff.mpr rfl
    refine ⟨dispatch_toText_of_word host fuel scope hv, ?_, ?_, ?_⟩
    · rw [htext.tokenize_eq, hword]
    · intro before after hbefore hafter
      exact Lexer.tokenize_of_blanks hbefore (.int htext) hafter
    · intro before after hbefore hafter conversion s' w hw
      rw [conversion.makes_iff host fuel scope hw,
        htext.wordOfText?_eq hbefore hafter, hword]
  · have hread : Number.wordOfText? ("" ++ text ++ "") = Number.toWord? m :=
      hm.wordOfText?_eq (by simp) (by simp)
    rw [String.empty_append, String.append_empty] at hread
    have hlexed := hm.tokenize_eq
    have hmakes (n : Int64) : conversion.Makes host fuel scope v s n ↔
        Number.toWord? m = some n := by
      rw [conversion.makes_iff host fuel scope hv, hread]
    refine ⟨fun n => ⟨?_, ?_⟩, ?_, ?_⟩
    · rw [hmakes, hlexed]
      cases Number.toWord? m <;> simp
    · rw [hmakes, Number.toWord?_eq_some_iff]
    · rw [← Number.toWord?_eq_none_iff, hlexed]
      cases Number.toWord? m <;> simp
    · rw [← Number.toWord?_eq_none_iff, conversion.refuses_iff host fuel scope hv, hread]

/-- The least integer converts back from between blanks, and the text of one more than the
greatest one is refused by the lexer and the conversions alike. -/
theorem integer_texts_are_read_as_written_bounds :
    let s : State := { State.initial (.ofLines [] none) with
      store := { Store.empty with
        integers := ⟨#[Int64.minValue]⟩
        texts := ⟨#["\u3000-9223372036854775808\n", "9223372036854775808"]⟩ } }
    tokenize "-9223372036854775808" = .ok [⟨.int Int64.minValue, ⟨0, 20, 1, 1⟩⟩] ∧
    dispatch ⟨0, .empty, .asBound⟩ 3 globalScope .dispatcher "int" (.ready [.text 0]) s =
      Run.alloc (.number (.int Int64.minValue)) s ∧
    tokenize "9223372036854775808" =
      .error ⟨.malformedNumber "9223372036854775808", ⟨0, 19, 1, 1⟩⟩ ∧
    dispatch ⟨0, .empty, .asBound⟩ 3 globalScope .factory "long" (.ready [.text 1]) s =
      .failed ⟨.invalidConversion (.text "9223372036854775808") .long, none⟩ s := by
  intro s
  obtain ⟨hwritten, hread⟩ := integer_texts_are_read_as_written
    ⟨0, .empty, .asBound⟩ 0 globalScope s
  obtain ⟨-, hlexed, -, hconverts⟩ := hwritten (.long 0) .long Int64.minValue rfl
  have hdigits : Lexer.IntegerText "9223372036854775808".toList 9223372036854775808 :=
    integerText_toString 9223372036854775808
  obtain ⟨-, hmalformed, hrefused⟩ := hread "9223372036854775808" _ hdigits
    (.factory .long) (.text 1) rfl
  have hbefore : ∀ c ∈ "\u3000".toList, Text.isBlank c = true :=
    List.forall_mem_singleton.mpr rfl
  have hafter : ∀ c ∈ "\n".toList, Text.isBlank c = true :=
    List.forall_mem_singleton.mpr rfl
  refine ⟨hlexed, ?_, hmalformed.mpr (by decide), hrefused.mpr (by decide)⟩
  exact hconverts "\u3000" "\n" hbefore hafter .function s (.text 0) rfl

end HandleScript
