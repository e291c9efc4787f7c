import HandleScript.Proofs.Grammar

/-!
# Hidden names

Hidden names with different numbers are different, and they have a point in them. The
words of a source text have none.
-/

namespace HandleScript

namespace Grammar

theorem mem_words {params : List String} {p : String} (hp : p ∈ params) :
    .word p ∈ words params := by
  have hmore : ∀ {rest : List String}, p ∈ rest → .word p ∈ moreWords rest := by
    intro rest hrest
    induction rest with
    | nil => cases hrest
    | cons w ws ih =>
        rcases List.mem_cons.mp hrest with rfl | hrest
        · simp [moreWords]
        · simp [moreWords, ih hrest]
  cases params with
  | nil => cases hp
  | cons w ws =>
      rcases List.mem_cons.mp hp with rfl | hp
      · simp [words]
      · simp [words, hmore hp]

end Grammar

/-! ## Words have no point -/

theorem hiddenName_injective {i j : Nat} (h : hiddenName i = hiddenName j) : i = j := by
  have hdigits : (toString i).toList = (toString j).toList := by
    have hlist := congrArg String.toList h
    rw [hiddenName, hiddenName, String.toList_append, String.toList_append] at hlist
    exact List.append_cancel_left hlist
  have hread := congrArg (fun digits => Nat.ofDigitChars 10 digits 0) hdigits
  simpa [Nat.toString_eq_ofList_toDigits] using hread

theorem dot_mem_hiddenName (number : Nat) : '.' ∈ (hiddenName number).toList := by
  simp [hiddenName]

/-- If the token is a word, then there is no point in it. -/
def Token.Pointless (t : Token) : Prop :=
  ∀ w, t = .word w → '.' ∉ w.toList

namespace Lexer

theorem wordLexeme_pointless {run : List Char} {t : Token} (hrun : '.' ∉ run)
    (h : wordLexeme run = .token t) : t.Pointless := by
  rintro w rfl
  unfold wordLexeme at h
  split at h
  · split at h <;> cases h
  · split at h <;> cases h
    simpa using hrun

theorem cutWord_pointless {cs : List Char} {t : Token}
    (h : (cutWord cs).lexeme = .token t) : t.Pointless := by
  have hrun : '.' ∉ cs.takeWhile isWordChar := by
    intro hdot
    have hword : isWordChar '.' = true := List.all_eq_true.mp List.all_takeWhile _ hdot
    exact absurd hword (by decide)
  unfold cutWord at h
  simp only at h
  split at h
  · cases h
    nofun
  · exact wordLexeme_pointless hrun h

theorem cutLiteral_pointless {cs : List Char} {t : Token}
    (h : (cutLiteral cs).lexeme = .token t) : t.Pointless := by
  unfold cutLiteral at h
  split at h
  · simp only at h
    split at h <;> cases h
    nofun
  · cases h

theorem cut_pointless {c : Char} {cs : List Char} {t : Token}
    (h : (cut c cs).lexeme = .token t) : t.Pointless := by
  unfold cut at h
  split at h
  · cases h
  split at h
  · unfold cutSlash at h
    split at h <;> cases h
  split at h
  · exact cutLiteral_pointless h
  split at h
  · cases h
    nofun
  · exact cutWord_pointless h

theorem scan_pointless
    {index : LineIndex} {offset : Nat} {found tokens : List (Located Token)}
    {cs : List Char} (h : scan index offset found cs = .ok tokens)
    (hfound : ∀ t ∈ found, t.node.Pointless) : ∀ t ∈ tokens, t.node.Pointless := by
  fun_induction scan index offset found cs with
  | case1 offset found =>
      cases h
      simpa using hfound
  | case2 offset found c cs piece stop hgap ih => exact ih h hfound
  | case3 offset found c cs piece stop t htoken ih =>
      refine ih h fun t' ht' => ?_
      rcases List.mem_cons.mp ht' with rfl | hold
      · exact cut_pointless htoken
      · exact hfound t' hold
  | case4 => cases h

end Lexer

theorem tokenize_pointless {source : String} {tokens : List (Located Token)}
    (h : tokenize source = .ok tokens) : ∀ t ∈ tokens, t.node.Pointless :=
  Lexer.scan_pointless h nofun

end HandleScript
