import HandleScript.Token.Lexer
import Mathlib.Data.List.Induction

/-!
# Lines and columns

The line index keeps the offsets at which lines start and finds the line of an offset by
bisection. At the end of a prefix of the text this gives the number of newlines in the
prefix and the number of bytes after the last of them, whatever follows the prefix.
-/

namespace HandleScript

namespace Lexer

/-! ## Sizes in bytes -/

theorem foldl_utf8Size (n : Nat) (cs : List Char) :
    cs.foldl (fun size c => size + c.utf8Size) n = n + byteSize cs := by
  rw [byteSize]
  induction cs generalizing n with
  | nil => rfl
  | cons c cs ih =>
      rw [List.foldl_cons, List.foldl_cons, ih (n + c.utf8Size), ih (0 + c.utf8Size)]
      omega

@[simp] theorem byteSize_nil : byteSize [] = 0 := rfl

@[simp] theorem byteSize_cons (c : Char) (cs : List Char) :
    byteSize (c :: cs) = c.utf8Size + byteSize cs := by
  rw [byteSize, List.foldl_cons, foldl_utf8Size, Nat.zero_add]

@[simp] theorem byteSize_append (cs ds : List Char) :
    byteSize (cs ++ ds) = byteSize cs + byteSize ds := by
  rw [byteSize, List.foldl_append, foldl_utf8Size _ ds]
  rfl

theorem byteSize_pos {cs : List Char} (h : cs ≠ []) : 0 < byteSize cs := by
  obtain ⟨c, rest, rfl⟩ := List.exists_cons_of_ne_nil h
  have hc := c.utf8Size_pos
  rw [byteSize_cons]
  omega

theorem byteSize_toList (s : String) : byteSize s.toList = s.utf8ByteSize := by
  have hlist : ∀ cs : List Char, byteSize cs = (String.ofList cs).utf8ByteSize := by
    intro cs
    induction cs with
    | nil => rfl
    | cons c cs ih =>
        have hcons : String.ofList (c :: cs) =
            String.singleton c ++ String.ofList cs := by
          apply String.toList_injective
          simp
        rw [byteSize_cons, hcons, String.utf8ByteSize_append,
          String.utf8ByteSize_singleton, ih]
  rw [hlist, String.ofList_toList]

/-- The part of a text after its last newline. -/
def lastLine (cs : List Char) : List Char :=
  (cs.reverse.takeWhile (· ≠ '\n')).reverse

theorem lastLine_concat (cs : List Char) (c : Char) :
    lastLine (cs ++ [c]) = if c = '\n' then [] else lastLine cs ++ [c] := by
  by_cases h : c = '\n'
  · simp [lastLine, h]
  · simp [lastLine, h]

theorem lastLine_append_newline (cs ds : List Char) :
    lastLine (cs ++ '\n' :: ds) = lastLine ds := by
  induction ds using List.reverseRecOn with
  | nil =>
      rw [lastLine_concat, if_pos rfl, lastLine, List.reverse_nil,
        List.takeWhile_nil, List.reverse_nil]
  | append_singleton ds d ih =>
      have happend : cs ++ '\n' :: (ds ++ [d]) = (cs ++ '\n' :: ds) ++ [d] := by simp
      rw [happend, lastLine_concat, lastLine_concat, ih]

end Lexer

namespace LineIndex

open Lexer

/-! ## The starts of lines -/

theorem getD_push (starts : Array Nat) (start i : Nat) :
    (starts.push start).getD i 0 = if i = starts.size then
      start else starts.getD i 0 := by
  simp only [Array.getD_eq_getD_getElem?, Array.getElem?_push]
  split <;> rfl

theorem addStarts_append (starts : Array Nat) (offset : Nat) (cs ds : List Char) :
    addStarts starts offset (cs ++ ds) = addStarts (addStarts starts offset cs)
      (offset + byteSize cs) ds := by
  induction cs generalizing starts offset with
  | nil => rfl
  | cons c cs ih =>
      rw [List.cons_append, addStarts, addStarts, ih, byteSize_cons, Nat.add_assoc]

theorem addStarts_concat (starts : Array Nat) (offset : Nat) (cs : List Char) (c : Char) :
    addStarts starts offset (cs ++ [c]) =
      if c = '\n' then (addStarts starts offset cs).push (offset + byteSize (cs ++ [c]))
      else addStarts starts offset cs := by
  rw [addStarts_append, addStarts, addStarts, byteSize_append, byteSize_cons,
    byteSize_nil, Nat.add_zero, Nat.add_assoc]

/-- The starts of the lines of a text: one for each newline and one more, the last one
before its last line, and all others before that one. -/
structure StartsOf (starts : Array Nat) (cs : List Char) : Prop where
  size : starts.size = cs.count '\n' + 1
  lt : ∀ i, i < cs.count '\n' → starts.getD i 0 < starts.getD (cs.count '\n') 0
  last : starts.getD (cs.count '\n') 0 + byteSize (lastLine cs) = byteSize cs

theorem startsOf_addStarts (cs : List Char) : StartsOf (addStarts #[0] 0 cs) cs := by
  induction cs using List.reverseRecOn with
  | nil =>
      exact ⟨rfl, fun i hi => absurd hi (Nat.not_lt_zero i), rfl⟩
  | append_singleton cs c ih =>
      rw [addStarts_concat, Nat.zero_add]
      by_cases hc : c = '\n'
      · have hcount : (cs ++ [c]).count '\n' = cs.count '\n' + 1 := by simp [hc]
        rw [if_pos hc]
        have hnew : ((addStarts #[0] 0 cs).push (byteSize (cs ++ [c]))).getD
            (cs.count '\n' + 1) 0 =
            byteSize (cs ++ [c]) := by
          rw [getD_push, if_pos ih.size.symm]
        refine ⟨by rw [Array.size_push, ih.size, hcount], fun i hi => ?_, ?_⟩
        · rw [hcount] at hi
          have hsize := ih.size
          have hlast := ih.last
          have hpos := c.utf8Size_pos
          have hle : (addStarts #[0] 0 cs).getD i 0 ≤
              (addStarts #[0] 0 cs).getD (cs.count '\n') 0 := by
            rcases Nat.lt_or_eq_of_le (Nat.le_of_lt_succ hi) with hlt | rfl
            · exact Nat.le_of_lt (ih.lt i hlt)
            · exact Nat.le_refl _
          rw [hcount, hnew, getD_push, if_neg (by omega), byteSize_append, byteSize_cons]
          omega
        · rw [hcount, hnew, lastLine_concat, if_pos hc, byteSize_nil, Nat.add_zero]
      · have hcount : (cs ++ [c]).count '\n' = cs.count '\n' := by simp [hc]
        rw [if_neg hc]
        refine ⟨by rw [ih.size, hcount], fun i hi => ?_, ?_⟩
        · rw [hcount] at hi ⊢
          exact ih.lt i hi
        · have hlast := ih.last
          rw [hcount, lastLine_concat, if_neg hc, byteSize_append, byteSize_append]
          omega

/-- What follows an offset adds starts beyond it, after those that are there. -/
structure StartsAfter (starts : Array Nat) (offset : Nat) (starts' : Array Nat) :
    Prop where
  size_le : starts.size ≤ starts'.size
  kept : ∀ i, i < starts.size → starts'.getD i 0 = starts.getD i 0
  added : ∀ i, starts.size ≤ i → i < starts'.size → offset < starts'.getD i 0

theorem startsAfter_addStarts (starts : Array Nat) (offset : Nat) (cs : List Char) :
    StartsAfter starts offset (addStarts starts offset cs) := by
  induction cs using List.reverseRecOn with
  | nil =>
      exact ⟨Nat.le_refl _, fun _ _ => rfl, fun i hge hlt =>
        absurd hlt (Nat.not_lt.mpr hge)⟩
  | append_singleton cs c ih =>
      rw [addStarts_concat]
      by_cases hc : c = '\n'
      · have hpos : 0 < byteSize (cs ++ [c]) := byteSize_pos (by simp)
        have hsize := ih.size_le
        rw [if_pos hc]
        refine ⟨by rw [Array.size_push]; omega, fun i hi => ?_, fun i hge hlt => ?_⟩
        · rw [getD_push, if_neg (by omega), ih.kept i hi]
        · rw [Array.size_push] at hlt
          rw [getD_push]
          by_cases hnew : i = (addStarts starts offset cs).size
          · rw [if_pos hnew]
            omega
          · rw [if_neg hnew]
            exact ih.added i hge (by omega)
      · rw [if_neg hc]
        exact ih

/-! ## Bisection -/

/-- The entries of an array before the given one are smaller, those after it lie beyond an
offset, and it does not. -/
structure LastUpTo (starts : Array Nat) (offset line start : Nat) : Prop where
  lt : ∀ i, i < line → starts.getD i 0 < start
  entry : starts.getD line 0 = start
  le : start ≤ offset
  beyond : ∀ i, line < i → i < starts.size → offset < starts.getD i 0

/-- Bisection finds the last entry up to the offset, if that is the offset, or else the
place right after it. -/
theorem LastUpTo.search_eq {starts : Array Nat} {offset line start : Nat}
    (h : LastUpTo starts offset line start) {low high : Nat} (hlow : low ≤ line + 1)
    (hequal : start = offset → low ≤ line) (hhigh : line + 1 ≤ high)
    (hsize : high ≤ starts.size) :
    search starts offset low high = if start = offset then .found line else
      .absent (line + 1) := by
  -- Where the middle entry stands tells on which side of the line the middle is.
  have hplace : ∀ middle, middle < starts.size →
      middle < line ∧ starts.getD middle 0 < start ∨ middle = line ∧
          starts.getD middle 0 = start ∨
        line < middle ∧ offset < starts.getD middle 0 := by
    intro middle hmiddle
    rcases Nat.lt_trichotomy middle line with hlt | rfl | hgt
    · exact .inl ⟨hlt, h.lt middle hlt⟩
    · exact .inr (.inl ⟨rfl, h.entry⟩)
    · exact .inr (.inr ⟨hgt, h.beyond middle hgt hmiddle⟩)
  have hle := h.le
  fun_induction search starts offset low high with
  | case1 low high hlt middle entry hentry =>
      have hmiddle := hplace middle (by omega)
      obtain rfl : middle = line := by omega
      rw [if_pos (by omega)]
  | case2 low high hlt middle entry hne hless ih =>
      have hmiddle := hplace middle (by omega)
      exact ih (by omega) (by omega) hhigh hsize
  | case3 low high hlt middle entry hne hless ih =>
      have hmiddle := hplace middle (by omega)
      exact ih hlow hequal (by omega) (by omega)
  | case4 low high hge =>
      rw [if_neg (by omega)]
      exact congrArg Place.absent (by omega)

/-- The search for the line of an offset finds the line with this number, counted from
zero, which starts at `start`: that very entry, or the place after it. -/
structure FindsLine (index : LineIndex) (offset line start : Nat) : Prop where
  found : search index.starts offset 0 index.starts.size = .found line ∨
    search index.starts offset 0 index.starts.size = .absent (line + 1)
  entry : index.starts[line]? = some start
  le : start ≤ offset

theorem FindsLine.position {index : LineIndex} {offset line start : Nat}
    (h : FindsLine index offset line start) :
    index.position offset = (UInt32.ofNat line + 1,
      UInt32.ofNat (offset - start) + 1) := by
  have hstart : index.starts.getD line 0 = start := by
    rw [Array.getD_eq_getD_getElem?, h.entry, Option.getD_some]
  rw [LineIndex.position]
  rcases h.found with hfound | hfound
  · simp only [hfound, hstart]
  · simp only [hfound, Nat.add_sub_cancel, hstart]

/-- Before an offset are the lines of the text before it, when what follows adds only
starts beyond it. -/
theorem findsLine_of_startsAfter {index : LineIndex} {before : List Char} {offset : Nat}
    (hafter : StartsAfter (addStarts #[0] 0 before) offset index.starts)
    (hle : byteSize before ≤ offset) :
    FindsLine index offset (before.count '\n')
      (byteSize before - byteSize (lastLine before)) := by
  have hbefore := startsOf_addStarts before
  have hline : before.count '\n' < (addStarts #[0] 0 before).size :=
    hbefore.size ▸ Nat.lt_succ_self _
  have hsize := Nat.lt_of_lt_of_le hline hafter.size_le
  have hentry : index.starts[before.count '\n']? =
      some (index.starts.getD (before.count '\n') 0) := by
    rw [Array.getD_eq_getD_getElem?, Array.getElem?_eq_getElem hsize, Option.getD_some]
  have hlast : index.starts.getD (before.count '\n') 0 + byteSize
      (lastLine before) = byteSize before := by
    rw [hafter.kept _ hline]
    exact hbefore.last
  have hstart : index.starts.getD (before.count '\n') 0 = byteSize before - byteSize
    (lastLine before) := by omega
  have hupTo : LastUpTo index.starts offset (before.count '\n')
      (byteSize before - byteSize (lastLine before)) := by
    refine ⟨fun i hi => ?_, hstart, by omega, fun i hi hlt => hafter.added i ?_ hlt⟩
    · have hless := hbefore.lt i hi
      rw [hafter.kept _ hline] at hstart
      rw [hafter.kept i (Nat.lt_trans hi hline)]
      omega
    · rw [hbefore.size]
      exact hi
  refine ⟨?_, by rw [hentry, hstart], by omega⟩
  have hsearch := hupTo.search_eq (Nat.zero_le _) (fun _ => Nat.zero_le _) hsize
    (Nat.le_refl _)
  by_cases hexact : byteSize before - byteSize (lastLine before) = offset
  · exact .inl (hsearch.trans (if_pos hexact))
  · exact .inr (hsearch.trans (if_neg hexact))

theorem starts_of_append {source : String} {before after : List Char}
    (h : source.toList = before ++ after) :
    (ofSource source).starts = addStarts (addStarts #[0] 0 before)
      (byteSize before) after := by
  rw [ofSource, h, addStarts_append, Nat.zero_add]

theorem byteSize_lastLine_le (cs : List Char) : byteSize (lastLine cs) ≤ byteSize cs := by
  have hlast := (startsOf_addStarts cs).last
  omega

/-- The position of the end of a prefix is a matter of the prefix alone. -/
theorem position_of_append {source : String} {before after : List Char}
    (h : source.toList = before ++ after) :
    (ofSource source).position (byteSize before) =
      (UInt32.ofNat (before.count '\n') + 1,
        UInt32.ofNat (byteSize (lastLine before)) + 1) := by
  have hafter := startsAfter_addStarts (addStarts #[0] 0 before) (byteSize before) after
  rw [← starts_of_append h] at hafter
  rw [(findsLine_of_startsAfter hafter (Nat.le_refl _)).position,
    Nat.sub_sub_self (byteSize_lastLine_le before)]

end LineIndex

end HandleScript
