import HandleScript.Text.EditDistance
import Mathlib.Order.Bounds.Basic
import Mathlib.Order.MinMax

/-!
# Edit distance is the least number of edits

An edit inserts, deletes or replaces one character. Edits that are made one after the
other may undo one another, so there is no end of ways to turn one text into another. What
they come to is an alignment: the characters of both texts matched up in order, at a cost
for each that is not kept. An edit lowers no cost by more than one, so no sequence of
edits does better than every alignment, and an alignment is itself a sequence of edits.
The rows that the distance is computed from hold the least costs of alignments with the
beginnings of the second text.
-/

namespace HandleScript.Text

/-- One edit of a text, given by its characters. -/
inductive Edit : List Char → List Char → Prop
  | insert (before after : List Char) (c : Char) :
      Edit (before ++ after) (before ++ c :: after)
  | delete (before after : List Char) (c : Char) :
      Edit (before ++ c :: after) (before ++ after)
  | replace (before after : List Char) (c d : Char) :
      Edit (before ++ c :: after) (before ++ d :: after)

/-- So many edits, made one after the other, turn the first text into the second. -/
inductive EditsIn : Nat → List Char → List Char → Prop
  | none (cs : List Char) : EditsIn 0 cs cs
  | more {n : Nat} {as bs cs : List Char} (first : Edit as bs) (rest : EditsIn n bs cs) :
      EditsIn (n + 1) as cs

/-- The characters of the first text are kept, deleted or replaced in order, and others
inserted, which gives the second text; all but keeping a character costs one. -/
inductive Aligned : Nat → List Char → List Char → Prop
  | nil : Aligned 0 [] []
  | keep {n : Nat} {as bs : List Char} (c : Char) (rest : Aligned n as bs) :
      Aligned n (c :: as) (c :: bs)
  | insert {n : Nat} {as bs : List Char} (b : Char) (rest : Aligned n as bs) :
      Aligned (n + 1) as (b :: bs)
  | delete {n : Nat} {as bs : List Char} (a : Char) (rest : Aligned n as bs) :
      Aligned (n + 1) (a :: as) bs
  | replace {n : Nat} {as bs : List Char} (a b : Char) (rest : Aligned n as bs) :
      Aligned (n + 1) (a :: as) (b :: bs)

variable {n m : Nat} {a b c : Char} {as bs cs as' bs' : List Char}

/-! ## Alignments -/

namespace Aligned

theorem refl (cs : List Char) : Aligned 0 cs cs := by
  induction cs with
  | nil => exact .nil
  | cons c cs ih => exact .keep c ih

theorem append (h : Aligned n as bs) (h' : Aligned m as' bs') :
    Aligned (n + m) (as ++ as') (bs ++ bs') := by
  induction h with
  | nil => rwa [Nat.zero_add]
  | keep c _ ih => exact .keep c ih
  | insert b _ ih =>
      rw [Nat.add_right_comm]
      exact .insert b ih
  | delete a _ ih =>
      rw [Nat.add_right_comm]
      exact .delete a ih
  | replace a b _ ih =>
      rw [Nat.add_right_comm]
      exact .replace a b ih

/-- An alignment read from the end. -/
theorem reverse (h : Aligned n as bs) : Aligned n as.reverse bs.reverse := by
  induction h with
  | nil => exact .nil
  | keep c _ ih => simpa using ih.append (.keep c .nil)
  | insert b _ ih => simpa using ih.append (.insert b .nil)
  | delete a _ ih => simpa using ih.append (.delete a .nil)
  | replace a b _ ih => simpa using ih.append (.replace a b .nil)

theorem length_le (h : Aligned n as bs) :
    as.length ≤ bs.length + n ∧ bs.length ≤ as.length + n := by
  induction h with
  | nil => exact ⟨Nat.le_refl 0, Nat.le_refl 0⟩
  | keep | insert | delete | replace =>
      simp only [List.length_cons]
      omega

/-- Two texts can be aligned by replacing what stands at the same place and inserting or
deleting the rest. -/
theorem of_max (as bs : List Char) : Aligned (max as.length bs.length) as bs := by
  induction as generalizing bs with
  | nil =>
      induction bs with
      | nil => exact .nil
      | cons b bs ih => simpa using ih.insert b
  | cons a as ih =>
      cases bs with
      | nil => simpa using (ih []).delete a
      | cons b bs => simpa [Nat.succ_max_succ] using (ih bs).replace a b

/-- An alignment of a text that is put together from two parts is put together from
alignments of them. -/
theorem split (h : Aligned n (as ++ as') bs) :
    ∃ i j front back, bs = front ++ back ∧ i + j = n ∧ Aligned i as front ∧
      Aligned j as' back := by
  induction as generalizing n bs with
  | nil => exact ⟨0, n, [], bs, rfl, Nat.zero_add n, .nil, h⟩
  | cons a as ih =>
      generalize hall : a :: as ++ as' = all at h
      -- Characters may be inserted before the first one is met, so there is an induction
      -- over these.
      induction h with
      | nil => cases hall
      | insert b _ inner =>
          obtain ⟨i, j, front, back, rfl, rfl, hfront, hback⟩ := inner hall
          exact ⟨i + 1, j, b :: front, back, rfl, Nat.add_right_comm i 1 j,
            hfront.insert b, hback⟩
      | keep c rest =>
          obtain ⟨rfl, rfl⟩ := List.cons.inj hall
          obtain ⟨i, j, front, back, rfl, rfl, hfront, hback⟩ := ih rest
          exact ⟨i, j, a :: front, back, rfl, rfl, hfront.keep a, hback⟩
      | delete c rest =>
          obtain ⟨rfl, rfl⟩ := List.cons.inj hall
          obtain ⟨i, j, front, back, rfl, rfl, hfront, hback⟩ := ih rest
          exact ⟨i + 1, j, front, back, rfl, Nat.add_right_comm i 1 j,
            hfront.delete a, hback⟩
      | replace c d rest =>
          obtain ⟨rfl, rfl⟩ := List.cons.inj hall
          obtain ⟨i, j, front, back, rfl, rfl, hfront, hback⟩ := ih rest
          exact ⟨i + 1, j, d :: front, back, rfl, Nat.add_right_comm i 1 j,
            hfront.replace a d, hback⟩

/-- What becomes of the last characters. -/
theorem concat_cases (h : Aligned n (as ++ [a]) (bs ++ [b])) :
    (∃ i, Aligned i as (bs ++ [b]) ∧ n = i + 1) ∨
        (∃ i, Aligned i (as ++ [a]) bs ∧ n = i + 1) ∨
      ∃ i, Aligned i as bs ∧ i + (if a = b then 0 else 1) ≤ n := by
  have hback := h.reverse
  rw [List.reverse_concat, List.reverse_concat] at hback
  cases hback with
  | keep c rest => exact .inr (.inr ⟨n, by simpa using rest.reverse, by simp⟩)
  | insert _ rest => exact .inr (.inl ⟨_, by simpa using rest.reverse, rfl⟩)
  | delete _ rest => exact .inl ⟨_, by simpa using rest.reverse, rfl⟩
  | replace _ _ rest =>
      refine .inr (.inr ⟨_, by simpa using rest.reverse, ?_⟩)
      split <;> omega

end Aligned

/-! ## Edits and alignments -/

/-- An edit puts at most one character in place of at most one. -/
theorem Edit.exists_pieces (h : Edit as bs) :
    ∃ before old new after, as = before ++ (old ++ after) ∧
        bs = before ++ (new ++ after) ∧
      old.length ≤ 1 ∧ new.length ≤ 1 := by
  cases h with
  | insert before after c =>
      exact ⟨before, [], [c], after, rfl, rfl, Nat.zero_le 1, Nat.le_refl 1⟩
  | delete before after c =>
      exact ⟨before, [c], [], after, rfl, rfl, Nat.le_refl 1, Nat.zero_le 1⟩
  | replace before after c d =>
      exact ⟨before, [c], [d], after, rfl, rfl, Nat.le_refl 1, Nat.le_refl 1⟩

/-- An edit lowers the cost of an alignment by at most one. -/
theorem Edit.exists_aligned (h : Edit as bs) (haligned : Aligned n bs cs) :
    ∃ k ≤ n + 1, Aligned k as cs := by
  obtain ⟨before, old, new, after, rfl, rfl, hold, hnew⟩ := h.exists_pieces
  obtain ⟨i, _, front, _, rfl, rfl, hfront, hrest⟩ := haligned.split
  obtain ⟨j, k, middle, back, rfl, rfl, hmiddle, hback⟩ := hrest.split
  -- What the new piece is aligned with is no longer than its cost allows, so the old
  -- piece costs one more at most.
  have hlength := hmiddle.length_le
  refine ⟨_, ?_, hfront.append ((Aligned.of_max old middle).append hback)⟩
  omega

theorem EditsIn.exists_aligned (h : EditsIn n as bs) : ∃ k ≤ n, Aligned k as bs := by
  induction h with
  | none cs => exact ⟨0, Nat.le_refl 0, .refl cs⟩
  | more first _ ih =>
      obtain ⟨i, hi, haligned⟩ := ih
      obtain ⟨k, hk, hall⟩ := first.exists_aligned haligned
      exact ⟨k, by omega, hall⟩

theorem Edit.cons (c : Char) (h : Edit as bs) : Edit (c :: as) (c :: bs) := by
  cases h with
  | insert before after b => exact .insert (c :: before) after b
  | delete before after a => exact .delete (c :: before) after a
  | replace before after a b => exact .replace (c :: before) after a b

theorem EditsIn.cons (c : Char) (h : EditsIn n as bs) :
    EditsIn n (c :: as) (c :: bs) := by
  induction h with
  | none cs => exact .none (c :: cs)
  | more first _ ih => exact .more (first.cons c) ih

theorem Aligned.editsIn (h : Aligned n as bs) : EditsIn n as bs := by
  induction h with
  | nil => exact .none []
  | keep c _ ih => exact ih.cons c
  | @insert _ as _ b _ ih => exact .more (.insert [] as b) (ih.cons b)
  | @delete _ as _ a _ ih => exact .more (.delete [] as a) ih
  | @replace _ as _ a b _ ih => exact .more (.replace [] as a b) (ih.cons b)

/-! ## Laws of edits -/

theorem Edit.symm (h : Edit as bs) : Edit bs as := by
  cases h with
  | insert before after c => exact .delete before after c
  | delete before after c => exact .insert before after c
  | replace before after c d => exact .replace before after d c

namespace EditsIn

theorem trans (h : EditsIn n as bs) (h' : EditsIn m bs cs) : EditsIn (n + m) as cs := by
  induction h with
  | none => rwa [Nat.zero_add]
  | more first _ ih =>
      rw [Nat.add_right_comm]
      exact .more first (ih h')

theorem symm (h : EditsIn n as bs) : EditsIn n bs as := by
  induction h with
  | none cs => exact .none cs
  | more first _ ih => exact ih.trans (.more first.symm (.none _))

theorem zero_iff : EditsIn 0 as bs ↔ as = bs := by
  constructor
  · rintro ⟨⟩
    rfl
  · rintro rfl
    exact .none as

end EditsIn

/-! ## Rows -/

/-- The number is the least cost of an alignment. -/
def LeastCost (as bs : List Char) (d : Nat) : Prop :=
  IsLeast {n | Aligned n as bs} d

theorem leastCost_nil_left (bs : List Char) : LeastCost [] bs bs.length := by
  refine ⟨by simpa using Aligned.of_max [] bs, fun n h => ?_⟩
  simpa using h.length_le.2

theorem leastCost_nil_right (as : List Char) : LeastCost as [] as.length := by
  refine ⟨by simpa using Aligned.of_max as [], fun n h => ?_⟩
  simpa using h.length_le.1

/-- The least cost for two texts follows from those without the last character of one of
them or of both. -/
theorem LeastCost.concat
    {above left diagonal : Nat} (habove : LeastCost as (bs ++ [b]) above)
    (hleft : LeastCost (as ++ [a]) bs left) (hdiagonal : LeastCost as bs diagonal) :
    LeastCost (as ++ [a]) (bs ++ [b])
      (min (min (above + 1) (left + 1)) (diagonal + if a = b then 0 else 1)) := by
  constructor
  · have hdelete : Aligned (above + 1) (as ++ [a]) (bs ++ [b]) := by
      simpa using habove.1.append (.delete a .nil)
    have hinsert : Aligned (left + 1) (as ++ [a]) (bs ++ [b]) := by
      simpa using hleft.1.append (.insert b .nil)
    have hboth : Aligned (diagonal + if a = b then 0 else 1) (as ++ [a]) (bs ++ [b]) := by
      split
      next heq =>
        subst heq
        exact hdiagonal.1.append (.keep a .nil)
      next => exact hdiagonal.1.append (.replace a b .nil)
    change Aligned _ _ _
    rcases min_choice (min (above + 1) (left + 1))
      (diagonal + if a = b then 0 else 1) with hmin | hmin
    · rw [hmin]
      rcases min_choice (above + 1) (left + 1) with hinner | hinner <;>
        rw [hinner] <;> assumption
    · rwa [hmin]
  · intro n h
    rcases Aligned.concat_cases h with ⟨i, hi, rfl⟩ | ⟨i, hi, rfl⟩ | ⟨i, hi, hle⟩
    · have := habove.2 hi
      omega
    · have := hleft.2 hi
      omega
    · have := hdiagonal.2 hi
      omega

/-- The first `count` entries of a row are the least costs of `as` with the beginnings of
`bs`. -/
structure Tracks (as bs : List Char) (count : Nat) (row : Array Nat) : Prop where
  size : row.size = bs.length + 1
  least : ∀ j < count, LeastCost as (bs.take j) (row.getD j 0)

namespace Tracks

variable {above row : Array Nat} {i j : Nat}

/-- Before a character of the first text has been read, the row counts up. -/
theorem start (bs : List Char) :
    Tracks [] bs (bs.length + 1) (Array.range (bs.length + 1)) := by
  refine ⟨Array.size_range, fun j hj => ?_⟩
  have hentry : (Array.range (bs.length + 1)).getD j 0 = (bs.take j).length := by
    rw [List.length_take, Nat.min_eq_left (Nat.le_of_lt_succ hj)]
    simp [Array.getD_eq_getD_getElem?, hj]
  rw [hentry]
  exact leastCost_nil_left _

/-- The first entry of a row counts the characters of the first text. -/
theorem first (hsize : row.size = bs.length + 1) (hi : i = as.length) :
    Tracks as bs 1 (row.setIfInBounds 0 i) := by
  refine ⟨by simpa using hsize, fun j hj => ?_⟩
  obtain rfl : j = 0 := Nat.lt_one_iff.mp hj
  have hentry : (row.setIfInBounds 0 i).getD 0 0 = as.length := by
    simp [Array.getD_eq_getD_getElem?, hsize, hi]
  rw [hentry]
  exact leastCost_nil_right as

/-- From the row above and the entry on the left, the next entry is computed as the least
cost. -/
theorem writeEntry
    (h : Tracks (as ++ [a]) bs (j + 1) row) (habove : Tracks as bs (bs.length + 1) above)
    (hj : j < bs.length) :
    Tracks (as ++ [a]) bs (j + 1 + 1) (Text.writeEntry a bs.toArray above row j) := by
  have htake : bs.take (j + 1) = bs.take j ++ [bs[j]] :=
    (List.take_append_getElem hj).symm
  have hcost : (if bs.toArray[j]? = some a then 0 else 1) = if a = bs[j] then
      0 else 1 := by
    simp [List.getElem?_eq_getElem hj, eq_comm]
  refine ⟨by simpa [Text.writeEntry] using h.size, fun k hk => ?_⟩
  by_cases hnew : k = j + 1
  · subst hnew
    have hentry : (Text.writeEntry a bs.toArray above row j).getD (j + 1) 0 =
        min (min (above.getD (j + 1) 0 + 1) (row.getD j 0 + 1))
          (above.getD j 0 + if a = bs[j] then 0 else 1) := by
      rw [Text.writeEntry, hcost]
      simp [Array.getD_eq_getD_getElem?, h.size, hj]
    rw [hentry, htake]
    have hup := habove.least (j + 1) (by omega)
    rw [htake] at hup
    exact hup.concat (h.least j (Nat.lt_succ_self j)) (habove.least j (by omega))
  · have hentry : (Text.writeEntry a bs.toArray above row j).getD k 0 = row.getD k 0 := by
      simp [Text.writeEntry, Array.getD_eq_getD_getElem?, Ne.symm hnew]
    rw [hentry]
    exact h.least k (by omega)

/-- A whole row is written over whatever stood there. -/
theorem writeRow
    (habove : Tracks as bs (bs.length + 1) above) (hsize : row.size = bs.length + 1) :
    Tracks (as ++ [a]) bs (bs.length + 1)
      (Text.writeRow a (as.length + 1) bs.toArray above row) := by
  have hentries : ∀ count ≤ bs.length, Tracks (as ++ [a]) bs (count + 1)
      ((List.range count).foldl (Text.writeEntry a bs.toArray above)
        (row.setIfInBounds 0 (as.length + 1))) := by
    intro count hcount
    induction count with
    | zero => exact .first hsize (by simp)
    | succ count ih =>
        rw [List.range_succ, List.foldl_append]
        exact (ih (by omega)).writeEntry habove (by omega)
  simpa [Text.writeRow] using hentries bs.length (Nat.le_refl _)

end Tracks

/-- The last row tracks the characters that have been read, and the spare one is as
long. -/
structure Rows.Tracks (as bs : List Char) (rows : Rows) : Prop where
  last : Text.Tracks as bs (bs.length + 1) rows.last
  spare : rows.spare.size = bs.length + 1

theorem Rows.Tracks.next {rows : Rows} (h : rows.Tracks as bs) (a : Char) :
    (Rows.next bs.toArray rows (a, as.length + 1)).Tracks (as ++ [a]) bs :=
  ⟨h.last.writeRow h.spare, h.last.size⟩

theorem Rows.Tracks.foldl {rows : Rows} (h : rows.Tracks as bs) (cs : List Char) :
    ((cs.zipIdx (as.length + 1)).foldl (Rows.next bs.toArray) rows).Tracks
      (as ++ cs) bs := by
  induction cs generalizing as rows with
  | nil => rwa [List.append_nil]
  | cons c cs ih =>
      have hnext := ih (h.next c)
      rwa [List.append_assoc, List.length_append] at hnext

theorem leastCost_charDistance (as bs : List Char) :
    LeastCost as bs (charDistance as bs) := by
  rw [charDistance]
  split
  next has =>
    rw [List.isEmpty_iff.mp has]
    exact leastCost_nil_left bs
  next =>
    split
    next hbs =>
      rw [List.isEmpty_iff.mp hbs]
      exact leastCost_nil_right as
    next =>
      have hstart : Rows.Tracks [] bs ⟨Array.range (bs.length + 1),
          Array.replicate (bs.length + 1) 0⟩ :=
        ⟨.start bs, Array.size_replicate⟩
      have hleast := (hstart.foldl as).last.least bs.length (Nat.lt_succ_self _)
      rwa [List.take_length, List.nil_append] at hleast

/-! ## The distance -/

/-- The edit distance is the least number of edits. -/
theorem isLeast_distance (a b : String) :
    IsLeast {n | EditsIn n a.toList b.toList} (distance a b) := by
  obtain ⟨haligned, hleast⟩ := leastCost_charDistance a.toList b.toList
  refine ⟨haligned.editsIn, fun n h => ?_⟩
  obtain ⟨k, hk, hk'⟩ := EditsIn.exists_aligned h
  exact Nat.le_trans (hleast hk') hk

/-- The edit distance of two texts is the least number of insertions, deletions and
replacements of a character that turn one into the other. It is zero for equal texts
alone, does not depend on the order of the two, is no longer than a way over a third text,
and lies between the difference and the maximum of the numbers of characters. -/
theorem distance_is_least_number_of_edits (a b : String) :
    IsLeast {n | EditsIn n a.toList b.toList} (distance a b) ∧
    (distance a b = 0 ↔ a = b) ∧
    distance a b = distance b a ∧
    (∀ c, distance a c ≤ distance a b + distance b c) ∧
    max a.length b.length - min a.length b.length ≤ distance a b ∧
    distance a b ≤ max a.length b.length := by
  have hab := isLeast_distance a b
  have haligned : LeastCost a.toList b.toList (distance a b) :=
    leastCost_charDistance a.toList b.toList
  refine ⟨hab, ⟨fun hzero => ?_, ?_⟩, ?_, fun c => ?_, ?_, ?_⟩
  · rw [hzero] at hab
    exact String.toList_inj.mp (EditsIn.zero_iff.mp hab.1)
  · rintro rfl
    exact Nat.le_zero.mp (hab.2 (EditsIn.none _))
  · exact Nat.le_antisymm (hab.2 (isLeast_distance b a).1.symm)
      ((isLeast_distance b a).2 hab.1.symm)
  · exact (isLeast_distance a c).2 (hab.1.trans (isLeast_distance b c).1)
  · have hlength := haligned.1.length_le
    simp only [String.length_toList] at hlength
    omega
  · have hmost := haligned.2 (Aligned.of_max a.toList b.toList)
    rwa [String.length_toList, String.length_toList] at hmost

end HandleScript.Text
