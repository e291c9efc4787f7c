import HandleScript.Proofs.EditDistance
import HandleScript.Text.Suggestion

/-!
# Suggestions are the first of the nearest

The search for a name like a given one goes over the candidates once and keeps the best of
those within the limit. It keeps the first of the nearest that it has seen, because a
later one has to be strictly nearer to take its place. So the outcome is the first of all
that are nearest, and nothing when even these lie beyond the limit.
-/

namespace HandleScript.Text

variable {name c : String} {threshold : Nat} {seen candidates others : List String}
  {best : Option (String × Nat)}

/-- The text `c` is the first of the candidates that are nearest to the name. -/
def IsFirstNearest (name : String) (candidates : List String) (c : String) : Prop :=
  ∃ before after, candidates = before ++ c :: after ∧
    (∀ other ∈ before, distance name c < distance name other) ∧
    ∀ other ∈ after, distance name c ≤ distance name other

/-- Among the candidates as near as the first of the nearest, it is the first. -/
theorem isFirstNearest_iff :
    IsFirstNearest name candidates c ↔
      (candidates.filter (distance name · = distance name c)).head? = some c ∧
        ∀ other ∈ candidates, distance name c ≤ distance name other := by
  rw [List.head?_filter, List.find?_eq_some_iff_append]
  constructor
  · rintro ⟨before, after, rfl, hbefore, hafter⟩
    refine ⟨⟨by simp, before, after, rfl, fun other hother => ?_⟩, ?_⟩
    · simpa using (hbefore other hother).ne'
    · exact List.forall_mem_append.mpr
        ⟨fun other hother => (hbefore other hother).le,
          List.forall_mem_cons.mpr ⟨le_rfl, hafter⟩⟩
  · rintro ⟨⟨-, before, after, rfl, hbefore⟩, hleast⟩
    refine ⟨before, after, rfl, fun other hother => ?_, fun other hother =>
      hleast other (by simp [hother])⟩
    have hne : distance name other ≠ distance name c := by
      simpa using hbefore other hother
    exact (hleast other (by simp [hother])).lt_of_ne' hne

namespace IsFirstNearest

theorem mem (h : IsFirstNearest name candidates c) : c ∈ candidates := by
  obtain ⟨before, after, rfl, -, -⟩ := h
  simp

theorem le (h : IsFirstNearest name candidates c) :
    ∀ other ∈ candidates, distance name c ≤ distance name other :=
  (isFirstNearest_iff.mp h).2

theorem unique {c' : String} (h : IsFirstNearest name candidates c)
    (h' : IsFirstNearest name candidates c') : c = c' := by
  have hsame : distance name c = distance name c' :=
    le_antisymm (h.le c' h'.mem) (h'.le c h.mem)
  have hfirst := (isFirstNearest_iff.mp h).1
  rw [hsame, (isFirstNearest_iff.mp h').1] at hfirst
  exact (Option.some.inj hfirst).symm

/-- A further candidate that is not nearer comes after it. -/
theorem concat (h : IsFirstNearest name seen c) {next : String}
    (hnext : distance name c ≤ distance name next) :
    IsFirstNearest name (seen ++ [next]) c := by
  obtain ⟨before, after, rfl, hbefore, hafter⟩ := h
  refine ⟨before, after ++ [next], by simp, hbefore, ?_⟩
  exact List.forall_mem_append.mpr ⟨hafter, List.forall_mem_singleton.mpr hnext⟩

end IsFirstNearest

/-- A further candidate that is nearer than all before it comes first. -/
theorem isFirstNearest_concat_self
    (h : ∀ other ∈ seen, distance name c < distance name other) :
    IsFirstNearest name (seen ++ [c]) c :=
  ⟨seen, [], rfl, h, nofun⟩

/-! ## The search -/

/-- What is kept of the candidates that have been seen: the first of the nearest with its
distance, if it lies within the threshold. -/
def IsBest (name : String) (threshold : Nat) (seen : List String) :
    Option (String × Nat) → Prop
  | none => ∀ other ∈ seen, threshold < distance name other
  | some (c, d) => d = distance name c ∧ d ≤ threshold ∧ IsFirstNearest name seen c

theorem IsBest.closer (h : IsBest name threshold seen best) (next : String) :
    IsBest name threshold (seen ++ [next]) (closer name threshold best next) := by
  unfold Text.closer
  by_cases hnear : distance name next ≤ threshold
  · rw [if_pos hnear]
    cases best with
    | none =>
        exact ⟨rfl, hnear, isFirstNearest_concat_self fun other hother =>
          hnear.trans_lt (h other hother)⟩
    | some kept =>
        obtain ⟨b, least⟩ := kept
        obtain ⟨rfl, hwithin, hfirst⟩ := h
        by_cases hless : distance name next < distance name b
        · simp only [if_pos hless]
          exact ⟨rfl, hnear, isFirstNearest_concat_self fun other hother =>
            hless.trans_le (hfirst.le other hother)⟩
        · simp only [if_neg hless]
          exact ⟨rfl, hwithin, hfirst.concat (Nat.le_of_not_lt hless)⟩
  · have hfar : threshold < distance name next := Nat.lt_of_not_le hnear
    rw [if_neg hnear]
    cases best with
    | none => exact List.forall_mem_append.mpr ⟨h, List.forall_mem_singleton.mpr hfar⟩
    | some kept =>
        obtain ⟨b, least⟩ := kept
        obtain ⟨rfl, hwithin, hfirst⟩ := h
        exact ⟨rfl, hwithin, hfirst.concat (hwithin.trans hfar.le)⟩

theorem IsBest.foldl (h : IsBest name threshold seen best) (candidates : List String) :
    IsBest name threshold (seen ++ candidates)
      (candidates.foldl (Text.closer name threshold) best) := by
  induction candidates generalizing seen best with
  | nil => simpa using h
  | cons next rest ih => simpa using ih (h.closer next)

theorem isBest_candidates (name : String) (candidates : List String) (threshold : Nat) :
    IsBest name threshold candidates (candidates.foldl (closer name threshold) none) := by
  have hnone : IsBest name threshold [] none := nofun
  exact hnone.foldl candidates

theorem closest_eq_none_iff :
    closest name candidates threshold = none ↔ ∀ other ∈ candidates,
      threshold < distance name other := by
  have hbest := isBest_candidates name candidates threshold
  rw [closest, Option.map_eq_none_iff]
  cases hfold : candidates.foldl (closer name threshold) none with
  | none =>
      rw [hfold] at hbest
      exact iff_of_true rfl hbest
  | some kept =>
      rw [hfold] at hbest
      obtain ⟨b, least⟩ := kept
      obtain ⟨rfl, hwithin, hfirst⟩ := hbest
      exact iff_of_false (Option.some_ne_none _) fun hfar =>
        hwithin.not_gt (hfar _ hfirst.mem)

theorem closest_eq_some_iff :
    closest name candidates threshold = some c ↔ distance name c ≤ threshold ∧
      IsFirstNearest name candidates c := by
  have hbest := isBest_candidates name candidates threshold
  rw [closest]
  cases hfold : candidates.foldl (closer name threshold) none with
  | none =>
      rw [hfold] at hbest
      refine iff_of_false (Option.some_ne_none c).symm ?_
      rintro ⟨hwithin, hfirst⟩
      exact hwithin.not_gt (hbest c hfirst.mem)
  | some kept =>
      rw [hfold] at hbest
      obtain ⟨b, least⟩ := kept
      obtain ⟨rfl, hwithin, hfirst⟩ := hbest
      constructor
      · intro hkept
        obtain rfl : b = c := Option.some.inj hkept
        exact ⟨hwithin, hfirst⟩
      · rintro ⟨-, hc⟩
        exact congrArg some (hfirst.unique hc)

/-! ## The order of the candidates -/

theorem mem_iff_mem_of_filter_eq
    (h : ∀ d, others.filter (distance name · = d) =
      candidates.filter (distance name · = d))
    (other : String) : other ∈ others ↔ other ∈ candidates := by
  have hmem := congrArg (other ∈ ·) (h (distance name other))
  simpa using hmem

/-- Candidates that are equally near may not change places, and all others may. -/
theorem closest_congr
    (h : ∀ d, others.filter (distance name · = d) = candidates.filter
      (distance name · = d)) :
    closest name others threshold = closest name candidates threshold := by
  apply Option.ext
  intro c
  rw [closest_eq_some_iff, closest_eq_some_iff, isFirstNearest_iff, isFirstNearest_iff, h]
  simp only [mem_iff_mem_of_filter_eq h]

theorem map_distance_closest_of_perm (h : others.Perm candidates) :
    (closest name others threshold).map (distance name) =
      (closest name candidates threshold).map (distance name) := by
  cases hclosest : closest name candidates threshold with
  | none =>
      have hnone : closest name others threshold = none := by
        rw [closest_eq_none_iff] at hclosest ⊢
        exact fun other hother => hclosest other (h.mem_iff.mp hother)
      rw [hnone]
  | some c =>
      obtain ⟨hwithin, hfirst⟩ := closest_eq_some_iff.mp hclosest
      cases hother : closest name others threshold with
      | none =>
          exact absurd (closest_eq_none_iff.mp hother c (h.mem_iff.mpr hfirst.mem))
            hwithin.not_gt
      | some c' =>
          obtain ⟨-, hfirst'⟩ := closest_eq_some_iff.mp hother
          have hle := hfirst.le c' (h.mem_iff.mp hfirst'.mem)
          have hge := hfirst'.le c (h.mem_iff.mpr hfirst.mem)
          exact congrArg some (le_antisymm hge hle)

/-- The search finds nothing just when no candidate can be reached from the name within
the limit. Otherwise it finds the first of the candidates at the least distance. To put
the candidates in another order changes the outcome only if some that are equally near
change places, and it never changes how near the outcome is. -/
theorem closest_is_first_of_nearest (name : String) (candidates : List String)
    (threshold : Nat) :
    (closest name candidates threshold = none ↔
      ∀ c ∈ candidates, ∀ n, EditsIn n name.toList c.toList → threshold < n) ∧
    (∀ c, closest name candidates threshold = some c ↔
      distance name c ≤ threshold ∧ IsFirstNearest name candidates c) ∧
    (∀ others, (∀ d, others.filter (distance name · = d) = candidates.filter
        (distance name · = d)) →
      closest name others threshold = closest name candidates threshold) ∧
    (∀ others, others.Perm candidates →
      (closest name others threshold).map (distance name) =
        (closest name candidates threshold).map (distance name)) := by
  refine ⟨?_, fun c => closest_eq_some_iff, fun others => closest_congr,
    fun others => map_distance_closest_of_perm⟩
  rw [closest_eq_none_iff]
  refine forall₂_congr fun c _ => ⟨fun hfar n hedits => ?_, fun hfar => ?_⟩
  · exact hfar.trans_le ((isLeast_distance name c).2 hedits)
  · exact hfar _ (isLeast_distance name c).1

/-- From `bat` it is one edit to `cat`, `hat` and `bath` and two edits to `boot`, which
may stand anywhere. -/
theorem closest_is_first_of_nearest_ties :
    closest "bat" ["boot", "cat", "hat", "bath"] 1 = some "cat" ∧
    closest "bat" ["cat", "boot", "hat", "bath"] 1 = closest "bat"
      ["boot", "cat", "hat", "bath"] 1 ∧
    (closest "bat" ["bath", "hat", "cat", "boot"] 1).map (distance "bat") =
      (closest "bat" ["boot", "cat", "hat", "bath"] 1).map (distance "bat") := by
  obtain ⟨-, hfirst, hkept, hnear⟩ := closest_is_first_of_nearest "bat"
    ["boot", "cat", "hat", "bath"] 1
  refine ⟨(hfirst "cat").mpr
    ⟨by decide, ["boot"], ["hat", "bath"], rfl, by decide, by decide⟩,
    ?_, hnear _ (by decide)⟩
  refine hkept _ fun d => ?_
  have hcat : distance "bat" "cat" = 1 := by decide
  have hboot : distance "bat" "boot" = 2 := by decide
  by_cases hd : 1 = d
  · subst hd
    simp [hcat, hboot]
  · simp [List.filter_cons, hcat, hboot, hd]

end HandleScript.Text
