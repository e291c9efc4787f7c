import HandleScript.Number.Reader
import HandleScript.Proofs.Number.Doubles

/-!
# Reading decimals

The double that digits and a power of ten are read as is the nearest one to
their exact value. Powers of ten out of the range of doubles are not computed,
and of very many digits only the first ones are: the points halfway between two
doubles have fewer digits, so those left out cannot carry the number past one.
-/

namespace HandleScript

open Binary64

/-! ## Fractions -/

namespace Binary64

theorem assemble_eq (negative : Bool) (m : Nat) (e : Int) :
    assemble negative m e = ofRung negative
      (min ((e - leastExponent).toNat * hidden + m) top) :=
  rfl

theorem isNearest_zero {t : ℚ} (ht : t ≤ halfway 0) : IsNearest t 0 := by
  rw [isNearest_iff]
  exact ⟨Nat.zero_le _, nofun, fun _ => ⟨ht, fun _ => rfl⟩⟩

theorem isNearest_top {t : ℚ} (ht : 2 ^ 1024 ≤ t) : IsNearest t top := by
  rw [← rung_top] at ht
  rw [isNearest_iff]
  refine ⟨le_rfl, ?_, fun h => absurd h (lt_irrefl _)⟩
  intro a ha
  have hlt : rung a < rung (a + 1) := rung_strictMono (Nat.lt_succ_self a)
  rw [halfway]
  rw [ha] at ht
  exact ⟨by linarith, fun _ => by decide⟩

theorem halfway_zero : halfway 0 = 2 ^ (-1075 : Int) := by
  have hone : rung 1 = 2 ^ leastExponent := by
    rw [rung, if_pos (by decide)]
    simp
  rw [halfway, rung_zero, zero_add, zero_add, hone, leastExponent,
    div_eq_mul_inv, ← zpow_sub_one₀ two_ne_zero]
  rfl

theorem nearest_roundsTo (negative : Bool) (num : Nat) {den : Nat} (hden : 0 < den) :
    RoundsTo negative (num / den) (nearest negative num den) := by
  rcases Nat.eq_zero_or_pos num with rfl | hnum
  · have hzero : nearest negative 0 den = ofRung negative 0 := rfl
    rw [hzero, Nat.cast_zero, zero_div]
    have hhalf : (0 : ℚ) ≤ halfway 0 := by
      rw [halfway_zero]
      positivity
    exact (isNearest_zero hhalf).roundsTo le_rfl negative
  · have hcomputed : (num = 0 || den = 0) = false := by
      simp [hnum.ne', hden.ne']
    rw [nearest, hcomputed, if_neg Bool.false_ne_true, assemble_eq]
    exact (rounded_isNearest hnum hden).roundsTo (by positivity) negative

theorem two_pow_le_ten_pow {m n : Nat} (h : Nat.pow 2 m ≤ Nat.pow 10 n) :
    (2 : ℚ) ^ m ≤ 10 ^ n := by
  exact_mod_cast h

theorem halfway_eq {j m : Nat} (hm : m < 2 * hidden) (hnormal : hidden ≤ m ∨ j = 0) :
    halfway (j * hidden + m) = (2 * m + 1 : Nat) * 2 ^ ((j : Int) - 1075) := by
  have hexponent : leastExponent + (j : Int) = (j : Int) - 1075 + 1 := by
    rw [leastExponent]
    omega
  rw [halfway, Nat.add_assoc, rung_add hm.le hnormal, rung_add hm
    (hnormal.imp_left Nat.le_succ_of_le), hexponent, zpow_add_one₀ two_ne_zero]
  push_cast
  ring

/-- The power of ten taken out of a point halfway between two doubles. -/
theorem halfway_eq_mul {j m : Nat} (hm : m < 2 * hidden) (hnormal : hidden ≤ m ∨ j = 0)
    (c : Nat) :
    halfway (j * hidden + m) =
      (2 * m + 1 : Nat) * 5 ^ c * 2 ^ ((j : Int) + c - 1075) * 10 ^ (-(c : Int)) := by
  have hten : (10 : ℚ) ^ (-(c : Int)) = 2 ^ (-(c : Int)) * (5 ^ c)⁻¹ := by
    rw [show (10 : ℚ) = 2 * 5 by norm_num, mul_zpow, zpow_neg 5, zpow_natCast]
  have hsplit : (j : Int) - 1075 = j + c - 1075 + -(c : Int) := by ring
  rw [halfway_eq hm hnormal, hten, hsplit, zpow_add₀ two_ne_zero]
  field_simp

theorem halfway_le_rung_top {b : Nat} (hb : b < top) : halfway b ≤ rung top := by
  have hle : rung b ≤ rung (b + 1) := rung_strictMono.monotone (Nat.le_succ b)
  have htop : rung (b + 1) ≤ rung top := rung_strictMono.monotone hb
  rw [halfway]
  linarith

/-- The least number with so many digits that further ones do not matter. -/
def ample : Nat :=
  Nat.pow 10 (Number.ampleDigits - 1)

theorem cast_ample : (ample : ℚ) = 10 ^ (Number.ampleDigits - 1) := by
  unfold ample
  generalize Number.ampleDigits - 1 = d
  rw [Nat.pow_eq, Nat.cast_pow, Nat.cast_ofNat]

theorem rung_top_le_ample : rung top ≤ ample := by
  rw [rung_top, cast_ample]
  exact two_pow_le_ten_pow (by decide +kernel)

theorem mul_pow_le {j m c e : Nat} (hm : m < 2 * hidden) (hfew : j + c < 1075)
    (hc : c ≤ e) :
    ((2 * m + 1 : Nat) * 5 ^ c * 2 ^ ((j : Int) + c - 1075) : ℚ) ≤
      (2 * hidden * Nat.pow 5 e : Nat) := by
  calc ((2 * m + 1 : Nat) * 5 ^ c * 2 ^ ((j : Int) + c - 1075) : ℚ)
      ≤ (4 * hidden : Nat) * 5 ^ e * 2 ^ (-1 : Int) := by
        gcongr
        · omega
        · norm_num
        · exact one_le_two
        · omega
    _ = (2 * hidden * Nat.pow 5 e : Nat) := by
        rw [Nat.pow_eq]
        push_cast
        ring

/-- A point halfway between two doubles has fewer digits, unless the power of
ten leaves no fraction. -/
theorem mul_pow_le_ample {j m c : Nat} (hm : m < 2 * hidden) (hfew : j + c < 1075) :
    ((2 * m + 1 : Nat) * 5 ^ c * 2 ^ ((j : Int) + c - 1075) : ℚ) ≤ ample := by
  have hample : 2 * hidden * Nat.pow 5 1074 ≤ ample := by decide +kernel
  exact (mul_pow_le hm hfew (by omega)).trans (Nat.cast_le.mpr hample)

/-- No point halfway between two doubles lies strictly between two successive
numbers of so many digits, with any power of ten: with a great one the numbers
are too large, with a small one the point is one of these numbers, and
otherwise it has fewer digits. -/
theorem halfway_outside {n : Nat} (hn : ample ≤ n) (k : Int) {b : Nat} (hb : b < top) :
    halfway b ≤ n * 10 ^ k ∨ ((n + 1 : Nat) * 10 ^ k : ℚ) ≤ halfway b := by
  have hcast : (ample : ℚ) ≤ n := by exact_mod_cast hn
  rcases le_or_gt 0 k with hk | hk
  · left
    have hone : (1 : ℚ) ≤ 10 ^ k := one_le_zpow₀ (by norm_num) hk
    calc halfway b ≤ rung top := halfway_le_rung_top hb
      _ ≤ n := rung_top_le_ample.trans hcast
      _ ≤ n * 10 ^ k := le_mul_of_one_le_right (Nat.cast_nonneg n) hone
  · obtain ⟨c, rfl⟩ : ∃ c : Nat, k = -(c : Int) := ⟨(-k).toNat, by omega⟩
    obtain ⟨j, m, rfl, hm, hnormal⟩ := exists_eq_add b
    rw [halfway_eq_mul hm hnormal c]
    rcases Nat.lt_or_ge (j + c) 1075 with hfew | hmany
    · left
      gcongr
      exact (mul_pow_le_ample hm hfew).trans hcast
    · obtain ⟨i, hi⟩ := Nat.exists_eq_add_of_le hmany
      have hexponent : (j : Int) + c - 1075 = i := by omega
      have hwhole : ((2 * m + 1 : Nat) * 5 ^ c * 2 ^ ((j : Int) + c - 1075) : ℚ) =
          ((2 * m + 1) * 5 ^ c * 2 ^ i : Nat) := by
        rw [hexponent, zpow_natCast]
        push_cast
        rfl
      rw [hwhole]
      rcases Nat.lt_or_ge n ((2 * m + 1) * 5 ^ c * 2 ^ i) with hlt | hge
      · right
        gcongr
        exact hlt
      · left
        gcongr

/-- Two numbers that begin with the same ample digits and go on with something,
or both with nothing, round to the same double. -/
theorem level_of_ample {n : Nat} (hn : ample ≤ n) (k : Int) {r r' : ℚ} (hr : 0 ≤ r)
    (hr1 : r < 1) (hr' : 0 ≤ r') (hr1' : r' < 1) (hzero : r = 0 ↔ r' = 0) :
    Level ((n + r) * 10 ^ k) ((n + r') * 10 ^ k) := by
  have hten : (0 : ℚ) < 10 ^ k := by positivity
  intro b hb
  rcases halfway_outside hn k hb with hbelow | habove
  · have hle (s : ℚ) (hs : 0 ≤ s) : halfway b ≤ (n + s) * 10 ^ k :=
      hbelow.trans (by gcongr; linarith)
    have hge (s : ℚ) (hs : 0 ≤ s) : (n + s) * 10 ^ k ≤ halfway b ↔
        n * 10 ^ k = halfway b ∧ s = 0 := by
      constructor
      · intro h
        have hsum : (n + s) * 10 ^ k = n * 10 ^ k + s * 10 ^ k := by ring
        have hpos : 0 ≤ s * 10 ^ k := by positivity
        have hs0 : s * 10 ^ k = 0 := by linarith
        exact ⟨by linarith, (mul_eq_zero.mp hs0).resolve_right hten.ne'⟩
      · rintro ⟨h, rfl⟩
        rw [add_zero, h]
    exact ⟨iff_of_true (hle r hr) (hle r' hr'), by rw [hge r hr, hge r' hr', hzero]⟩
  · have hlt (s : ℚ) (hs : s < 1) : (n + s) * 10 ^ k < halfway b := by
      refine lt_of_lt_of_le ?_ habove
      push_cast
      gcongr
    exact ⟨iff_of_false (hlt r hr1).not_ge (hlt r' hr1').not_ge,
      iff_of_true (hlt r hr1).le (hlt r' hr1').le⟩

end Binary64

namespace Number

theorem digitsValue_eq (digits : List Char) :
    digitsValue digits = Nat.ofDigitChars 10 digits 0 := by
  simp only [digitsValue, Nat.ofDigitChars, Nat.mul_comm]

theorem mul_ten_zpow (n : Nat) (k : Int) :
    ((n * Nat.pow 10 k.toNat : Nat) : ℚ) / (Nat.pow 10 (-k).toNat : Nat) =
      n * 10 ^ k := by
  have hpow : (10 : ℚ) ^ k = 10 ^ k.toNat / 10 ^ (-k).toNat := by
    rw [← zpow_natCast, ← zpow_natCast, ← zpow_sub₀ (by norm_num)]
    congr 1
    omega
  rw [hpow, Nat.pow_eq, Nat.pow_eq]
  push_cast
  ring

theorem length_toDigits_bounds {n : Nat} (hn : n ≠ 0) :
    10 ^ ((Nat.toDigits 10 n).length - 1) ≤ n ∧ n < 10 ^ (Nat.toDigits 10 n).length := by
  have hpos := @Nat.length_toDigits_pos 10 n
  constructor
  · rcases Nat.eq_zero_or_pos ((Nat.toDigits 10 n).length - 1) with hzero | hlong
    · rw [hzero]
      omega
    · rw [← Nat.not_lt, ← Nat.length_toDigits_le_iff (by decide) hlong]
      omega
  · exact (Nat.length_toDigits_le_iff (by decide) hpos).mp le_rfl

/-- A number with so few digits before the point rounds to zero. -/
theorem lt_halfway_zero {n : Nat} (hn : n ≠ 0) {k : Int}
    (hsize : (Nat.toDigits 10 n).length + k < -330) : (n * 10 ^ k : ℚ) ≤ halfway 0 := by
  have hhigh : (n : ℚ) < 10 ^ (Nat.toDigits 10 n).length := by
    exact_mod_cast (length_toDigits_bounds hn).2
  calc (n * 10 ^ k : ℚ) ≤ 10 ^ (Nat.toDigits 10 n).length * 10 ^ k := by gcongr
    _ = 10 ^ ((Nat.toDigits 10 n).length + k : Int) := by
      rw [zpow_add₀ (by norm_num), zpow_natCast]
    _ ≤ 10 ^ (-331 : Int) := zpow_le_zpow_right₀ (by norm_num) (by omega)
    _ ≤ halfway 0 := by
      have hpow : (2 : ℚ) ^ 1075 ≤ 10 ^ 331 := two_pow_le_ten_pow (by decide +kernel)
      rw [halfway_zero, zpow_neg, zpow_neg]
      exact inv_anti₀ (two_zpow_pos _) hpow

/-- A number with so many digits before the point rounds to infinity. -/
theorem two_pow_le {n : Nat} (hn : n ≠ 0) {k : Int}
    (hsize : 310 < (Nat.toDigits 10 n).length + k) : (2 : ℚ) ^ 1024 ≤ n * 10 ^ k := by
  have hpos := @Nat.length_toDigits_pos 10 n
  have hlow : (10 : ℚ) ^ ((Nat.toDigits 10 n).length - 1) ≤ n := by
    exact_mod_cast (length_toDigits_bounds hn).1
  calc (2 : ℚ) ^ 1024 ≤ 10 ^ 310 := two_pow_le_ten_pow (by decide +kernel)
    _ = 10 ^ (310 : Int) := (zpow_natCast 10 310).symm
    _ ≤ 10 ^ (((Nat.toDigits 10 n).length - 1 : Nat) + k : Int) :=
      zpow_le_zpow_right₀ (by norm_num) (by omega)
    _ = 10 ^ ((Nat.toDigits 10 n).length - 1) * 10 ^ k := by
      rw [zpow_add₀ (by norm_num), zpow_natCast]
    _ ≤ n * 10 ^ k := by gcongr

theorem scaled_roundsTo (negative : Bool) (n : Nat) (k : Int) :
    RoundsTo negative (n * 10 ^ k) (scaled negative n k) := by
  have hnonneg : (0 : ℚ) ≤ n * 10 ^ k := by positivity
  unfold scaled
  dsimp only
  by_cases hn : n = 0
  · rw [hn, decide_eq_true rfl, Bool.true_or, if_pos rfl, Nat.cast_zero, zero_mul]
    simpa using nearest_roundsTo negative 0 one_pos
  · rw [decide_eq_false hn, Bool.false_or]
    split
    · rename_i hsize
      exact (isNearest_zero (lt_halfway_zero hn (of_decide_eq_true hsize))).roundsTo
        hnonneg negative
    · split
      · rename_i hsize
        exact (isNearest_top (two_pow_le hn hsize)).roundsTo hnonneg negative
      · rw [← mul_ten_zpow]
        exact nearest_roundsTo negative _ (Nat.pow_pos (by decide))

/-! ## Digits -/

theorem digitsValue_append (ds es : List Char) :
    digitsValue (ds ++ es) = digitsValue ds * 10 ^ es.length + digitsValue es := by
  simp only [digitsValue_eq]
  rw [Nat.ofDigitChars_append, Nat.ofDigitChars_eq_ofDigitChars_zero, Nat.mul_comm]

theorem digitsValue_dropWhile (ds : List Char) :
    digitsValue (ds.dropWhile (· = '0')) = digitsValue ds := by
  induction ds with
  | nil => rfl
  | cons d ds ih =>
      rw [List.dropWhile_cons]
      split
      · rename_i hd
        rw [ih, of_decide_eq_true hd]
        rfl
      · rfl

theorem digitsValue_cons (d : Char) (ds : List Char) :
    digitsValue (d :: ds) = (d.toNat - '0'.toNat) * 10 ^ ds.length + digitsValue ds := by
  have happend := digitsValue_append [d] ds
  rw [List.singleton_append] at happend
  rw [happend]
  simp [digitsValue]

theorem digit_bounds {d : Char} (h : isDigit d = true) :
    '0'.toNat ≤ d.toNat ∧ d.toNat ≤ '9'.toNat := by
  simp only [isDigit, Bool.and_eq_true, decide_eq_true_eq] at h
  exact h

theorem digitsValue_lt {ds : List Char} (h : ∀ d ∈ ds, isDigit d = true) :
    digitsValue ds < 10 ^ ds.length := by
  induction ds with
  | nil => decide
  | cons d ds ih =>
      obtain ⟨hd, hds⟩ := List.forall_mem_cons.mp h
      have hrest := ih hds
      have hdigit : d.toNat - '0'.toNat ≤ 9 := Nat.sub_le_sub_right (digit_bounds hd).2 _
      have hmul := Nat.mul_le_mul_right (10 ^ ds.length) hdigit
      rw [digitsValue_cons, List.length_cons, Nat.pow_succ]
      omega

theorem digit_pos {d : Char} (hd : isDigit d = true) (hne : d ≠ '0') :
    1 ≤ d.toNat - '0'.toNat := by
  have hlow := (digit_bounds hd).1
  have hne' : '0'.toNat ≠ d.toNat := fun h => hne (Char.toNat_inj.mp h.symm)
  omega

/-- A number has as many digits as it is written with, if the first is not a zero. -/
theorem le_digitsValue_cons {d : Char} {ds : List Char} (hd : isDigit d = true)
    (hne : d ≠ '0') : 10 ^ ds.length ≤ digitsValue (d :: ds) := by
  have hmul := Nat.mul_le_mul_right (10 ^ ds.length) (digit_pos hd hne)
  rw [digitsValue_cons]
  omega

theorem digitsValue_eq_zero_iff {ds : List Char} (h : ∀ d ∈ ds, isDigit d = true) :
    digitsValue ds = 0 ↔ ds.all (· = '0') = true := by
  induction ds with
  | nil => exact iff_of_true rfl rfl
  | cons d ds ih =>
      obtain ⟨hd, hds⟩ := List.forall_mem_cons.mp h
      rw [List.all_cons, Bool.and_eq_true, decide_eq_true_eq, ← ih hds]
      by_cases hzero : d = '0'
      · rw [hzero, digitsValue_cons]
        simp
      · have hpos := @le_digitsValue_cons d ds hd hzero
        have hten := Nat.pow_pos (n := ds.length) (show 0 < 10 by decide)
        exact iff_of_false (by omega) (fun h => hzero h.1)

/-! ## The nearest double -/

/-- The leading digits and what follows them, as a number with a fraction. -/
theorem digitsValue_split (ds es : List Char) (k : Int) :
    (digitsValue (ds ++ es) * 10 ^ k : ℚ) =
      (digitsValue ds + digitsValue es / 10 ^ es.length) * 10 ^ (k + es.length) := by
  rw [digitsValue_append, zpow_add₀ (by norm_num), zpow_natCast]
  push_cast
  field_simp

/-- After an ample number of digits it only matters whether the others are all zero. -/
theorem scaled_truncated (negative : Bool) {ds es : List Char}
    (hds : ample ≤ digitsValue ds) (hes : ∀ d ∈ es, isDigit d = true) {last : Char}
    (hlast : digitsValue [last] ≤ 1) (hzero : digitsValue [last] = 0 ↔ digitsValue es = 0)
    (k : Int) :
    RoundsTo negative (digitsValue (ds ++ es) * 10 ^ k)
      (scaled negative (digitsValue (ds ++ [last])) (k + (es.length - 1))) := by
  have hrounds := scaled_roundsTo negative (digitsValue (ds ++ [last]))
    (k + (es.length - 1))
  have hexponent : k + ((es.length : Int) - 1) + ([last].length : Nat) =
      k + es.length := by
    rw [List.length_singleton]
    omega
  rw [digitsValue_split, hexponent] at hrounds
  refine hrounds.of_level ?_ (by positivity)
  rw [digitsValue_split]
  have hten (n : Nat) : (0 : ℚ) < 10 ^ n := by positivity
  apply level_of_ample hds _ (by positivity) _ (by positivity)
  · rw [div_lt_one (hten _)]
    exact_mod_cast Nat.lt_of_le_of_lt hlast (by decide : 1 < 10 ^ 1)
  · rw [div_eq_zero_iff, div_eq_zero_iff, or_iff_left (hten _).ne',
      or_iff_left (hten _).ne', Nat.cast_eq_zero, Nat.cast_eq_zero, hzero]
  · rw [div_lt_one (hten _)]
    exact_mod_cast digitsValue_lt hes

theorem ample_le_digitsValue {ds : List Char} (hdigits : ∀ d ∈ ds, isDigit d = true)
    (hfirst : ds.head? ≠ some '0') (hlength : ds.length = ampleDigits) :
    ample ≤ digitsValue ds := by
  cases ds with
  | nil => cases hlength
  | cons d ds =>
      have hle := @le_digitsValue_cons d ds (hdigits d List.mem_cons_self)
        (fun h => hfirst (congrArg some h))
      have hds : ds.length = ampleDigits - 1 := Nat.eq_sub_of_add_eq hlength
      unfold ample
      rw [← hds, Nat.pow_eq]
      exact hle

/-- Digits and a power of ten are read as the double nearest to their value. -/
theorem ofDigits_roundsTo (negative : Bool) {digits : List Char}
    (h : ∀ d ∈ digits, isDigit d = true) (k : Int) :
    RoundsTo negative (digitsValue digits * 10 ^ k) (ofDigits negative digits k) := by
  have hdigits : ∀ d ∈ digits.dropWhile (· = '0'), isDigit d = true :=
    fun d hd => h d ((List.dropWhile_suffix _).mem hd)
  have hfirst : (digits.dropWhile (· = '0')).head? ≠ some '0' := by
    intro hzero
    have hnot := List.head?_dropWhile_not (· = '0') digits
    rw [hzero] at hnot
    cases hnot
  rw [← digitsValue_dropWhile]
  unfold ofDigits
  dsimp only
  generalize digits.dropWhile (· = '0') = ds at hdigits hfirst
  split
  · exact scaled_roundsTo negative _ _
  · rename_i hrest
    have hlength : (ds.take ampleDigits).length = ampleDigits := by
      rw [List.isEmpty_iff, List.drop_eq_nil_iff, Nat.not_le] at hrest
      exact List.length_take_of_le hrest.le
    have hlead : ample ≤ digitsValue (ds.take ampleDigits) := by
      refine ample_le_digitsValue
        (fun d hd => hdigits d (List.mem_of_mem_take hd)) ?_ hlength
      rwa [List.head?_take, if_neg (by decide)]
    have htail : ∀ d ∈ ds.drop ampleDigits, isDigit d = true :=
      fun d hd => hdigits d (List.mem_of_mem_drop hd)
    have hzero := digitsValue_eq_zero_iff htail
    nth_rewrite 1 [← List.take_append_drop ampleDigits ds]
    split
    · rename_i hall
      exact scaled_truncated negative hlead htail (by decide)
        (iff_of_true rfl (hzero.mpr hall)) k
    · rename_i hall
      exact scaled_truncated negative hlead htail (by decide)
        (iff_of_false (by decide) (mt hzero.mp hall)) k

end Number

end HandleScript
