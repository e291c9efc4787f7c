import HandleScript.Number.Binary64
import Mathlib.Algebra.Order.Field.Power
import Mathlib.Data.Rat.Cast.Order
import Mathlib.Order.Monotone.Basic
import Mathlib.Tactic.FieldSimp
import Mathlib.Tactic.Linarith
import Mathlib.Tactic.NormNum
import Mathlib.Tactic.Positivity
import Mathlib.Tactic.Ring

/-!
# Rounding to the nearest double

The bits of a double without its sign count the rungs of a ladder: a larger
number has larger bits, and the next number has the next bits. Infinity is the
rung after the largest number, and counts here as the power of two that would
follow it. A fraction is rounded to the nearest rung, and halfway between two
to the even one.
-/

namespace HandleScript.Binary64

/-! ## The ladder of numbers -/

/-- The bits of infinity. -/
def top : Nat := 2047 * hidden

/-- The number of the given bits. From those of infinity on the ladder goes up
as if exponents had no bound. -/
def rung (b : Nat) : ℚ :=
  if b < hidden then b * 2 ^ leastExponent
  else (hidden + b % hidden : Nat) * 2 ^ (leastExponent + (b / hidden - 1 : Nat))

theorem hidden_pos : 0 < hidden := by
  decide

theorem cast_hidden : (hidden : ℚ) = 2 ^ (52 : Int) := by
  norm_num [hidden]

/-- The bits of `mantissa * 2 ^ (leastExponent + j)`, where the mantissa may be
one too large. -/
theorem rung_add {j m : Nat} (hm : m ≤ 2 * hidden) (hnormal : hidden ≤ m ∨ j = 0) :
    rung (j * hidden + m) = m * 2 ^ (leastExponent + (j : Int)) := by
  have hpos := hidden_pos
  by_cases hlow : m < hidden
  · have hj : j = 0 := hnormal.resolve_left (by omega)
    subst hj
    rw [rung, if_pos (by omega)]
    simp
  · have hnot : ¬ j * hidden + m < hidden := by
      have := Nat.zero_le (j * hidden)
      omega
    rw [rung, if_neg hnot]
    by_cases hcarry : m = 2 * hidden
    · have hsum : j * hidden + m = (j + 2) * hidden := by
        rw [hcarry, Nat.add_mul]
      rw [hsum, Nat.mul_mod_left, Nat.mul_div_cancel _ hpos, hcarry]
      have hexponent : leastExponent + ((j + 2 - 1 : Nat) : Int) =
          leastExponent + (j : Int) + 1 := by
        omega
      rw [hexponent, zpow_add_one₀ (by norm_num)]
      push_cast
      ring
    · obtain ⟨f, rfl⟩ : ∃ f, m = hidden + f := ⟨m - hidden, by omega⟩
      have hf : f < hidden := by omega
      have hsum : j * hidden + (hidden + f) = f + (j + 1) * hidden := by
        rw [Nat.add_mul]
        omega
      rw [hsum, Nat.add_mul_mod_self_right, Nat.mod_eq_of_lt hf,
        Nat.add_mul_div_right _ _ hpos, Nat.div_eq_of_lt hf]
      simp

/-- Every rung is a mantissa and an exponent. -/
theorem exists_eq_add (b : Nat) :
    ∃ j m, b = j * hidden + m ∧ m < 2 * hidden ∧ (hidden ≤ m ∨ j = 0) := by
  have hpos := hidden_pos
  have hsplit : b = b / hidden * hidden + b % hidden := by
    rw [Nat.mul_comm, Nat.div_add_mod]
  have hrest := Nat.mod_lt b hpos
  generalize b / hidden = k at hsplit
  cases k with
  | zero => exact ⟨0, b, by omega, by omega, .inr rfl⟩
  | succ j =>
      rw [Nat.add_mul, Nat.one_mul] at hsplit
      exact ⟨j, hidden + b % hidden, by omega, by omega, .inl (by omega)⟩

theorem rung_strictMono : StrictMono rung := by
  apply strictMono_nat_of_lt_succ
  intro b
  obtain ⟨j, m, rfl, hm, hnormal⟩ := exists_eq_add b
  rw [Nat.add_assoc, rung_add hm.le hnormal,
    rung_add hm (hnormal.imp_left Nat.le_succ_of_le)]
  push_cast
  gcongr
  linarith

/-! ## The nearest rung -/

section Middle

variable {u v t : ℚ}

theorem abs_sub_le_left_iff (h : u < v) : |u - t| ≤ |v - t| ↔ t ≤ (u + v) / 2 := by
  constructor
  · intro hle
    rcases abs_cases (u - t) with ⟨hu, _⟩ | ⟨hu, _⟩ <;>
      rcases abs_cases (v - t) with ⟨hv, _⟩ | ⟨hv, _⟩ <;> linarith
  · intro hle
    rw [abs_of_pos (show 0 < v - t by linarith)]
    exact abs_le.mpr ⟨by linarith, by linarith⟩

theorem abs_sub_le_right_iff (h : u < v) : |v - t| ≤ |u - t| ↔ (u + v) / 2 ≤ t := by
  constructor
  · intro hle
    rcases abs_cases (u - t) with ⟨hu, _⟩ | ⟨hu, _⟩ <;>
      rcases abs_cases (v - t) with ⟨hv, _⟩ | ⟨hv, _⟩ <;> linarith
  · intro hle
    rw [abs_of_neg (show u - t < 0 by linarith)]
    exact abs_le.mpr ⟨by linarith, by linarith⟩

theorem abs_sub_eq_iff (h : u < v) : |u - t| = |v - t| ↔ t = (u + v) / 2 := by
  rw [le_antisymm_iff, le_antisymm_iff, abs_sub_le_left_iff h, abs_sub_le_right_iff h]

end Middle

/-- In a sequence of numbers, that at `b` is no farther from `t` than that at
`c`, and if the two are equally near, then `b` is even. -/
def Preferred (f : Nat → ℚ) (t : ℚ) (b c : Nat) : Prop :=
  |f b - t| ≤ |f c - t| ∧ (|f b - t| = |f c - t| → c = b ∨ b % 2 = 0)

/-- The rung `b` is the nearest to `t` up to infinity, and if another one is as
near, then `b` is even. -/
def IsNearest (t : ℚ) (b : Nat) : Prop :=
  b ≤ top ∧ ∀ c ≤ top, Preferred rung t b c

/-- A number has one nearest rung: between two even ones there is a nearer one. -/
theorem IsNearest.unique {t : ℚ} {b c : Nat} (hb : IsNearest t b) (hc : IsNearest t c) :
    b = c := by
  wlog hlt : b < c generalizing b c
  · rcases Nat.lt_or_eq_of_le (Nat.le_of_not_lt hlt) with hgt | heq
    · exact (this hc hb hgt).symm
    · exact heq.symm
  obtain ⟨hbtop, hb⟩ := hb
  obtain ⟨hctop, hc⟩ := hc
  have hsame : |rung b - t| = |rung c - t| := le_antisymm (hb c hctop).1 (hc b hbtop).1
  have hbeven : b % 2 = 0 := ((hb c hctop).2 hsame).resolve_left (by omega)
  have hceven : c % 2 = 0 := ((hc b hbtop).2 hsame.symm).resolve_left (by omega)
  have hlow : rung b < rung (b + 1) := rung_strictMono (by omega)
  have hhigh : rung (b + 1) < rung c := rung_strictMono (by omega)
  have hmiddle := (abs_sub_le_left_iff hlow).mp (hb (b + 1) (by omega)).1
  rw [abs_sub_eq_iff (hlow.trans hhigh)] at hsame
  linarith

/-- The number halfway to the next rung. -/
def halfway (b : Nat) : ℚ :=
  (rung b + rung (b + 1)) / 2

/-- A number has the rung `b` as its nearest if it lies between the points
halfway to the two neighbours, and these themselves go to the even side. -/
theorem isNearest_iff {t : ℚ} {b : Nat} :
    IsNearest t b ↔ b ≤ top ∧
      (∀ a, b = a + 1 → halfway a ≤ t ∧ (t = halfway a → b % 2 = 0)) ∧
      (b < top → t ≤ halfway b ∧ (t = halfway b → b % 2 = 0)) := by
  constructor
  · rintro ⟨htop, hnearest⟩
    refine ⟨htop, ?_, ?_⟩
    · rintro a rfl
      have hlt : rung a < rung (a + 1) := rung_strictMono (by omega)
      obtain ⟨hle, hties⟩ := hnearest a (by omega)
      rw [abs_sub_le_right_iff hlt] at hle
      rw [eq_comm, abs_sub_eq_iff hlt] at hties
      exact ⟨hle, fun h => (hties h).resolve_left (by omega)⟩
    · intro hb
      have hlt : rung b < rung (b + 1) := rung_strictMono (by omega)
      obtain ⟨hle, hties⟩ := hnearest (b + 1) hb
      rw [abs_sub_le_left_iff hlt] at hle
      rw [abs_sub_eq_iff hlt] at hties
      exact ⟨hle, fun h => (hties h).resolve_left (by omega)⟩
  · rintro ⟨htop, hbelow, habove⟩
    refine ⟨htop, ?_⟩
    intro c hc
    -- The point halfway to a farther rung lies beyond that to the neighbour.
    unfold Preferred
    rcases Nat.lt_trichotomy c b with hlt | rfl | hgt
    · obtain ⟨a, rfl⟩ : ∃ a, b = a + 1 := ⟨b - 1, by omega⟩
      obtain ⟨hle, hties⟩ := hbelow a rfl
      have hca : rung c ≤ rung a := rung_strictMono.monotone (by omega)
      rw [eq_comm, abs_sub_le_right_iff (rung_strictMono hlt),
        abs_sub_eq_iff (rung_strictMono hlt)]
      unfold halfway at hle hties
      exact ⟨by linarith, fun h => .inr (hties (by linarith))⟩
    · exact ⟨le_rfl, fun _ => .inl rfl⟩
    · obtain ⟨hle, hties⟩ := habove (by omega)
      have hbc : rung (b + 1) ≤ rung c := rung_strictMono.monotone (by omega)
      rw [abs_sub_le_left_iff (rung_strictMono hgt), abs_sub_eq_iff (rung_strictMono hgt)]
      unfold halfway at hle hties
      exact ⟨by linarith, fun h => .inr (hties (by linarith))⟩

/-- No point halfway between two rungs tells the two numbers apart. -/
def Level (t t' : ℚ) : Prop :=
  ∀ b < top, (halfway b ≤ t ↔ halfway b ≤ t') ∧ (t ≤ halfway b ↔ t' ≤ halfway b)

theorem Level.eq_halfway_iff {t t' : ℚ} (h : Level t t') {b : Nat} (hb : b < top) :
    t = halfway b ↔ t' = halfway b := by
  obtain ⟨hge, hle⟩ := h b hb
  rw [le_antisymm_iff, le_antisymm_iff, hge, hle]

theorem Level.isNearest_iff {t t' : ℚ} (h : Level t t') {b : Nat} :
    IsNearest t b ↔ IsNearest t' b := by
  rw [Binary64.isNearest_iff, Binary64.isNearest_iff]
  refine and_congr_right fun htop => and_congr ?_ ?_
  · refine forall_congr' fun a => forall_congr' fun ha => ?_
    have hlt : a < top := by omega
    rw [(h a hlt).1, h.eq_halfway_iff hlt]
  · refine forall_congr' fun hb => ?_
    rw [(h b hb).2, h.eq_halfway_iff hb]

/-! ## The computed double -/

/-- A fraction is at most a half away from what it is rounded to, and a half
only from an even integer. -/
theorem roundHalfEven_near {num den : Nat} (hden : 0 < den) :
    |(roundHalfEven num den : ℚ) - num / den| < 1 / 2 ∨
      |(roundHalfEven num den : ℚ) - num / den| = 1 / 2 ∧
        roundHalfEven num den % 2 = 0 := by
  have hpos : (0 : ℚ) < den := by exact_mod_cast hden
  obtain ⟨q, hq⟩ : ∃ q, num / den = q := ⟨_, rfl⟩
  obtain ⟨rest, hrest⟩ : ∃ rest, num % den = rest := ⟨_, rfl⟩
  have hx : (num : ℚ) / den = q + rest / den := by
    have hsplit : den * q + rest = num := by rw [← hq, ← hrest, Nat.div_add_mod]
    rw [← hsplit]
    push_cast
    field_simp
  have hlt : (rest : ℚ) / den < 1 := by
    rw [div_lt_one hpos]
    exact_mod_cast hrest ▸ Nat.mod_lt num hden
  have hge : (0 : ℚ) ≤ rest / den := by positivity
  have hless : 2 * rest < den ↔ (rest : ℚ) / den < 1 / 2 := by
    rw [div_lt_div_iff₀ hpos two_pos, one_mul, mul_comm]
    exact_mod_cast Iff.rfl
  have hhalf : 2 * rest = den ↔ (rest : ℚ) / den = 1 / 2 := by
    rw [div_eq_div_iff hpos.ne' two_ne_zero, one_mul, mul_comm]
    exact_mod_cast Iff.rfl
  simp only [roundHalfEven, hq, hrest, Bool.or_eq_true,
    Bool.and_eq_true, decide_eq_true_eq, hx]
  split
  · rename_i hdown
    rw [hless, hhalf] at hdown
    have habs : |(q : ℚ) - (q + rest / den)| = rest / den := by
      rw [sub_add_cancel_left, abs_neg, abs_of_nonneg hge]
    rw [habs]
    exact hdown
  · rename_i hup
    rw [hless, hhalf, not_or, not_lt, not_and] at hup
    have habs : |((q + 1 : Nat) : ℚ) - (q + rest / den)| = 1 - rest / den := by
      push_cast
      rw [abs_of_nonneg (by linarith)]
      ring
    rw [habs]
    rcases lt_or_eq_of_le hup.1 with hmore | hsame
    · exact .inl (by linarith)
    · have hodd := hup.2 hsame.symm
      exact .inr ⟨by linarith, by omega⟩

/-- What a fraction is rounded to is the nearest integer, and if another one is
as near, then it is even. -/
theorem roundHalfEven_preferred {num den : Nat} (hden : 0 < den) (n : Nat) :
    Preferred Nat.cast (num / den) (roundHalfEven num den) n := by
  unfold Preferred
  have hnear := @roundHalfEven_near num den hden
  generalize roundHalfEven num den = r at hnear
  by_cases hn : n = r
  · rw [hn]
    exact ⟨le_rfl, fun _ => .inl rfl⟩
  have hgap : (1 : ℚ) ≤ |(n : ℚ) - r| := by
    have hne : (n : Int) - r ≠ 0 := by omega
    exact_mod_cast Int.one_le_abs hne
  have htriangle := abs_sub_le (n : ℚ) (num / den) r
  rw [abs_sub_comm (num / den : ℚ) r] at htriangle
  rcases hnear with hlt | ⟨heq, heven⟩
  · exact ⟨by linarith, fun h => absurd h (by linarith)⟩
  · exact ⟨by linarith, fun _ => .inr heven⟩

theorem two_zpow_pos (e : Int) : (0 : ℚ) < 2 ^ e := by
  positivity

/-- A quotient by a power of two is a fraction of natural numbers. -/
theorem div_two_zpow (num den : Nat) (e : Int) :
    ((num * Nat.pow 2 (-e).toNat : Nat) : ℚ) / (den * Nat.pow 2 e.toNat : Nat) =
      num / den / 2 ^ e := by
  have hpow : (2 : ℚ) ^ e = 2 ^ e.toNat / 2 ^ (-e).toNat := by
    rw [← zpow_natCast, ← zpow_natCast, ← zpow_sub₀ two_ne_zero]
    congr 1
    omega
  rw [hpow, Nat.pow_eq, Nat.pow_eq]
  push_cast
  field_simp

theorem floorLog2_spec {num den : Nat} (hnum : 0 < num) (hden : 0 < den) :
    (2 : ℚ) ^ floorLog2 num den ≤ num / den ∧
      (num / den : ℚ) < 2 ^ (floorLog2 num den + 1) := by
  have hposden : (0 : ℚ) < den := by exact_mod_cast hden
  obtain ⟨a, ha⟩ : ∃ a, num.log2 = a := ⟨_, rfl⟩
  obtain ⟨c, hc⟩ : ∃ c, den.log2 = c := ⟨_, rfl⟩
  have hnumlow : (2 : ℚ) ^ (a : Int) ≤ num := by
    exact_mod_cast ha ▸ Nat.log2_self_le hnum.ne'
  have hnumhigh : (num : ℚ) < 2 ^ ((a : Int) + 1) := by
    exact_mod_cast ha ▸ Nat.lt_log2_self
  have hdenlow : (2 : ℚ) ^ (c : Int) ≤ den := by
    exact_mod_cast hc ▸ Nat.log2_self_le hden.ne'
  have hdenhigh : (den : ℚ) < 2 ^ ((c : Int) + 1) := by
    exact_mod_cast hc ▸ Nat.lt_log2_self
  have hhigh : (num / den : ℚ) < 2 ^ ((a : Int) - c + 1) := by
    rw [div_lt_iff₀ hposden]
    calc (num : ℚ) < 2 ^ ((a : Int) + 1) := hnumhigh
      _ = 2 ^ ((a : Int) - c + 1) * 2 ^ (c : Int) := by
        rw [← zpow_add₀ two_ne_zero]
        congr 1
        ring
      _ ≤ 2 ^ ((a : Int) - c + 1) * den := by gcongr
  have hlow : (2 : ℚ) ^ ((a : Int) - c - 1) ≤ num / den := by
    rw [le_div_iff₀ hposden]
    calc (2 : ℚ) ^ ((a : Int) - c - 1) * den ≤ 2 ^ ((a : Int) - c - 1) *
        2 ^ ((c : Int) + 1) := by gcongr
      _ = 2 ^ (a : Int) := by
        rw [← zpow_add₀ two_ne_zero]
        congr 1
        ring
      _ ≤ num := hnumlow
  have hestimate (e : Int) :
      num * Nat.pow 2 (-e).toNat < den * Nat.pow 2 e.toNat ↔ (num / den : ℚ) < 2 ^ e := by
    have hscaled : (0 : ℚ) < (den * Nat.pow 2 e.toNat : Nat) := by
      exact_mod_cast Nat.mul_pos hden (Nat.pow_pos two_pos)
    rw [← div_lt_one (two_zpow_pos e), ← div_two_zpow, div_lt_one hscaled, Nat.cast_lt]
  simp only [floorLog2, ha, hc]
  split
  · rename_i hbelow
    rw [sub_add_cancel]
    exact ⟨hlow, (hestimate _).mp hbelow⟩
  · rename_i habove
    exact ⟨not_lt.mp fun h => habove ((hestimate _).mpr h), hhigh⟩

theorem abs_mul_sub {p : ℚ} (hp : 0 < p) (m q : ℚ) : |m * p - q| = |m - q / p| * p := by
  calc |m * p - q| = |(m - q / p) * p| := by rw [sub_mul, div_mul_cancel₀ _ hp.ne']
    _ = |m - q / p| * p := by rw [abs_mul, abs_of_pos hp]

/-- The rungs below a normal mantissa are those with smaller exponents. -/
theorem rung_lt_of_lt {j k n : Nat} (hkj : k < j) (hn : n < 2 * hidden) :
    rung (k * hidden + n) < hidden * 2 ^ (leastExponent + (j : Int)) := by
  have hleast : rung (j * hidden + hidden) = hidden * 2 ^ (leastExponent + (j : Int)) :=
    rung_add (by omega) (.inl le_rfl)
  rw [← hleast]
  apply rung_strictMono
  have hmul : (k + 1) * hidden ≤ j * hidden := Nat.mul_le_mul_right _ hkj
  rw [Nat.add_mul, Nat.one_mul] at hmul
  omega

/-- The rung of a rounded mantissa is nearer than any other one. The rungs with
smaller exponents lie below the least mantissa of its own. -/
theorem rung_preferred {q : ℚ} {j m : Nat}
    (hlow : j = 0 ∨ (hidden * 2 ^ (leastExponent + (j : Int)) : ℚ) ≤ q)
    (hhigh : q < (2 * hidden : Nat) * 2 ^ (leastExponent + (j : Int)))
    (hm : ∀ n, Preferred Nat.cast (q / 2 ^ (leastExponent + (j : Int))) m n) (c : Nat) :
    Preferred rung q (j * hidden + m) c := by
  unfold Preferred at hm ⊢
  obtain ⟨p, hp⟩ : ∃ p, (2 : ℚ) ^ (leastExponent + (j : Int)) = p := ⟨_, rfl⟩
  have hpos : 0 < p := hp ▸ two_zpow_pos _
  rw [hp] at hlow hhigh hm
  have hmax : m ≤ 2 * hidden := by
    have hx : q / p < (2 * hidden : Nat) := (div_lt_iff₀ hpos).mpr hhigh
    have hle := (hm (2 * hidden)).1
    rw [abs_of_pos (sub_pos.mpr hx)] at hle
    have := (abs_le.mp hle).2
    exact_mod_cast (show (m : ℚ) ≤ (2 * hidden : Nat) by linarith)
  have hnormal : hidden ≤ m ∨ j = 0 := by
    rcases hlow with hj | hlow
    · exact .inr hj
    · have hx : (hidden : ℚ) ≤ q / p := (le_div_iff₀ hpos).mpr hlow
      have hle := (hm hidden).1
      rw [abs_of_nonpos (sub_nonpos.mpr hx)] at hle
      have := (abs_le.mp hle).1
      exact .inl (by exact_mod_cast (show (hidden : ℚ) ≤ m by linarith))
  have hb : rung (j * hidden + m) = m * p := by rw [rung_add hmax hnormal, hp]
  obtain ⟨k, n, rfl, hn, hk⟩ := exists_eq_add c
  by_cases hjk : j ≤ k
  · obtain ⟨i, rfl⟩ := Nat.exists_eq_add_of_le hjk
    have hmultiple : rung ((j + i) * hidden + n) = (n * 2 ^ i : Nat) * p := by
      rw [rung_add hn.le hk, ← hp]
      push_cast
      rw [← add_assoc, zpow_add₀ two_ne_zero _ (i : Int), zpow_natCast]
      ring
    obtain ⟨hle, hties⟩ := hm (n * 2 ^ i)
    rw [hb, hmultiple, abs_mul_sub hpos, abs_mul_sub hpos]
    constructor
    · gcongr
    · intro hsame
      rcases hties (mul_right_cancel₀ hpos.ne' hsame) with heq | heven
      · left
        apply rung_strictMono.injective
        rw [hmultiple, hb, heq]
      · right
        have hhidden : hidden % 2 = 0 := by decide
        rw [Nat.add_mod, Nat.mul_mod, hhidden, heven]
        simp
  · have hbelow : rung (k * hidden + n) < hidden * p := hp ▸ rung_lt_of_lt (by omega) hn
    have hq : hidden * p ≤ q := hlow.resolve_left (by omega)
    have hclose : |rung (j * hidden + m) - q| ≤ |hidden * p - q| := by
      have hle := (hm hidden).1
      rw [hb, abs_mul_sub hpos, abs_mul_sub hpos]
      gcongr
    have hfar : |hidden * p - q| < |rung (k * hidden + n) - q| := by
      rw [abs_of_nonpos (by linarith), abs_of_nonpos (by linarith)]
      linarith
    exact ⟨(hclose.trans_lt hfar).le, fun h => absurd h (hclose.trans_lt hfar).ne⟩

/-- A rung that is nearest on the unbounded ladder is nearest up to infinity,
or infinity is. -/
theorem isNearest_min {q : ℚ} {b : Nat} (h : ∀ c, Preferred rung q b c) :
    IsNearest q (min b top) := by
  by_cases hb : b ≤ top
  · rw [min_eq_left hb]
    exact ⟨hb, fun c _ => h c⟩
  · have htop : top < b := by omega
    have hbeyond := (abs_sub_le_right_iff (rung_strictMono htop)).mp (h top).1
    have hlt := rung_strictMono htop
    rw [min_eq_right htop.le, isNearest_iff]
    refine ⟨le_rfl, ?_, fun hlt => absurd hlt (lt_irrefl _)⟩
    rintro a ha
    have ha' : rung a < rung top := rung_strictMono (by omega)
    unfold halfway
    rw [← ha]
    exact ⟨by linarith, fun h => absurd h (by linarith)⟩

/-- The computed mantissa and exponent are those of the nearest rung. -/
theorem rounded_isNearest {num den : Nat} (hnum : 0 < num) (hden : 0 < den) :
    let exponent := max leastExponent (floorLog2 num den - 52)
    let mantissa := roundHalfEven (num * Nat.pow 2 (-exponent).toNat)
      (den * Nat.pow 2 exponent.toNat)
    IsNearest (num / den)
      (min ((exponent - leastExponent).toNat * hidden + mantissa) top) := by
  obtain ⟨hlog, hlog'⟩ := floorLog2_spec hnum hden
  obtain ⟨j, hj⟩ : ∃ j : Nat, max leastExponent (floorLog2 num den - 52) =
      leastExponent + (j : Int) :=
    ⟨(max leastExponent (floorLog2 num den - 52) - leastExponent).toNat, by omega⟩
  dsimp only
  rw [hj, add_sub_cancel_left, Int.toNat_natCast]
  apply isNearest_min
  apply rung_preferred
  · rcases Nat.eq_zero_or_pos j with hzero | hpos
    · exact .inl hzero
    · right
      have hexponent : leastExponent + (j : Int) = floorLog2 num den - 52 := by omega
      rw [hexponent, cast_hidden, ← zpow_add₀ two_ne_zero]
      simpa using hlog
  · refine hlog'.trans_le ?_
    have hle : floorLog2 num den + 1 ≤ 1 + 52 + (leastExponent + (j : Int)) := by omega
    calc (2 : ℚ) ^ (floorLog2 num den + 1) ≤ 2 ^ (1 + 52 + (leastExponent + (j : Int))) :=
        zpow_le_zpow_right₀ one_le_two hle
      _ = 2 * 2 ^ (52 : Int) * 2 ^ (leastExponent + (j : Int)) := by
        rw [zpow_add₀ two_ne_zero, zpow_add₀ two_ne_zero, zpow_one]
      _ = (2 * hidden : Nat) * 2 ^ (leastExponent + (j : Int)) := by
        rw [Nat.cast_mul, Nat.cast_two, cast_hidden]
  · intro n
    rw [← div_two_zpow]
    exact roundHalfEven_preferred (Nat.mul_pos hden (Nat.pow_pos two_pos)) n

end HandleScript.Binary64
