import HandleScript.Proofs.Number.Rounding

/-!
# Doubles and their bits

A double is its 64 bits, of which all patterns occur but those of other
not-a-numbers than the canonical one.
-/

namespace HandleScript.Binary64

/-! ## Packing -/

section Packing

open Float.Model (Format)
open Float.Model.UnpackedFloat

variable {v : BitVec Format.binary64.numBits}

theorem packComponents_unpack (v : BitVec Format.binary64.numBits) :
    packComponents .binary64 (Sign.ofBitVec (unpackSign v)) (unpackExponent v)
      (unpackMantissa v) = v := by
  have hsign : (Sign.ofBitVec (unpackSign v)).toBitVec = unpackSign v := by
    generalize unpackSign v = s
    revert s
    decide
  delta packComponents
  rw [hsign]
  delta unpackSign unpackExponent unpackMantissa BitVec.extractLsb
  ext i hi
  grind

theorem pack_subnormal (hexponent : unpackExponent v = 0#_)
    (hpos : 0 < (unpackMantissa v).toNat) :
    pack .binary64 (.finite (Sign.ofBitVec (unpackSign v))
      (unpackMantissa v).toNat (-1074) hpos) = v := by
  have hmantissa : (unpackMantissa v).toNat < 2 ^ 52 := (unpackMantissa v).isLt
  have hlog : (unpackMantissa v).toNat.log2 < 52 := (Nat.log2_lt hpos.ne').mpr hmantissa
  have hnormal : ¬ (unpackMantissa v).toNat.log2 + 1 = Format.binary64.mantissaBits := by
    intro h
    have hbits : Format.binary64.mantissaBits = 53 := by decide
    omega
  delta pack
  dsimp only
  rw [if_neg (by decide), if_neg hnormal, BitVec.ofNat_toNat,
    BitVec.setWidth_eq, ← hexponent]
  exact packComponents_unpack v

theorem pack_normal (hones : unpackExponent v ≠ -1#_)
    (hpos : 0 < (1#1 ++ unpackMantissa v).toNat) :
    pack .binary64 (.finite (Sign.ofBitVec (unpackSign v)) (1#1 ++ unpackMantissa v).toNat
      ((unpackExponent v).toNat - 1075 : Int) hpos) = v := by
  have hmantissa : (unpackMantissa v).toNat < 2 ^ 52 := (unpackMantissa v).isLt
  have hexponent : (unpackExponent v).toNat < 2 ^ 11 := (unpackExponent v).isLt
  have hne : (unpackExponent v).toNat ≠ 2 ^ 11 - 1 := by
    intro h
    exact hones (BitVec.toNat_inj.mp h)
  have hhidden : (1#1 ++ unpackMantissa v).toNat = 2 ^ 52 + (unpackMantissa v).toNat := by
    rw [BitVec.toNat_append, ← Nat.shiftLeft_add_eq_or_of_lt hmantissa, Nat.shiftLeft_eq]
    rfl
  have hlog : (1#1 ++ unpackMantissa v).toNat.log2 + 1 =
      Format.binary64.mantissaBits := by
    have hlow : 52 ≤ (1#1 ++ unpackMantissa v).toNat.log2 :=
      (Nat.le_log2 hpos.ne').mpr (by omega)
    have hhigh : (1#1 ++ unpackMantissa v).toNat.log2 < 53 :=
      (Nat.log2_lt hpos.ne').mpr (by omega)
    have hbits : Format.binary64.mantissaBits = 53 := by decide
    omega
  have hbiased : (((unpackExponent v).toNat - 1075 : Int) + Format.binary64.exponentBias +
      Format.binary64.mantissaBitsWithoutImplicit).toNat = (unpackExponent v).toNat := by
    change (((unpackExponent v).toNat - 1075 : Int) + (1023 : Nat) + (52 : Nat)).toNat = _
    omega
  delta pack
  dsimp only
  rw [hbiased, if_neg (by omega), if_pos hlog, BitVec.ofNat_toNat, BitVec.setWidth_eq]
  have hdrop : BitVec.ofNat 52 (1#1 ++ unpackMantissa v).toNat = unpackMantissa v := by
    rw [← BitVec.toNat_inj, BitVec.toNat_ofNat, hhidden]
    omega
  rw [hdrop]
  exact packComponents_unpack v

/-- Bits that are not those of a not-a-number survive unpacking. -/
theorem pack_unpack (h : unpackExponent v = -1#_ → unpackMantissa v = 0#_) :
    pack .binary64 (unpack .binary64 v) = v := by
  have hparts := packComponents_unpack v
  delta unpack
  dsimp only
  by_cases hones : unpackExponent v = -1#_
  · rw [hones, h hones] at hparts
    rw [if_pos hones, if_pos (h hones)]
    exact hparts
  rw [if_neg hones]
  by_cases hzero : unpackExponent v = 0#_
  · rw [if_pos hzero]
    by_cases hmantissa : unpackMantissa v = 0#_
    · rw [hzero, hmantissa] at hparts
      rw [dif_pos hmantissa]
      exact hparts
    · rw [dif_neg hmantissa, hzero]
      exact pack_subnormal hzero _
  · rw [if_neg hzero]
    exact pack_normal hones _

theorem toNat_unpackMantissa (v : BitVec Format.binary64.numBits) :
    (unpackMantissa v).toNat = v.toNat % hidden := by
  exact BitVec.extractLsb_toNat 51 0 v

theorem toNat_unpackExponent (v : BitVec Format.binary64.numBits) :
    (unpackExponent v).toNat = v.toNat / hidden % 2048 := by
  have hshift := BitVec.extractLsb_toNat 62 52 v
  rw [Nat.shiftRight_eq_div_pow] at hshift
  exact hshift

end Packing

/-! ## The number of a double -/

/-- The number of a magnitude and a sign. -/
def withSign (negative : Bool) (t : ℚ) : ℚ :=
  if negative then -t else t

/-- The number that a double stands for. An infinity counts as the power of two
that follows the largest number. -/
def value? : Binary64 → Option ℚ
  | .nan => none
  | .infinite negative => some (withSign negative (2 ^ 1024))
  | .finite negative mantissa exponent =>
    some (withSign negative (mantissa * 2 ^ exponent))

/-- Whether a double has a minus sign. -/
def isNegative : Binary64 → Bool
  | .nan => false
  | .infinite negative => negative
  | .finite negative _ _ => negative

/-- A double with an even mantissa, or an infinity. -/
def IsEven : Binary64 → Prop
  | .finite _ mantissa _ => mantissa % 2 = 0
  | _ => True

/-- The double `x` is the number of the magnitude `t` and a sign, rounded: it
has that sign, no double is nearer to the number, and if one with another value
is as near, then `x` is the even one. -/
structure RoundsTo (negative : Bool) (t : ℚ) (x : Float) : Prop where
  sign : (ofFloat x).isNegative = negative
  nearest : ∃ v, (ofFloat x).value? = some v ∧ ∀ y w, (ofFloat y).value? = some w →
    |v - withSign negative t| ≤ |w - withSign negative t| ∧
      (|v - withSign negative t| = |w - withSign negative t| → w = v ∨ (ofFloat x).IsEven)

/-- The weight of the sign bit. -/
def signBit : Nat := Nat.pow 2 63

/-- The bits of a double without its sign. -/
def magnitude (x : Float) : Nat := x.toBits.toNat % signBit

theorem top_lt_signBit : top < signBit := by
  decide

theorem rung_top : rung top = 2 ^ 1024 := by
  have htop : top = 2046 * hidden + hidden := by decide
  rw [htop, rung_add (by omega) (.inl le_rfl), cast_hidden, ← zpow_add₀ two_ne_zero]
  exact zpow_natCast 2 1024

/-- The bits of a double below infinity are those of its mantissa and exponent. -/
theorem ofFloat_cases (x : Float) :
    let negative := decide (signBit ≤ x.toBits.toNat)
    (ofFloat x = .nan ∧ top < magnitude x) ∨
    (ofFloat x = .infinite negative ∧ magnitude x = top) ∨
    ∃ m e, ofFloat x = .finite negative m e ∧ magnitude x < top ∧
      rung (magnitude x) = m * 2 ^ e ∧ m % 2 = magnitude x % 2 := by
  have hword := x.toBits.toNat_lt
  unfold magnitude ofFloat ofBits
  generalize x.toBits.toNat = n at hword
  dsimp only
  have hmod : n % signBit % hidden = n % hidden := by
    simp only [hidden, signBit, Nat.pow_eq]
    omega
  have hdiv : n % signBit / hidden = n / hidden % 2048 := by
    simp only [hidden, signBit, Nat.pow_eq]
    omega
  have hparity : n % hidden % 2 = n % signBit % 2 := by
    simp only [hidden, signBit, Nat.pow_eq]
    omega
  rw [← hdiv, ← hmod]
  rw [← hmod] at hparity
  have hb : n % signBit < 2048 * hidden := Nat.mod_lt n (by decide)
  generalize n % signBit = b at hparity hb
  split
  · rename_i hfield
    split
    · rename_i hfraction
      refine .inr (.inl ⟨rfl, ?_⟩)
      rw [← Nat.div_add_mod b hidden, hfield, hfraction]
      rfl
    · rename_i hfraction
      refine .inl ⟨rfl, ?_⟩
      rw [← Nat.div_add_mod b hidden, hfield]
      change 2047 * hidden < _
      omega
  · rename_i hfield
    right
    right
    have hbelow : b < top := by
      have hdiv : b / hidden < 2048 := Nat.div_lt_of_lt_mul (Nat.mul_comm _ _ ▸ hb)
      exact (Nat.div_lt_iff_lt_mul hidden_pos).mp (by omega)
    split
    · rename_i hzero
      have hlow : b < hidden := (Nat.div_eq_zero_iff_lt hidden_pos).mp hzero
      refine ⟨_, _, rfl, hbelow, ?_, hparity⟩
      rw [rung, if_pos hlow, Nat.mod_eq_of_lt hlow]
    · rename_i hnormal
      have hhigh : ¬ b < hidden := by
        intro h
        exact hnormal (Nat.div_eq_of_lt h)
      refine ⟨_, _, rfl, hbelow, ?_, ?_⟩
      · rw [rung, if_neg hhigh]
      · have hhidden : hidden % 2 = 0 := by decide
        omega

theorem value?_ofFloat {x : Float} (h : magnitude x ≤ top) :
    (ofFloat x).value? =
      some (withSign (signBit ≤ x.toBits.toNat) (rung (magnitude x))) := by
  rcases ofFloat_cases x with ⟨-, hbeyond⟩ | ⟨hx, htop⟩ | ⟨m, e, hx, -, hrung, -⟩
  · omega
  · rw [hx, htop, rung_top]
    rfl
  · rw [hx, hrung]
    rfl

theorem isNegative_ofFloat {x : Float} (h : magnitude x ≤ top) :
    (ofFloat x).isNegative = decide (signBit ≤ x.toBits.toNat) := by
  rcases ofFloat_cases x with ⟨-, hbeyond⟩ | ⟨hx, -⟩ | ⟨m, e, hx, -⟩
  · omega
  · rw [hx]
    rfl
  · rw [hx]
    rfl

theorem isEven_ofFloat {x : Float} (h : magnitude x ≤ top) :
    (ofFloat x).IsEven ↔ magnitude x % 2 = 0 := by
  rcases ofFloat_cases x with ⟨-, hbeyond⟩ | ⟨hx, htop⟩ | ⟨m, e, hx, -, -, hparity⟩
  · omega
  · rw [hx, htop]
    exact iff_of_true trivial (by decide)
  · rw [hx, ← hparity]
    rfl

theorem magnitude_le_of_value? {x : Float} {v : ℚ} (h : (ofFloat x).value? = some v) :
    magnitude x ≤ top := by
  rcases ofFloat_cases x with ⟨hx, -⟩ | ⟨-, htop⟩ | ⟨m, e, -, hbelow, -⟩
  · rw [hx] at h
    cases h
  · exact htop.le
  · exact hbelow.le

/-- The double of a sign and a rung. -/
def ofRung (negative : Bool) (b : Nat) : Float :=
  Float.ofBits (UInt64.ofNat ((if negative then signBit else 0) + b))

theorem toBits_ofBits {a : UInt64} (h : a.toNat % signBit ≤ top) :
    (Float.ofBits a).toBits = a := by
  have hpack : UInt64.ofBitVec (Float.Model.UnpackedFloat.pack .binary64
      (Float.Model.UnpackedFloat.unpack .binary64 a.toBitVec)) = a := by
    rw [pack_unpack]
    intro hones
    rw [← BitVec.toNat_inj, toNat_unpackExponent] at hones
    rw [← BitVec.toNat_inj, toNat_unpackMantissa]
    change a.toNat / hidden % 2048 = 2047 at hones
    change a.toNat % hidden = 0
    simp only [top, hidden, signBit, Nat.pow_eq] at *
    omega
  exact hpack

theorem sign_add_mod (negative : Bool) {b : Nat} (hb : b ≤ top) :
    ((if negative then signBit else 0) + b) % signBit = b := by
  have hlt : b < signBit := hb.trans_lt top_lt_signBit
  cases negative with
  | false => rw [if_neg Bool.false_ne_true, Nat.zero_add, Nat.mod_eq_of_lt hlt]
  | true => rw [if_pos rfl, Nat.add_mod_left, Nat.mod_eq_of_lt hlt]

theorem toNat_toBits_ofRung (negative : Bool) {b : Nat} (hb : b ≤ top) :
    (ofRung negative b).toBits.toNat = (if negative then signBit else 0) + b := by
  have hlt : b < signBit := hb.trans_lt top_lt_signBit
  have hsmall : (if negative then signBit else 0) + b < UInt64.size := by
    change _ < signBit + signBit
    split <;> omega
  have hword : (UInt64.ofNat ((if negative then signBit else 0) + b)).toNat =
      (if negative then signBit else 0) + b := UInt64.toNat_ofNat_of_lt' hsmall
  rw [ofRung, toBits_ofBits (by rwa [hword, sign_add_mod negative hb]), hword]

theorem magnitude_ofRung (negative : Bool) {b : Nat} (hb : b ≤ top) :
    magnitude (ofRung negative b) = b := by
  rw [magnitude, toNat_toBits_ofRung negative hb, sign_add_mod negative hb]

theorem isNegative_ofRung (negative : Bool) {b : Nat} (hb : b ≤ top) :
    (ofFloat (ofRung negative b)).isNegative = negative := by
  have hlt : b < signBit := hb.trans_lt top_lt_signBit
  rw [isNegative_ofFloat (by rwa [magnitude_ofRung negative hb]),
    toNat_toBits_ofRung negative hb]
  cases negative with
  | false => exact decide_eq_false (by rw [if_neg Bool.false_ne_true]; omega)
  | true => exact decide_eq_true (Nat.le_add_right _ _)

theorem value?_ofRung (negative : Bool) {b : Nat} (hb : b ≤ top) :
    (ofFloat (ofRung negative b)).value? = some (withSign negative (rung b)) := by
  have hle : magnitude (ofRung negative b) ≤ top := by rwa [magnitude_ofRung negative hb]
  rw [value?_ofFloat hle, ← isNegative_ofFloat hle, isNegative_ofRung negative hb,
    magnitude_ofRung negative hb]

theorem eq_of_toBits_eq {x y : Float} (h : x.toBits = y.toBits) : x = y := by
  obtain ⟨⟨a, ha⟩⟩ := x
  obtain ⟨⟨b, hb⟩⟩ := y
  cases h
  rfl

/-- A double that is a number is that of its sign and its rung. -/
theorem eq_ofRung {x : Float} (h : magnitude x ≤ top) :
    x = ofRung (ofFloat x).isNegative (magnitude x) := by
  apply eq_of_toBits_eq
  rw [← UInt64.toNat_inj, toNat_toBits_ofRung _ h, isNegative_ofFloat h, magnitude]
  have hword := x.toBits.toNat_lt
  by_cases hsign : signBit ≤ x.toBits.toNat
  · rw [decide_eq_true hsign, if_pos rfl]
    simp only [signBit, Nat.pow_eq] at *
    omega
  · rw [decide_eq_false hsign, Nat.mod_eq_of_lt (by omega)]
    exact (Nat.zero_add _).symm

/-! ## Rounding -/

theorem abs_withSign_sub (negative : Bool) (s t : ℚ) :
    |withSign negative s - withSign negative t| = |s - t| := by
  cases negative with
  | false => rfl
  | true =>
      change |-s - -t| = |s - t|
      rw [neg_sub_neg, abs_sub_comm]

theorem abs_withSign_not_sub (negative : Bool) {s t : ℚ} (hs : 0 ≤ s) (ht : 0 ≤ t) :
    |withSign (!negative) s - withSign negative t| = s + t := by
  cases negative with
  | false =>
      change |-s - t| = s + t
      rw [abs_of_nonpos (by linarith)]
      ring
  | true =>
      change |s - -t| = s + t
      rw [abs_of_nonneg (by linarith)]
      ring

theorem rung_zero : rung 0 = 0 := by
  rw [rung, if_pos hidden_pos]
  simp

theorem rung_nonneg (b : Nat) : 0 ≤ rung b := by
  rw [← rung_zero]
  exact rung_strictMono.monotone (Nat.zero_le b)

/-- The double of the given sign and of the nearest rung is the nearest double.
Those of the other sign are on the far side of zero. -/
theorem IsNearest.roundsTo {t : ℚ} {b : Nat} (h : IsNearest t b) (ht : 0 ≤ t)
    (negative : Bool) : RoundsTo negative t (ofRung negative b) := by
  obtain ⟨hb, hnearest⟩ := h
  refine ⟨isNegative_ofRung negative hb, _, value?_ofRung negative hb, ?_⟩
  intro y w hw
  have hy := magnitude_le_of_value? hw
  rw [eq_ofRung hy, value?_ofRung _ hy] at hw
  cases hw
  rw [isEven_ofFloat (by rwa [magnitude_ofRung negative hb]),
    magnitude_ofRung negative hb, abs_withSign_sub]
  obtain ⟨hle, hties⟩ := hnearest (magnitude y) hy
  by_cases hsign : (ofFloat y).isNegative = negative
  · rw [hsign, abs_withSign_sub]
    exact ⟨hle, fun h => (hties h).imp_left fun hc => by rw [hc]⟩
  · have hother : (ofFloat y).isNegative = !negative := Bool.eq_not_of_ne hsign
    have hpos := rung_nonneg (magnitude y)
    rw [hother, abs_withSign_not_sub negative hpos ht]
    have hfar : |rung (magnitude y) - t| ≤ rung (magnitude y) + t :=
      abs_le.mpr ⟨by linarith, by linarith⟩
    refine ⟨hle.trans hfar, fun hsame => .inr ?_⟩
    -- Zero is between the two, and so it is as near.
    obtain ⟨hzero, hzeroties⟩ := hnearest 0 (Nat.zero_le _)
    have habs : |rung 0 - t| = t := by rw [rung_zero, zero_sub, abs_neg, abs_of_nonneg ht]
    rw [habs] at hzero hzeroties
    rcases hzeroties (by linarith) with rfl | heven
    · rfl
    · exact heven

theorem RoundsTo.isNearest {negative : Bool} {t : ℚ} {x : Float}
    (h : RoundsTo negative t x) :
    IsNearest t (magnitude x) ∧ x = ofRung negative (magnitude x) := by
  obtain ⟨hsign, v, hv, hnearest⟩ := h
  have hx := magnitude_le_of_value? hv
  have heq := eq_ofRung hx
  rw [hsign] at heq
  have hvalue := value?_ofRung negative hx
  rw [← heq, hv, Option.some_inj] at hvalue
  refine ⟨⟨hx, ?_⟩, heq⟩
  intro c hc
  obtain ⟨hle, hties⟩ := hnearest _ _ (value?_ofRung negative hc)
  rw [hvalue, abs_withSign_sub, abs_withSign_sub] at hle hties
  refine ⟨hle, fun hsame => ?_⟩
  rcases hties hsame with hsame | heven
  · left
    have hzero := abs_withSign_sub negative (rung c) (rung (magnitude x))
    rw [hsame, sub_self, abs_zero, eq_comm, abs_eq_zero, sub_eq_zero] at hzero
    exact rung_strictMono.injective hzero
  · exact .inr ((isEven_ofFloat hx).mp heven)

theorem RoundsTo.of_level {negative : Bool} {t t' : ℚ} {x : Float}
    (h : RoundsTo negative t' x) (hlevel : Level t t') (ht : 0 ≤ t) :
    RoundsTo negative t x := by
  obtain ⟨hnearest, hx⟩ := h.isNearest
  rw [hx]
  exact (hlevel.isNearest_iff.mpr hnearest).roundsTo ht negative

/-- A number has one nearest double of its sign. -/
theorem RoundsTo.unique {negative : Bool} {t : ℚ} {x y : Float}
    (hx : RoundsTo negative t x) (hy : RoundsTo negative t y) : x = y := by
  obtain ⟨hx, hxeq⟩ := hx.isNearest
  obtain ⟨hy, hyeq⟩ := hy.isNearest
  rw [hxeq, hyeq, hx.unique hy]

end HandleScript.Binary64
