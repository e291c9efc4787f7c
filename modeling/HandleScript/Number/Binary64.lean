/-!
# Double-precision numbers as integers

A finite double is `± mantissa * 2 ^ exponent` with a mantissa below `2 ^ 53`. This module
takes doubles apart into that form and rounds fractions of natural numbers back to the
nearest double, so that reading, writing and remainders are exact integer arithmetic.
-/

namespace HandleScript

/-- A double taken apart. -/
inductive Binary64 where
  /-- Not a number. -/
  | nan
  /-- An infinity. -/
  | infinite (negative : Bool)
  /-- The number `± mantissa * 2 ^ exponent`. -/
  | finite (negative : Bool) (mantissa : Nat) (exponent : Int)
deriving DecidableEq, Repr

namespace Binary64

/-- The mantissa of a normal number is at least this and below twice this. -/
def hidden : Nat := Nat.pow 2 52

/-- The exponent of the subnormal numbers and of the smallest normal ones. -/
def leastExponent : Int := -1074

/-- Takes apart the 64 bits of a double. -/
def ofBits (bits : UInt64) : Binary64 :=
  let n := bits.toNat
  let negative := Nat.pow 2 63 ≤ n
  let field := n / hidden % 2048
  let fraction := n % hidden
  if field = 2047 then
    if fraction = 0 then .infinite negative else .nan
  else if field = 0 then .finite negative fraction leastExponent
  else .finite negative (hidden + fraction) (leastExponent + (field - 1 : Nat))

/-- Takes a double apart. -/
def ofFloat (x : Float) : Binary64 :=
  ofBits x.toBits

/-- The double `± mantissa * 2 ^ exponent`, for a mantissa up to `2 ^ 53` that is at least
`2 ^ 52` unless the exponent is the least one; too large a number is infinite. -/
def assemble (negative : Bool) (mantissa : Nat) (exponent : Int) : Float :=
  let magnitude := (exponent - leastExponent).toNat * hidden + mantissa
  let sign := if negative then Nat.pow 2 63 else 0
  Float.ofBits (UInt64.ofNat (sign + min magnitude (2047 * hidden)))

/-- The infinite double of a sign. -/
def infinity (negative : Bool) : Float :=
  assemble negative 0 (leastExponent + 2047)

/-- The double that is not a number. -/
def notANumber : Float :=
  Float.ofBits (UInt64.ofNat (2047 * hidden + hidden / 2))

/-- The quotient `num / den` rounded to the nearest integer; a half goes to the even
neighbour. -/
def roundHalfEven (num den : Nat) : Nat :=
  let q := num / den
  let rest := 2 * (num % den)
  if rest < den || (rest = den && q % 2 = 0) then q else q + 1

/-- The exponent `e` for which `num / den` lies from `2 ^ e` to below `2 ^ (e + 1)`. -/
def floorLog2 (num den : Nat) : Int :=
  let estimate : Int := (num.log2 : Int) - (den.log2 : Int)
  if num * Nat.pow 2 (-estimate).toNat < den * Nat.pow 2 estimate.toNat then
    estimate - 1 else estimate

/-- The double nearest to the fraction `± num / den`; of two equally near ones, that with
the even mantissa. -/
def nearest (negative : Bool) (num den : Nat) : Float :=
  if num = 0 || den = 0 then assemble negative 0 leastExponent
  else
    let exponent := max leastExponent (floorLog2 num den - 52)
    let mantissa := roundHalfEven (num * Nat.pow 2 (-exponent).toNat)
      (den * Nat.pow 2 exponent.toNat)
    assemble negative mantissa exponent

/-- Whether the number is an integer. -/
def isIntegral : Binary64 → Bool
  | .finite _ mantissa exponent => mantissa % Nat.pow 2 (-exponent).toNat = 0
  | _ => false

/-- The remainder of the truncating division of two doubles, which is exact and has the
sign of the dividend. -/
def remainder (x y : Float) : Float :=
  match ofFloat x, ofFloat y with
  | .finite negative a p, .finite _ b q =>
    if b = 0 then notANumber
    else
      let least := min p q
      let rest := (a * Nat.pow 2 (p - least).toNat) % (b * Nat.pow 2 (q - least).toNat)
      nearest negative (rest * Nat.pow 2 least.toNat) (Nat.pow 2 (-least).toNat)
  | .finite _ _ _, .infinite _ => x
  | _, _ => notANumber

end Binary64

end HandleScript
