import HandleScript.Number.Binary64

/-!
# Shortest decimals

The decimal with the fewest digits that reads back as a given double. The reals that round
to the double form an interval; for one digit, two digits and so on, the two neighbours of
the double on the grid of decimals with that many digits are tried, and the first grid
with a neighbour inside the interval gives the answer. Of two such neighbours the nearer
one is taken, and the upper one when both are equally near.
-/

namespace HandleScript

/-- The decimal `digits * 10 ^ exponent`. -/
structure Decimal where
  digits : Nat
  exponent : Int
deriving DecidableEq, Repr, Inhabited

namespace Decimal

/-- Moves the zeros at the end of `digits` into the exponent; `fuel` bounds their
number. -/
def dropZeros : (fuel : Nat) → Decimal → Decimal
  | 0, d => d
  | fuel + 1, d =>
    if d.digits ≠ 0 ∧ d.digits % 10 = 0 then
      dropZeros fuel ⟨d.digits / 10, d.exponent + 1⟩ else d

/-- How often `num` has to be multiplied by ten to reach `den`, at most `fuel` times. -/
def leadingZeros (den : Nat) : (fuel : Nat) → (num : Nat) → Nat
  | 0, _ => 0
  | fuel + 1, num => if den ≤ num then 0 else leadingZeros den fuel (num * 10) + 1

/-- The number of digits before the point of `num / den`; zero or negative for a number
below one, by the zeros that follow the point. -/
def magnitude (num den : Nat) : Int :=
  if den ≤ num then (Nat.toDigits 10 (num / den)).length
  else 1 - (leadingZeros den 400 num : Nat)

/-- An interval of positive rationals around `value`, all over one denominator. -/
structure Interval where
  low : Nat
  value : Nat
  high : Nat
  den : Nat
  /-- Whether the two ends belong to the interval. -/
  closed : Bool

/-- The reals that round to the double `mantissa * 2 ^ exponent`. Below a power of two the
next double is only half as far as above it. -/
def Interval.ofDouble (mantissa : Nat) (exponent : Int) : Interval :=
  let scale := Nat.pow 2 (exponent - 2).toNat
  let below := if mantissa = Binary64.hidden then 1 else 2
  { low := (4 * mantissa - below) * scale
    value := 4 * mantissa * scale
    high := (4 * mantissa + 2) * scale
    den := Nat.pow 2 (2 - exponent).toNat
    closed := mantissa % 2 = 0 }

/-- Whether `num / den'` lies in the interval, where `den' * up` is the interval's
denominator times `down`: the point is given as `point`, to be compared with the
interval's numbers times `up`. -/
def Interval.holds (i : Interval) (up point : Nat) : Bool :=
  if i.closed then i.low * up ≤ point && point ≤ i.high * up
  else i.low * up < point && point < i.high * up

/-- The neighbour of the interval's value with `count` digits that lies in the interval,
if there is one. -/
def Interval.onGrid (i : Interval) (top : Int) (count : Nat) : Option Decimal :=
  let exponent := top - count
  let up := Nat.pow 10 (-exponent).toNat
  let step := i.den * Nat.pow 10 exponent.toNat
  let value := i.value * up
  let lower := value / step
  let lowerFits := i.holds up (lower * step)
  let upperFits := i.holds up ((lower + 1) * step)
  if upperFits && (!lowerFits || step ≤ 2 * (value % step)) then
    some ⟨lower + 1, exponent⟩
  else if lowerFits then some ⟨lower, exponent⟩
  else none

/-- The first answer among the grids with `count` and more digits, on `fuel` grids. -/
def Interval.search (i : Interval) (top : Int) :
    (fuel : Nat) → (count : Nat) → Option Decimal
  | 0, _ => none
  | fuel + 1, count =>
    match i.onGrid top count with
    | some d => some d
    | none => search i top fuel (count + 1)

/-- The decimal with the fewest digits that rounds to `mantissa * 2 ^ exponent`. -/
def shortest (mantissa : Nat) (exponent : Int) : Decimal :=
  if mantissa = 0 then ⟨0, 0⟩
  else
    let i := Interval.ofDouble mantissa exponent
    match i.search (magnitude i.value i.den) 18 1 with
    | some d => dropZeros 20 d
    | none => ⟨0, 0⟩

end Decimal

end HandleScript
