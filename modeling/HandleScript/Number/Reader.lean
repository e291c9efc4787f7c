import HandleScript.Number.Binary64

/-!
# Reading numbers

Decimal integers of 64 bits and decimal doubles. An integer is an optional sign and
digits. A double is an optional sign, then digits with an optional point among or around
them and an optional power of ten, or one of the names of the special values. Only the ten
ASCII digits count.
-/

namespace HandleScript.Number

/-- Whether a character is one of the ten ASCII digits. -/
def isDigit (c : Char) : Bool :=
  '0' ≤ c && c ≤ '9'

/-- The natural number that a list of digits denotes. -/
def digitsValue (cs : List Char) : Nat :=
  cs.foldl (fun n c => n * 10 + (c.toNat - '0'.toNat)) 0

/-- A list of at least one digit, as a natural number. -/
def readNat? (cs : List Char) : Option Nat :=
  if !cs.isEmpty && cs.all isDigit then some (digitsValue cs) else none

/-- An optional sign: whether it is a minus, and what follows it. -/
def readSign : List Char → Bool × List Char
  | '-' :: cs => (true, cs)
  | '+' :: cs => (false, cs)
  | cs => (false, cs)

/-- The integer of a magnitude and a sign. -/
def signed (negative : Bool) (n : Nat) : Int :=
  if negative then -(n : Int) else n

/-- A decimal integer with an optional sign, of any size. -/
def readInt? (cs : List Char) : Option Int :=
  let (negative, digits) := readSign cs
  (readNat? digits).map (signed negative)

/-- An integer as a 64-bit word, if it fits. -/
def toWord? (n : Int) : Option Int64 :=
  if Int64.minValue.toInt ≤ n ∧ n ≤ Int64.maxValue.toInt then
    some (Int64.ofInt n) else none

/-- A decimal integer with an optional sign that fits in 64 bits. -/
def readWord? (cs : List Char) : Option Int64 :=
  (readInt? cs).bind toWord?

/-- The double nearest to `± digits * 10 ^ exponent`. Beyond `10 ^ 310` and below `10 ^
(-330)` the result is known without the power of ten. -/
def scaled (negative : Bool) (digits : Nat) (exponent : Int) : Float :=
  let size : Int := (Nat.toDigits 10 digits).length + exponent
  if digits = 0 || size < -330 then Binary64.nearest negative 0 1
  else if 310 < size then Binary64.infinity negative
  else Binary64.nearest negative (digits * Nat.pow 10 exponent.toNat)
    (Nat.pow 10 (-exponent).toNat)

/-- No double and no midpoint between two doubles has as many significant digits as
this. -/
def ampleDigits : Nat := 800

/-- The double nearest to the number that digits denote, times `10 ^ exponent`. Of the
digits beyond an ample number it only matters whether they are all zero. -/
def ofDigits (negative : Bool) (digits : List Char) (exponent : Int) : Float :=
  let digits := digits.dropWhile (· = '0')
  let rest := digits.drop ampleDigits
  if rest.isEmpty then scaled negative (digitsValue digits) exponent
  else
    let last := if rest.all (· = '0') then '0' else '1'
    scaled negative (digitsValue (digits.take ampleDigits ++ [last]))
      (exponent + (rest.length - 1))

/-- Where the reading of an exponent stops: digits that follow once it has reached this
are passed over. -/
def exponentLimit : Nat := 65536

/-- The exponent that a list of digits denotes. -/
def exponentValue (cs : List Char) : Nat :=
  cs.foldl (fun n c => if n < exponentLimit then n * 10 + (c.toNat - '0'.toNat) else n) 0

/-- The power of ten at the end of a double: nothing, or a mark, an optional sign and
digits. -/
def readExponent? : List Char → Option Int
  | [] => some 0
  | mark :: cs =>
    let (negative, digits) := readSign cs
    if (mark = 'e' || mark = 'E') && !digits.isEmpty && digits.all isDigit then
      some (signed negative (exponentValue digits))
    else none

/-- The digits after the point, if there is a point, and what follows them. -/
def readFraction : List Char → List Char × List Char
  | '.' :: cs => (cs.takeWhile isDigit, cs.dropWhile isDigit)
  | cs => ([], cs)

/-- An unsigned decimal double. -/
def readMagnitude? (negative : Bool) (cs : List Char) : Option Float :=
  let whole := cs.takeWhile isDigit
  let (fraction, rest) := readFraction (cs.dropWhile isDigit)
  if whole.isEmpty && fraction.isEmpty then none
  else
    (readExponent? rest).map fun exponent =>
      ofDigits negative (whole ++ fraction) (exponent - fraction.length)

/-- A special value by its name, in any case. -/
def readSpecial? (negative : Bool) (cs : List Char) : Option Float :=
  let name := String.ofList (cs.map Char.toLower)
  if name = "inf" || name = "infinity" then some (Binary64.infinity negative)
  else if name = "nan" then some Binary64.notANumber
  else none

/-- A decimal double, or a special value by its name. -/
def readDouble? (cs : List Char) : Option Float :=
  let (negative, magnitude) := readSign cs
  match readSpecial? negative magnitude with
  | some x => some x
  | none => readMagnitude? negative magnitude

end HandleScript.Number
