import HandleScript.Number.Reader
import HandleScript.Number.Text
import HandleScript.Text.Blank

/-!
# Conversions between numbers and texts

A double becomes an integer by dropping its fraction, provided that the result fits in 64
bits. A text becomes a number when it is one apart from blanks around it.
-/

namespace HandleScript.Number

/-- The integer part of a double, if it fits in 64 bits. -/
def truncate? (x : Float) : Option Int64 :=
  match Binary64.ofFloat x with
  | .finite negative mantissa exponent =>
    toWord? (signed negative
      (mantissa * Nat.pow 2 exponent.toNat / Nat.pow 2 (-exponent).toNat))
  | _ => none

/-- The double nearest to a 64-bit integer. -/
def ofWord (n : Int64) : Float :=
  Binary64.nearest (n < 0) n.toInt.natAbs 1

/-- The integer that a text spells between blanks, if it fits in 64 bits. -/
def wordOfText? (s : String) : Option Int64 :=
  readWord? (Text.trimChars s.toList)

/-- The double that a text spells between blanks. -/
def doubleOfText? (s : String) : Option Float :=
  readDouble? (Text.trimChars s.toList)

end HandleScript.Number
