import HandleScript.Number.Shortest

/-!
# How doubles are written

A double is written in one of four ways. A literal shows its shortest digits without an
exponent. A value that a script prints does the same, except that an integral one shows
all of its digits and ends in `.0`. The token listing and the program listing use an
exponent outside a range of magnitudes that each chooses for itself.
-/

namespace HandleScript.Number

/-- `count` zeros. -/
def zeros (count : Nat) : String :=
  "".pushn '0' count

/-- A decimal written with a point where it needs one, and never with an exponent. -/
def positional (d : Decimal) : String :=
  let shown := toString d.digits
  if 0 ≤ d.exponent then shown ++ zeros d.exponent.toNat
  else
    let places := (-d.exponent).toNat
    if places < shown.length then
      String.ofList (shown.toList.take (shown.length - places)) ++ "." ++
        String.ofList (shown.toList.drop (shown.length - places))
    else "0." ++ zeros (places - shown.length) ++ shown

/-- A decimal with one digit before the point and a power of ten after the mark `e`. -/
def scientific (d : Decimal) : String :=
  match (toString d.digits).toList with
  | [] => ""
  | first :: rest =>
    let fraction := if rest.isEmpty then "" else "." ++ String.ofList rest
    first.toString ++ fraction ++ "e" ++ toString (d.exponent + rest.length)

/-- The sign of a number, empty for a positive one. -/
def signText (negative : Bool) : String :=
  if negative then "-" else ""

/-- The text of an infinity or of a value that is not a number. -/
def specialText : Binary64 → String
  | .nan => "NaN"
  | .infinite negative => signText negative ++ "inf"
  | .finite .. => ""

/-- A double as literals show it: the fewest digits that read back, never an exponent. -/
def literalText (x : Float) : String :=
  match Binary64.ofFloat x with
  | .finite negative mantissa exponent =>
    signText negative ++ positional (Decimal.shortest mantissa exponent)
  | other => specialText other

/-- A double as scripts print it: an integral one with all of its digits and `.0`, any
other one as a literal. -/
def displayText (x : Float) : String :=
  match Binary64.ofFloat x with
  | .finite negative mantissa exponent =>
    if (Binary64.finite negative mantissa exponent).isIntegral then
      signText negative ++ toString
        (mantissa * Nat.pow 2 exponent.toNat / Nat.pow 2 (-exponent).toNat) ++ ".0"
    else signText negative ++ positional (Decimal.shortest mantissa exponent)
  | other => specialText other

/-- Which decimals a listing writes without an exponent, told by the number of digits
before the point. -/
structure ListingFormat where
  /-- The least number of digits before the point; it is zero or negative for numbers
  below one. -/
  least : Int
  /-- The greatest number of digits before the point. -/
  greatest : Int

/-- A finite double in a listing: without an exponent inside the format's range, where an
integral number ends in `.0`, and with an exponent outside of it. -/
def listingText (format : ListingFormat) (negative : Bool) (mantissa : Nat)
    (exponent : Int) : String :=
  let d := Decimal.shortest mantissa exponent
  let before : Int := (toString d.digits).length + d.exponent
  let body :=
    if d.digits = 0 then "0.0"
    else if format.least ≤ before && before ≤ format.greatest then
      if 0 ≤ d.exponent then positional d ++ ".0" else positional d
    else scientific d
  signText negative ++ body

/-- The token listing writes the numbers from a ten-thousandth to below `10 ^ 16` without
an exponent. -/
def tokenListing : ListingFormat := ⟨-3, 16⟩

/-- The program listing writes the numbers from a hundred-thousandth to below `10 ^ 16`
without an exponent. -/
def programListing : ListingFormat := ⟨-4, 16⟩

/-- A double in the token listing. -/
def tokenListingText (x : Float) : String :=
  match Binary64.ofFloat x with
  | .finite negative mantissa exponent =>
    listingText tokenListing negative mantissa exponent
  | other => specialText other

/-- A double in the program listing, where only finite numbers have a text. -/
def programListingText? (x : Float) : Option String :=
  match Binary64.ofFloat x with
  | .finite negative mantissa exponent =>
    some (listingText programListing negative mantissa exponent)
  | _ => none

end HandleScript.Number
