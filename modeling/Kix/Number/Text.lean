import Kix.Number.Decimal

/-!
# The texts of a number

A number is written in four ways, all without loss of the digits that matter:

* **displayed**, as a program prints it: an integral number by all its digits,
  any other by its shortest decimal, never with an exponent;
* **as a literal** of a syntax tree: like displayed, with a point and a zero
  behind an integral number;
* **spliced** into a string: rounded to the nearest integer, a half away from
  zero, and written as an integer, or without decimal places if it is large;
* **dumped** in a token listing: the shortest decimal, with an exponent where
  the point would be far from the digits.
-/

namespace Kix.Number

/-- `-` in front of what is negative. -/
def signed (negative : Bool) (text : List Char) : List Char :=
  if negative then '-' :: text else text

/-- A magnitude is integral when it is a whole number of ones. -/
def isIntegral (m : Magnitude) : Bool := m.units % Magnitude.scale == 0

/-- The text of what is not finite. -/
def nonfinite : Double → List Char
  | .infinite negative => signed negative "inf".toList
  | _ => "NaN".toList

/-- The digits of a number that is not negative without decimal places: its
nearest whole number, a half going to the even neighbour. -/
def wholeNumeral (m : Magnitude) : List Char :=
  Decimal.numeral (Magnitude.divNearestEven m.units Magnitude.scale)

/-- **The text of a number without decimal places.** Negative zero keeps its
sign. -/
def wholeText : Double → List Char
  | .finite negative m => signed negative (wholeNumeral m)
  | other => nonfinite other

/-- The text of an integer, which has no negative zero. -/
def integerText (z : Int) : List Char := signed (decide (z < 0)) (Decimal.numeral z.natAbs)

/-- The displayed text of a number that is not negative. -/
def displayMagnitude (m : Magnitude) : List Char :=
  if isIntegral m then wholeNumeral m
  else (Decimal.shortest .up m).positional

/-- **The text that a program prints.** Negative zero keeps its sign. -/
def display (x : Float) : String :=
  .ofList <| match Double.ofFloat x with
    | .finite negative m => signed negative (displayMagnitude m)
    | other => nonfinite other

/-- **The text of a number in a syntax tree**, which always shows a point. -/
def literal (x : Float) : String :=
  .ofList <| match Double.ofFloat x with
    | .finite negative m =>
      signed negative (if isIntegral m then displayMagnitude m ++ ".0".toList
        else displayMagnitude m)
    | other => nonfinite other

/-- **The text that `+` splices into a string.** The number is rounded. Below
`2 ^ 53` it is then converted to an integer and written as that, so that zero
has no sign; from there on it is written without decimal places. -/
def spliced (x : Float) : String :=
  let rounded := (Double.ofFloat x).round
  .ofList <| if rounded.isWithin (pow2 53) then integerText rounded.toInt64.toInt
    else wholeText rounded

/-- A decimal in scientific notation with a signed exponent. -/
def scientific (d : Decimal) : List Char :=
  let text := Decimal.numeral d.digits
  let exponent := d.exponent + text.length - 1
  let mantissa := match text with
    | first :: second :: others => first :: '.' :: second :: others
    | short => short
  mantissa ++ 'e' :: (if exponent < 0 then '-' else '+') :: Decimal.numeral exponent.natAbs

/-- **The text of a literal in a token listing.** Numerals with the point up
to sixteen digits behind their start or less than five zeros before it are
positional, and a whole one shows `.0`; the others are scientific. What is not
finite has no text. -/
def dumped? (x : Float) : Option String :=
  match Double.ofFloat x with
  | .finite negative m =>
    if m = 0 then some (.ofList (signed negative "0.0".toList))
    else
      let d := Decimal.shortest .even m
      let point := d.exponent + Decimal.digitCount d.digits
      let text :=
        if -5 < point ∧ point ≤ 16 then
          if 0 ≤ d.exponent then d.positional ++ ".0".toList else d.positional
        else scientific d
      some (.ofList (signed negative text))
  | _ => none

/-- The double nearest to a numeral with the given digits before and after the
point. -/
def ofNumeral (whole fraction : List Char) : Float :=
  (Decimal.ofNumeral whole fraction).nearest.toFloat

end Kix.Number
