import Kix.Number.Double

/-!
# Decimals

A decimal is a natural number of digits and a power of ten. Reading one gives
the nearest double (`Decimal.nearest`); writing one without an exponent gives
its **positional** text (`Decimal.positional`).

The **shortest** decimal of a double is one with the fewest digits among those
that read back as that double, and of two such decimals the nearer. It is
found by asking exactly that: on the grid of `n`-digit decimals only the two
neighbours of the double can qualify when any does, and both are tried by
reading them.
-/

namespace Kix

/-- The number `digits · 10 ^ exponent`. -/
structure Decimal where
  digits : Nat
  exponent : Int
  deriving DecidableEq, Repr

namespace Decimal

/-- The magnitude nearest to a decimal, ties to even. -/
def nearest (d : Decimal) : Magnitude :=
  Magnitude.nearest (d.digits * pow10 d.exponent.toNat * Magnitude.scale)
    (pow10 (-d.exponent).toNat)

/-- The digits of a natural number, most significant first. -/
def numeral (n : Nat) : List Char := Nat.toDigits 10 n

/-- The length of a natural number's numeral. -/
def digitCount (n : Nat) : Nat := (numeral n).length

/-- `count` zeros. -/
def zeros (count : Nat) : List Char := List.replicate count '0'

/-- The same number without trailing zeros among its digits; zero keeps its
only digit. -/
def trim (d : Decimal) : Decimal :=
  if 0 < d.digits ∧ d.digits % 10 = 0 then trim ⟨d.digits / 10, d.exponent + 1⟩
  else d
termination_by d.digits
decreasing_by omega

/-- **The decimal written out without an exponent**: digits and zeros when it
is whole, and otherwise a point in front of the last `-exponent` digits, with
at least one digit before it. -/
def positional (d : Decimal) : List Char :=
  let text := numeral d.digits
  let places := (-d.exponent).toNat
  if places = 0 then text ++ zeros d.exponent.toNat
  else if places < text.length then
    text.take (text.length - places) ++ '.' :: text.drop (text.length - places)
  else '0' :: '.' :: zeros (places - text.length) ++ text

/-- The decimal that a run of digits and a second run after the point spell. -/
def ofNumeral (whole fraction : List Char) : Decimal where
  digits := (whole ++ fraction).foldl (fun n c => 10 * n + (c.toNat - '0'.toNat)) 0
  exponent := -(fraction.length : Int)

/-! ## The shortest decimal of a double -/

/-- Which of two equally near neighbours a writer prefers. -/
inductive Tie where
  /-- The larger one. -/
  | up
  /-- The one whose last digit is even. -/
  | even
  deriving DecidableEq, Repr

/-- How many digits stand before the point in the value of a magnitude:
`10 ^ (k - 1) ≤ value < 10 ^ k`. It is zero or negative below one, and 340
places are enough to see the first digit of any positive double. -/
def pointPosition (m : Magnitude) : Int :=
  (digitCount (m.units * pow10 340 / Magnitude.scale) : Int) - 340

/-- **The neighbour of a magnitude on the grid of multiples of
`10 ^ exponent`** that reads back as that magnitude, if one does. When both do
it is the nearer one. -/
def onGrid (tie : Tie) (m : Magnitude) (exponent : Int) : Option Decimal :=
  let num := m.units * pow10 (-exponent).toNat
  let den := Magnitude.scale * pow10 exponent.toNat
  let lower : Decimal := ⟨num / den, exponent⟩
  let upper : Decimal := ⟨num / den + 1, exponent⟩
  let remainder := num % den
  let preferLower := 2 * remainder < den ∨
    (2 * remainder = den ∧ tie = .even ∧ lower.digits % 2 = 0)
  if lower.nearest = m then
    if upper.nearest = m ∧ ¬ preferLower then some upper else some lower
  else if upper.nearest = m then some upper
  else none

/-- The exact value of a magnitude: a unit is `5 ^ 1074 / 10 ^ 1074`. -/
def exact (m : Magnitude) : Decimal := ⟨m.units * Nat.pow 5 1074, -1074⟩

/-- **The shortest decimal that reads back as a magnitude.** Seventeen digits
tell any two doubles apart, so the exact value at the end is never needed; it
is there because it reads back without further argument. -/
def shortest (tie : Tie) (m : Magnitude) : Decimal :=
  let point := pointPosition m
  (((List.range' 1 17).findSome? fun (n : Nat) => onGrid tie m (point - n)).getD (exact m)).trim

end Decimal

end Kix
