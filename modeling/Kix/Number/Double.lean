/-!
# Doubles as exact numbers

A finite double is a whole number of **units**, a unit being the least
positive double `2⁻¹⁰⁷⁴`. Counting in units turns every question about the
value of a double – is it integral, which integer is nearest, which decimal
lies between it and its neighbour – into one about natural numbers, and no
rounding happens on the way.

The low 63 bits of a double are its **magnitude**. Read as a natural number
the magnitude numbers the nonnegative doubles in increasing order, so two
finite doubles of one sign are equal exactly when their magnitudes are;
`Magnitude.units` says how many units the double of a magnitude is worth.
-/

namespace Kix

/-- A power of two. -/
abbrev pow2 (exponent : Nat) : Nat := Nat.pow 2 exponent

/-- A power of ten. -/
abbrev pow10 (exponent : Nat) : Nat := Nat.pow 10 exponent

/-- The low 63 bits of a double, read as a natural number. -/
abbrev Magnitude := Nat

namespace Magnitude

/-- How many units make one: the least positive double is `1 / scale`. -/
def scale : Nat := pow2 1074

/-- The magnitude of infinity. Smaller ones are finite, larger ones are not
numbers. -/
def infinity : Magnitude := 2047 * pow2 52

/-- **The value of a finite magnitude, in units.** The top eleven bits are
the exponent and the other fifty-two the fraction; below the least normal
double there is no hidden bit. -/
def units (m : Magnitude) : Nat :=
  if m / pow2 52 = 0 then m % pow2 52
  else (pow2 52 + m % pow2 52) * pow2 (m / pow2 52 - 1)

/-- The quotient rounded to the nearest whole number, a half going to the
even neighbour. -/
def divNearestEven (num den : Nat) : Nat :=
  let quotient := num / den
  let remainder := num % den
  if 2 * remainder > den ∨ (2 * remainder = den ∧ quotient % 2 = 1) then quotient + 1
  else quotient

/-- **The magnitude nearest to `num / den` units**, a half going to the one
whose last bit is zero.

Doubles from `2 ^ (52 + s)` units on are `2 ^ s` units apart, so the quotient
is rounded to a multiple of `2 ^ s`; counting these multiples from `s * 2 ^ 52`
numbers the doubles without a gap, also where rounding reaches the next power
of two. What lies beyond the largest finite double becomes infinity. -/
def nearest (num den : Nat) : Magnitude :=
  let shift := (num / den).log2 - 52
  min infinity (shift * pow2 52 + divNearestEven num (den * pow2 shift))

/-- The whole number nearest to a magnitude, a half going up. -/
def nearestWhole (m : Magnitude) : Nat := (2 * m.units + scale) / (2 * scale)

/-- **The rounded magnitude**: the double nearest to that whole number. -/
def rounded (m : Magnitude) : Magnitude := nearest (m.nearestWhole * scale) 1

/-- The nonnegative double of a magnitude. -/
def toFloat (m : Magnitude) : Float := Float.ofBits (UInt64.ofNat m)

end Magnitude

/-- What a double stands for: a signed finite magnitude, a signed infinity, or
no number at all. -/
inductive Double where
  | finite (negative : Bool) (magnitude : Magnitude)
  | infinite (negative : Bool)
  | notANumber
  deriving DecidableEq, Repr

namespace Double

/-- Reading a double off its bits: the top bit is the sign, the others are the
magnitude. -/
def ofBits (bits : Nat) : Double :=
  let negative := bits / pow2 63 % 2 == 1
  let magnitude := bits % pow2 63
  if magnitude < Magnitude.infinity then .finite negative magnitude
  else if magnitude = Magnitude.infinity then .infinite negative
  else .notANumber

/-- What a machine double stands for. -/
def ofFloat (x : Float) : Double := ofBits x.toBits.toNat

/-- **Rounding to a whole number**, a half going away from zero. The sign is
kept, also that of a zero, and what is not finite stays what it is. -/
def round : Double → Double
  | finite negative m => finite negative m.rounded
  | other => other

/-- Whether a double is finite and nearer to zero than a whole number is. -/
def isWithin (bound : Nat) : Double → Bool
  | finite _ m => m.units < bound * Magnitude.scale
  | infinite _ | notANumber => false

/-- The integer with a sign and a size. -/
def integer (negative : Bool) (size : Nat) : Int := if negative then -(size : Int) else size

/-- **Converting to an integer of 64 bits.** A fraction is dropped, what lies
beyond an end of the range goes to that end, and what is no number becomes
zero. -/
def toInt64 : Double → Int64
  | finite negative m => .ofIntClamp (integer negative (m.units / Magnitude.scale))
  | infinite negative => if negative then .minValue else .maxValue
  | notANumber => 0

end Double

end Kix
