import Kix.Proofs.DoubleBits
import Kix.Proofs.NearestDoubles
import Kix.Value

/-!
# Numbers in strings

A number that is joined to a string is rounded to a whole number, a half going away from zero, and
the rounded double is written in one of two ways. Below `2 ^ 53` it is converted to an integer of
64 bits, which has no negative zero, and written as that. From `2 ^ 53` on it is written as it
stands, without decimal places and with the sign that it has.

What this gives can be said of the exact rational value of a double, without either of the two
ways (`Number.IsNearestInteger`, `Number.IsNumeralOf`), and it is the same law on both of them
(`Number.splicing_rounds_exactly`). The reason is that rounding stays among the doubles
(`Magnitude.units_rounded`): below `2 ^ 53` every integer is a double, and from `2 ^ 52` on every
double is an integer. So the rounded double is a whole number exactly, its conversion drops
nothing and stays inside the range (`Number.toInt_toInt64`), and no decimal places are lost
(`Number.wholeNumeral_of_units`).
-/

namespace Kix

/-! ## Numerals -/

namespace Number

/-- **The canonical numeral of an integer**: its digits without a leading zero, behind a sign if
the integer is negative. -/
def IsNumeralOf (z : ℤ) (text : List Char) : Prop :=
  ∃ digits, text = signed (decide (z < 0)) digits ∧ digits ≠ []
    ∧ (∀ c ∈ digits, c.isDigit = true) ∧ spelled digits = z.natAbs
    ∧ (digits.head? = some '0' → digits = ['0'])

theorem spelled_numeral (n : Nat) : spelled (Decimal.numeral n) = n := by
  have digits := digits_ofNumeral (Decimal.numeral n) []
  rw [List.append_nil] at digits
  rw [← digits]
  show ((Decimal.numeral n) ++ []).foldl _ 0 = n
  rw [List.append_nil]
  exact Nat.ofDigitChars_ten_toDigits

/-- Only zero begins with a zero. -/
theorem head?_numeral {n : Nat} (pos : 0 < n) : (Decimal.numeral n).head? ≠ some '0' := by
  unfold Decimal.numeral
  induction n using Nat.strongRecOn with
  | _ n ih =>
    rcases Nat.lt_or_ge n 10 with small | large
    · rw [Nat.toDigits_of_lt_base small]
      intro leading
      have digit := Nat.toNat_digitChar_sub_48_of_lt_ten small
      rw [Option.some.inj leading] at digit
      exact Nat.ne_of_gt pos digit.symm
    · rw [Nat.toDigits_of_base_le (by decide) large,
        List.head?_append_of_ne_nil _ Nat.toDigits_ne_nil]
      exact ih (n / 10) (by omega) (by omega)

/-- The text of an integer is its canonical numeral. -/
theorem isNumeralOf_integerText (z : ℤ) : IsNumeralOf z (integerText z) := by
  refine ⟨Decimal.numeral z.natAbs, rfl, Nat.toDigits_ne_nil,
    fun c mem => Nat.isDigit_of_mem_toDigits (by decide) (by decide) mem,
    spelled_numeral z.natAbs, fun leading => ?_⟩
  obtain zero | pos := Nat.eq_zero_or_pos z.natAbs
  · rw [zero]
    rfl
  · exact absurd leading (head?_numeral pos)

/-! ## The nearest integer -/

/-- **The integer nearest to a number**, and of two equally near ones the one further from zero. -/
structure IsNearestInteger (z : ℤ) (q : ℚ) : Prop where
  nearest : ∀ z' : ℤ, |z - q| ≤ |z' - q|
  away : ∀ z' : ℤ, z' ≠ z → |z' - q| = |z - q| → |q| < |(z : ℚ)|

/-- Rounding is symmetric. -/
theorem IsNearestInteger.neg {z : ℤ} {q : ℚ} (h : IsNearestInteger z q) :
    IsNearestInteger (-z) (-q) := by
  have mirror (z' : ℤ) (q : ℚ) : |((-z' : ℤ) : ℚ) - -q| = |z' - q| := by
    rw [Int.cast_neg, neg_sub_neg, abs_sub_comm]
  have back (z' : ℤ) : |(z' : ℚ) - -q| = |((-z' : ℤ) : ℚ) - q| := by
    rw [← mirror (-z') q, neg_neg]
  constructor
  · intro z'
    rw [mirror, back]
    exact h.nearest (-z')
  · intro z' other tie
    rw [mirror, back] at tie
    rw [Int.cast_neg, abs_neg, abs_neg]
    exact h.away (-z') (fun same => other (by rw [← same, neg_neg])) tie

/-- A number that is less than a half above a whole number, or at most a half below it. -/
theorem isNearestInteger_of_bounds {k : Nat} {v : ℚ} (nonneg : 0 ≤ v) (low : k - 1 / 2 ≤ v)
    (high : v < k + 1 / 2) : IsNearestInteger k v := by
  have near : |((k : ℤ) : ℚ) - v| ≤ 1 / 2 := by
    rw [Int.cast_natCast]
    exact abs_le.2 ⟨by linarith, by linarith⟩
  have far (z' : ℤ) (other : z' ≠ k) : 1 / 2 ≤ |z' - v| := by
    have apart : (1 : ℚ) ≤ |(z' : ℚ) - (k : ℤ)| := by
      exact_mod_cast Int.one_le_abs (sub_ne_zero.2 other)
    have triangle := abs_sub_le (z' : ℚ) v (k : ℤ)
    rw [abs_sub_comm v] at triangle
    linarith
  constructor
  · intro z'
    by_cases same : z' = k
    · rw [same]
    · exact near.trans (far z' same)
  · intro z' other tie
    -- both are a half away, and so the number is below the nearest integer
    have half := le_antisymm near (tie ▸ far z' other)
    rw [Int.cast_natCast] at half ⊢
    rw [abs_of_nonneg nonneg, abs_of_nonneg (Nat.cast_nonneg k)]
    rcases abs_cases ((k : ℚ) - v) with ⟨is, -⟩ | ⟨is, -⟩ <;> linarith

end Number

namespace Magnitude

variable {m : Magnitude} {k : Nat}

theorem zero_lt_scale : 0 < scale := by
  unfold scale
  exact pow2_pos 1074

/-- Rounding adds a half and drops the fraction. -/
theorem nearestWhole_bounds (m : Magnitude) :
    2 * scale * m.nearestWhole ≤ 2 * m.units + scale
    ∧ 2 * m.units + scale < 2 * scale * m.nearestWhole + 2 * scale := by
  have whole := Nat.div_add_mod (2 * m.units + scale) (2 * scale)
  have rest := Nat.mod_lt (2 * m.units + scale) (Nat.mul_pos two_pos zero_lt_scale)
  unfold nearestWhole
  generalize scale = unit at *
  omega

/-- **A magnitude is rounded to its nearest integer**, a half going up. -/
theorem isNearestInteger_nearestWhole (m : Magnitude) :
    Number.IsNearestInteger m.nearestWhole m.value := by
  obtain ⟨low, high⟩ := nearestWhole_bounds m
  have pos := scale_pos
  have low' : (2 * scale * m.nearestWhole : ℚ) ≤ 2 * m.units + scale := by exact_mod_cast low
  have high' : (2 * m.units + scale : ℚ) < 2 * scale * m.nearestWhole + 2 * scale := by
    exact_mod_cast high
  unfold value
  generalize (scale : ℚ) = unit at *
  refine Number.isNearestInteger_of_bounds (div_nonneg (Nat.cast_nonneg _) pos.le) ?_ ?_
  · rw [le_div_iff₀ pos]
    linarith
  · rw [div_lt_iff₀ pos]
    linarith

/-- A whole number of units is its own nearest. -/
theorem nearestWhole_of_units (whole : m.units = k * scale) : m.nearestWhole = k := by
  have pos := zero_lt_scale
  unfold nearestWhole
  rw [whole]
  generalize scale = unit at *
  refine Nat.div_eq_of_lt_le ?_ ?_
  · linarith [Nat.mul_comm k (2 * unit)]
  · linarith [Nat.mul_comm k (2 * unit)]

/-- Every whole number below `2 ^ 53` is a double. -/
theorem exists_units_eq (small : k < pow2 53) :
    ∃ m : Magnitude, m < infinity ∧ m.units = k * scale := by
  have double : pow2 53 = pow2 52 + pow2 52 := rfl
  obtain rfl | pos := Nat.eq_zero_or_pos k
  · exact ⟨0, by decide, by rw [units_of_lt (pow2_pos 52), Nat.zero_mul]⟩
  -- the number is shifted until it has 53 binary digits
  have digits : k.log2 < 53 := (Nat.log2_lt pos.ne').2 small
  obtain ⟨d, shift⟩ := Nat.exists_eq_add_of_le (Nat.le_of_lt_succ digits)
  have low : pow2 52 ≤ k * pow2 d := by
    calc pow2 52 = 2 ^ k.log2 * 2 ^ d := by rw [← Nat.pow_add, ← shift]
      _ ≤ k * pow2 d := Nat.mul_le_mul_right _ (Nat.log2_self_le pos.ne')
  have high : k * pow2 d < pow2 53 := by
    calc k * pow2 d < 2 ^ (k.log2 + 1) * 2 ^ d :=
          Nat.mul_lt_mul_of_pos_right Nat.lt_log2_self (pow2_pos d)
      _ = pow2 53 := by rw [← Nat.pow_add, show k.log2 + 1 + d = 53 by omega]
  refine ⟨(1022 + k.log2) * pow2 52 + k * pow2 d, ?_, ?_⟩
  · have exponent : (1022 + k.log2) * pow2 52 ≤ 1074 * pow2 52 :=
      Nat.mul_le_mul_right _ (by omega)
    calc (1022 + k.log2) * pow2 52 + k * pow2 d < 1074 * pow2 52 + pow2 53 := by omega
      _ ≤ infinity := by decide
  · rw [units_grid (.inr low) high.le, Nat.mul_assoc]
    refine congrArg (k * ·) ?_
    calc pow2 d * pow2 (1022 + k.log2) = pow2 (d + (1022 + k.log2)) := (Nat.pow_add 2 _ _).symm
      _ = scale := by
          unfold scale
          exact congrArg pow2 (by omega)

/-- From `2 ^ 52` on every double is a whole number. -/
theorem integral_or_lt (m : Magnitude) :
    (∃ k, m.units = k * scale) ∨ m.units < pow2 52 * scale := by
  unfold scale
  exact units_multiple_or_lt m 1074

theorem isNearest_value (m : Magnitude) : m.IsNearest m.value := by
  constructor
  · intro m'
    rw [sub_self, abs_zero]
    exact abs_nonneg _
  · intro m' other tie
    rw [sub_self, abs_zero, abs_eq_zero, sub_eq_zero] at tie
    exact absurd (value_strictMono.injective tie) other

/-- **Rounding stays among the doubles**: below `2 ^ 53` every integer is a double, and from
`2 ^ 52` on every double is an integer. -/
theorem units_rounded (finite : m < infinity) :
    m.rounded < infinity ∧ m.rounded.units = m.nearestWhole * scale := by
  obtain ⟨m₀, finite₀, exact₀⟩ :
      ∃ m₀ : Magnitude, m₀ < infinity ∧ m₀.units = m.nearestWhole * scale := by
    obtain ⟨k, whole⟩ | below := integral_or_lt m
    · rw [nearestWhole_of_units whole]
      exact ⟨m, finite, whole⟩
    · refine exists_units_eq ?_
      obtain ⟨low, -⟩ := nearestWhole_bounds m
      have pos := zero_lt_scale
      generalize scale = unit at *
      have scaled : unit * (2 * m.nearestWhole) < unit * (2 * pow2 52 + 1) := by linarith
      have small : 2 * m.nearestWhole < 2 * pow2 52 + 1 := Nat.lt_of_mul_lt_mul_left scaled
      have double : pow2 53 = pow2 52 + pow2 52 := rfl
      have large := pow2_pos 52
      omega
  obtain ⟨m₁, nearest₁, same⟩ := isNearest_nearest (m.nearestWhole * scale) one_pos
  have value₀ : m₀.value = (m.nearestWhole * scale : Nat) / (1 : Nat) / scale := by
    rw [value, exact₀, Nat.cast_one, div_one]
  rw [← value₀] at nearest₁
  obtain rfl := nearest₁.unique m₀.isNearest_value
  have : m.rounded = m₁ := same.trans (Nat.min_eq_right finite₀.le)
  rw [this]
  exact ⟨finite₀, exact₀⟩

end Magnitude

/-! ## Whole numbers -/

namespace Magnitude

/-- A whole number of times is not rounded. -/
theorem divNearestEven_mul (k : Nat) {den : Nat} (pos : 0 < den) :
    divNearestEven (k * den) den = k := by
  unfold divNearestEven
  dsimp only
  -- nothing is left over that could be a half
  rw [Nat.mul_mod_left, if_neg (by omega), Nat.mul_div_cancel k pos]

end Magnitude

namespace Double

/-- **The exact value of a finite double.** -/
def value (negative : Bool) (m : Magnitude) : ℚ := if negative then -m.value else m.value

/-- An integer is negative if it has a sign and is not zero. -/
theorem integer_lt_zero (negative : Bool) (k : Nat) :
    decide (integer negative k < 0) = (negative && k != 0) := by
  unfold integer
  rw [Bool.eq_iff_iff, decide_eq_true_eq, Bool.and_eq_true, bne_iff_ne]
  cases negative with
  | false => simp
  | true => simp [Nat.pos_iff_ne_zero]

theorem natAbs_integer (negative : Bool) (k : Nat) : (integer negative k).natAbs = k := by
  cases negative with
  | false => rfl
  | true => exact Int.natAbs_neg k

end Double

namespace Number

variable {negative : Bool} {m : Magnitude} {k : Nat}

/-- A text with its sign left out in front of zero is the text of an integer. -/
theorem integerText_integer (negative : Bool) (k : Nat) :
    integerText (Double.integer negative k) = signed (negative && k != 0) (Decimal.numeral k) := by
  rw [integerText, Double.integer_lt_zero, Double.natAbs_integer]

/-- Away from zero the sign of an integer is the one that it was made with. -/
theorem integerText_integer_of_sign (signs : ¬ (negative = true ∧ k = 0)) :
    integerText (Double.integer negative k) = signed negative (Decimal.numeral k) := by
  have sign : (negative && k != 0) = negative := by
    cases negative with
    | false => rfl
    | true => simpa using signs
  rw [integerText_integer, sign]

/-! A magnitude that is a whole number exactly: nothing is lost of it in any of the ways to write
it. -/

section Whole

variable (whole : m.units = k * Magnitude.scale)

include whole

theorem value_of_units : m.value = k := by
  rw [Magnitude.value, whole, Nat.cast_mul, mul_div_cancel_right₀ _ Magnitude.scale_pos.ne']

/-- Leaving out decimal places leaves out nothing. -/
theorem wholeNumeral_of_units : wholeNumeral m = Decimal.numeral k := by
  rw [wholeNumeral, whole, Magnitude.divNearestEven_mul k Magnitude.zero_lt_scale]

/-- A whole number is displayed by its numeral. -/
theorem displayMagnitude_of_units : displayMagnitude m = Decimal.numeral k := by
  have integral : isIntegral m = true := by
    rw [isIntegral, whole, Nat.mul_mod_left, beq_self_eq_true]
  rw [displayMagnitude, if_pos integral, wholeNumeral_of_units whole]

/-- The size of a double is compared as that of the whole number. -/
theorem isWithin_of_units (bound : Nat) :
    Double.isWithin bound (.finite negative m) = true ↔ k < bound := by
  rw [Double.isWithin, decide_eq_true_eq, whole]
  exact Nat.mul_lt_mul_right Magnitude.zero_lt_scale

/-- **Converting to an integer is exact** inside the range. -/
theorem toInt_toInt64 (small : k < pow2 63) :
    (Double.toInt64 (.finite negative m)).toInt = Double.integer negative k := by
  have least : Int64.minValue.toInt = -(pow2 63 : ℤ) := by decide
  have largest : Int64.maxValue.toInt = (pow2 63 : ℤ) - 1 := by decide
  have size : (k : ℤ) < (pow2 63 : ℤ) := by exact_mod_cast small
  rw [Double.toInt64, whole, Nat.mul_div_cancel _ Magnitude.zero_lt_scale]
  refine Int64.toInt_ofIntClamp ?_ ?_
  · rw [least]
    unfold Double.integer
    split <;> omega
  · rw [largest]
    unfold Double.integer
    split <;> omega

end Whole

/-! ## Splicing -/

/-- **The integer path**: below `2 ^ 53` the rounded double is written as an integer. -/
theorem toList_spliced_of_lt {x : Float} (finite : Double.ofFloat x = .finite negative m)
    (whole : m.rounded.units = k * Magnitude.scale) (small : k < pow2 53) :
    (spliced x).toList
      = integerText (Double.toInt64 (.finite negative m.rounded)).toInt := by
  rw [spliced, finite, String.toList_ofList]
  exact if_pos ((isWithin_of_units whole _).2 small)

/-- **The formatting path**: from `2 ^ 53` on the rounded double is written as it stands. -/
theorem toList_spliced_of_le {x : Float} (finite : Double.ofFloat x = .finite negative m)
    (whole : m.rounded.units = k * Magnitude.scale) (large : pow2 53 ≤ k) :
    (spliced x).toList = wholeText (.finite negative m.rounded) := by
  rw [spliced, finite, String.toList_ofList]
  exact if_neg fun within => Nat.not_lt.2 large ((isWithin_of_units whole _).1 within)

/-- **Both paths write the same thing**: the numeral of the rounded number. -/
theorem toList_spliced {x : Float} (finite : Double.ofFloat x = .finite negative m)
    (small : m < Magnitude.infinity) :
    (spliced x).toList = integerText (Double.integer negative m.nearestWhole) := by
  obtain ⟨-, whole⟩ := Magnitude.units_rounded small
  rcases Nat.lt_or_ge m.nearestWhole (pow2 53) with below | above
  · have inside : m.nearestWhole < pow2 63 := Nat.lt_trans below (by decide)
    rw [toList_spliced_of_lt finite whole below, toInt_toInt64 whole inside]
  · have pos : m.nearestWhole ≠ 0 := Nat.ne_of_gt (Nat.lt_of_lt_of_le (pow2_pos 53) above)
    rw [toList_spliced_of_le finite whole above, wholeText, wholeNumeral_of_units whole,
      integerText_integer_of_sign fun zero => pos zero.2]

theorem isNearestInteger_round (negative : Bool) (m : Magnitude) :
    IsNearestInteger (Double.integer negative m.nearestWhole) (Double.value negative m) := by
  have nearest := m.isNearestInteger_nearestWhole
  unfold Double.integer Double.value
  cases negative with
  | false =>
    rw [if_neg Bool.false_ne_true, if_neg Bool.false_ne_true]
    exact nearest
  | true =>
    rw [if_pos rfl, if_pos rfl]
    exact nearest.neg

/-- The rounded double is the integer exactly. -/
theorem value_rounded (negative : Bool) (small : m < Magnitude.infinity) :
    Double.value negative m.rounded = Double.integer negative m.nearestWhole := by
  obtain ⟨-, whole⟩ := Magnitude.units_rounded small
  rw [Double.value, Double.integer, value_of_units whole]
  cases negative <;> simp

/-- Displaying a number that is not negative zero writes it as an integer, if it is one. -/
theorem toList_display {x : Float} (finite : Double.ofFloat x = .finite negative m)
    (whole : m.units = k * Magnitude.scale) (signs : ¬ (negative = true ∧ k = 0)) :
    (display x).toList = integerText (Double.integer negative k) := by
  rw [display, finite, String.toList_ofList]
  dsimp only
  rw [displayMagnitude_of_units whole, integerText_integer_of_sign signs]

/-- **Splicing rounds exactly.** For every pattern of a finite double there is an integer such
that:

* it is the nearest one to the exact value, a half going away from zero;
* the text is its canonical numeral, which has no sign if it is zero;
* rounding the double gives a double that is this integer exactly, with the sign that it had;
* if that is below `2 ^ 53`, the text is that of its conversion to 64 bits, which is the same
  integer;
* if it is not, the text is that of the rounded double without decimal places.

For an integral number other than negative zero the text is the one that a program prints. -/
theorem splicing_rounds_exactly {bits : UInt64} {negative : Bool} {m : Magnitude}
    (finite : Double.ofBits bits.toNat = .finite negative m) :
    (∃ (z : ℤ) (r : Magnitude), IsNearestInteger z (Double.value negative m)
      ∧ IsNumeralOf z (spliced (.ofBits bits)).toList
      ∧ (Double.ofFloat (.ofBits bits)).round = .finite negative r
      ∧ r < Magnitude.infinity ∧ Double.value negative r = z
      ∧ (r.value < 2 ^ 53 → (Double.toInt64 (.finite negative r)).toInt = z
        ∧ (spliced (.ofBits bits)).toList
          = integerText (Double.toInt64 (.finite negative r)).toInt)
      ∧ (2 ^ 53 ≤ r.value →
        (spliced (.ofBits bits)).toList = wholeText (.finite negative r)))
    ∧ (isIntegral m = true → ¬ (negative = true ∧ m = 0) →
      spliced (.ofBits bits) = (Value.number (.ofBits bits)).display) := by
  obtain ⟨-, small⟩ := Double.ofBits_eq_finite finite
  obtain ⟨finite', whole⟩ := Magnitude.units_rounded small
  have isFinite := Double.ofFloat_ofBits finite
  have text := toList_spliced isFinite small
  have size := value_of_units whole
  refine ⟨⟨_, m.rounded, isNearestInteger_round negative m, ?_, ?_, finite',
    value_rounded negative small, fun below => ?_, fun above => ?_⟩, fun integral signs => ?_⟩
  · rw [text]
    exact isNumeralOf_integerText _
  · rw [isFinite]
    rfl
  · have below : m.nearestWhole < pow2 53 := by
      rw [size] at below
      exact_mod_cast below
    have inside : m.nearestWhole < pow2 63 := Nat.lt_trans below (by decide)
    exact ⟨toInt_toInt64 whole inside, toList_spliced_of_lt isFinite whole below⟩
  · have above : pow2 53 ≤ m.nearestWhole := by
      rw [size] at above
      exact_mod_cast above
    exact toList_spliced_of_le isFinite whole above
  · have whole := (Nat.div_mul_cancel (Nat.dvd_of_mod_eq_zero (eq_of_beq integral))).symm
    refine String.toList_inj.1 ?_
    rw [text, Magnitude.nearestWhole_of_units whole]
    refine (toList_display isFinite whole fun ⟨isNegative, zero⟩ => signs ⟨isNegative, ?_⟩).symm
    rw [zero, Nat.zero_mul, ← Magnitude.units_of_lt (pow2_pos 52)] at whole
    exact Magnitude.units_strictMono.injective whole

/-- The double next to `-2 ^ 52` ends in a half, and goes there. -/
theorem splicing_rounds_exactly_last_half :
    Double.ofBits (0xC32FFFFFFFFFFFFF : UInt64).toNat = .finite true 0x432FFFFFFFFFFFFF
    ∧ ∃ z : ℤ, IsNearestInteger z (Double.value true 0x432FFFFFFFFFFFFF)
      ∧ IsNumeralOf z "-4503599627370496".toList := by
  have finite : Double.ofBits (0xC32FFFFFFFFFFFFF : UInt64).toNat
      = .finite true 0x432FFFFFFFFFFFFF := by decide +kernel
  have text : (spliced (.ofBits 0xC32FFFFFFFFFFFFF)).toList = "-4503599627370496".toList := by
    decide +kernel
  obtain ⟨⟨z, -, nearest, numeral, -⟩, -⟩ := splicing_rounds_exactly finite
  rw [text] at numeral
  exact ⟨finite, z, nearest, numeral⟩

end Number

end Kix
