import Kix.Number.Text
import Mathlib.Algebra.Order.Field.Basic
import Mathlib.Algebra.Order.Ring.Rat
import Mathlib.Data.Nat.Digits.Defs
import Mathlib.Tactic.FieldSimp
import Mathlib.Tactic.Linarith
import Mathlib.Tactic.Positivity

/-!
# The nearest double

A numeral spells a rational number, and denotes the double nearest to it. Which double that is
can be said without an algorithm (`Magnitude.IsNearest`): no other is nearer, and if another is
as near then the last bit is zero. At most one double is nearest (`Magnitude.IsNearest.unique`),
and rounding finds it (`Magnitude.isNearest_nearest`).

Rounding looks only at the multiples of `2 ^ s` units, for an `s` that depends on the size of
the number. The doubles of that size are these multiples, and the doubles that are none of them
are all too small to be nearest (`Magnitude.nearest_on_grid`).

Exponents have no upper bound here: what is nearest is found first, and becomes infinity
afterwards if it is too large.
-/

namespace Kix

theorem pow2_pos (n : Nat) : 0 < pow2 n := Nat.two_pow_pos n

namespace Magnitude

/-- Below the least normal double, a magnitude counts units. -/
theorem units_of_lt {r : Nat} (h : r < pow2 52) : units r = r := by
  unfold units
  rw [if_pos (Nat.div_eq_of_lt h), Nat.mod_eq_of_lt h]

/-- From there on, each binary exponent doubles the step. -/
theorem units_of_exponent (e : Nat) {r : Nat} (h : r < pow2 52) :
    units ((e + 1) * pow2 52 + r) = (pow2 52 + r) * pow2 e := by
  have exponent : ((e + 1) * pow2 52 + r) / pow2 52 = e + 1 := by
    rw [Nat.mul_comm, Nat.mul_add_div (pow2_pos 52), Nat.div_eq_of_lt h, Nat.add_zero]
  unfold units
  rw [exponent, if_neg (Nat.succ_ne_zero e), Nat.mul_add_mod_self_right, Nat.mod_eq_of_lt h]
  rfl

/-- Multiples of `2 ^ s` units from the `2 ^ 52`-nd on are numbered by magnitudes. -/
theorem units_grid {s k : Nat} (low : s = 0 ∨ pow2 52 ≤ k) (high : k ≤ pow2 53) :
    units (s * pow2 52 + k) = k * pow2 s := by
  have double : pow2 53 = pow2 52 + pow2 52 := rfl
  rcases Nat.lt_or_ge k (pow2 52) with below | above
  · obtain rfl : s = 0 := low.resolve_right (Nat.not_le_of_lt below)
    rw [Nat.zero_mul, Nat.zero_add, units_of_lt below]
    exact (Nat.mul_one k).symm
  obtain ⟨r, rfl⟩ := Nat.exists_eq_add_of_le above
  rcases Nat.lt_or_ge r (pow2 52) with inside | top
  · rw [← Nat.add_assoc, ← Nat.succ_mul, units_of_exponent s inside]
  · -- rounding reached the next power of two, which has the next exponent
    obtain rfl : r = pow2 52 := by omega
    have next := units_of_exponent (s + 1) (r := 0) (pow2_pos 52)
    rw [Nat.add_zero, Nat.succ_mul, Nat.succ_mul, Nat.add_assoc] at next
    rw [next, Nat.add_zero, show pow2 (s + 1) = pow2 s * 2 from rfl]
    ring

/-- Every magnitude numbers a multiple of some `2 ^ s` units. -/
theorem exists_grid (m : Nat) :
    ∃ s k, m = s * pow2 52 + k ∧ k < pow2 53 ∧ (s = 0 ∨ pow2 52 ≤ k) := by
  have double : pow2 53 = pow2 52 + pow2 52 := rfl
  have split := Nat.div_add_mod' m (pow2 52)
  have rest : m % pow2 52 < pow2 52 := Nat.mod_lt m (pow2_pos 52)
  generalize m % pow2 52 = r at *
  cases exponent : m / pow2 52 with
  | zero =>
    rw [exponent] at split
    exact ⟨0, r, split.symm, by omega, .inl rfl⟩
  | succ s =>
    rw [exponent, Nat.succ_mul, Nat.add_assoc] at split
    exact ⟨s, pow2 52 + r, split.symm, by omega, .inr (by omega)⟩

/-- **Larger magnitudes are worth more.** -/
theorem units_strictMono : StrictMono units := by
  refine strictMono_nat_of_lt_succ fun m => ?_
  obtain ⟨s, k, rfl, high, low⟩ := exists_grid m
  have next := units_grid (low.imp_right fun h => Nat.le_succ_of_le h) high
  rw [Nat.add_assoc, next, units_grid low high.le]
  exact Nat.mul_lt_mul_of_pos_right (Nat.lt_succ_self k) (pow2_pos s)

/-- A double that is no multiple of `2 ^ s` units is below those that have to be. -/
theorem units_multiple_or_lt (m : Nat) (s : Nat) :
    (∃ k, units m = k * pow2 s) ∨ units m < pow2 52 * pow2 s := by
  obtain ⟨s', k, rfl, high, low⟩ := exists_grid m
  rw [units_grid low high.le]
  rcases Nat.lt_or_ge s' s with finer | coarser
  · right
    obtain ⟨d, rfl⟩ := Nat.exists_eq_add_of_lt finer
    have split : pow2 52 * pow2 (s' + d + 1) = pow2 53 * pow2 d * pow2 s' := by
      show 2 ^ 52 * 2 ^ (s' + d + 1) = 2 ^ 53 * 2 ^ d * 2 ^ s'
      ring
    rw [split]
    refine Nat.mul_lt_mul_of_pos_right (lt_of_lt_of_le high ?_) (pow2_pos s')
    exact Nat.le_mul_of_pos_right _ (pow2_pos d)
  · left
    obtain ⟨d, rfl⟩ := Nat.exists_eq_add_of_le coarser
    refine ⟨k * pow2 d, ?_⟩
    show k * 2 ^ (s + d) = k * 2 ^ d * 2 ^ s
    ring

/-! ## Rounding a quotient -/

section Quotients

variable (num : Nat) {den : Nat}

/-- A quotient is its whole part and a part below one. -/
theorem quotient_eq (pos : 0 < den) :
    (num : ℚ) / den = (num / den : Nat) + ((num % den : Nat) : ℚ) / den := by
  have pos' : (0 : ℚ) < den := by exact_mod_cast pos
  have split : (num : ℚ) = den * (num / den : Nat) + (num % den : Nat) := by
    exact_mod_cast (Nat.div_add_mod num den).symm
  field_simp
  exact split

/-- **The nearest whole number to a quotient** is at most a half away, and even if it is a half
away. -/
theorem divNearestEven_error (pos : 0 < den) :
    |(divNearestEven num den : ℚ) - num / den| ≤ 1 / 2
    ∧ (|(divNearestEven num den : ℚ) - num / den| = 1 / 2 → divNearestEven num den % 2 = 0) := by
  have pos' : (0 : ℚ) < den := by exact_mod_cast pos
  have low : 0 ≤ ((num % den : Nat) : ℚ) / den := by positivity
  have high : ((num % den : Nat) : ℚ) / den < 1 := by
    rw [div_lt_one pos']
    exact_mod_cast Nat.mod_lt num pos
  have half : 1 / 2 < ((num % den : Nat) : ℚ) / den ↔ den < 2 * (num % den) := by
    rw [div_lt_div_iff₀ two_pos pos', one_mul, mul_comm]
    norm_cast
  have half' : ((num % den : Nat) : ℚ) / den = 1 / 2 ↔ 2 * (num % den) = den := by
    rw [div_eq_div_iff pos'.ne' two_ne_zero, one_mul, mul_comm]
    norm_cast
  unfold divNearestEven
  dsimp only
  rw [quotient_eq num pos]
  generalize ((num % den : Nat) : ℚ) / den = part at *
  split
  · next up =>
    have upper : 1 / 2 ≤ part := up.elim (fun h => (half.2 h).le) fun h => (half'.2 h.1).ge
    have distance : |((num / den + 1 : Nat) : ℚ) - ((num / den : Nat) + part)| = 1 - part := by
      rw [Nat.cast_succ, abs_of_nonneg (by linarith)]
      ring
    rw [distance]
    refine ⟨by linarith, fun tie => ?_⟩
    have tied := half'.1 (by linarith)
    omega
  · next down =>
    have lower : part ≤ 1 / 2 := not_lt.1 fun h => down (.inl (half.1 h))
    have distance : |((num / den : Nat) : ℚ) - ((num / den : Nat) + part)| = part := by
      rw [sub_add_cancel_left, abs_neg, abs_of_nonneg low]
    rw [distance]
    refine ⟨lower, fun tie => ?_⟩
    have tied := half'.1 tie
    omega

end Quotients

/-! ## The nearest double -/

theorem scale_pos : (0 : ℚ) < scale := by
  unfold scale
  exact Nat.cast_pos.2 (pow2_pos _)

/-- The value of a magnitude, with no bound on its exponent. -/
def value (m : Magnitude) : ℚ := m.units / scale

/-- **The nearest magnitude to a number**, and of two equally near ones the one whose last bit
is zero. -/
structure IsNearest (m : Magnitude) (q : ℚ) : Prop where
  nearest : ∀ m' : Magnitude, |m.value - q| ≤ |m'.value - q|
  even : ∀ m' : Magnitude, m' ≠ m → |m'.value - q| = |m.value - q| → Even m

/-- Whole numbers other than the one that is at most a half away. -/
theorem half_le_abs {k k' : Nat} {y : ℚ} (error : |k - y| ≤ 1 / 2) (other : k' ≠ k) :
    1 / 2 ≤ |k' - y| := by
  have apart : (1 : ℚ) ≤ |(k' : ℚ) - k| := by
    have : (1 : ℤ) ≤ |(k' : ℤ) - k| := Int.one_le_abs (by omega)
    exact_mod_cast this
  have triangle := abs_sub_le (k' : ℚ) y k
  rw [abs_sub_comm y k] at triangle
  linarith

/-- **No double is nearer** than the multiple of `2 ^ s` units that is. -/
theorem nearest_on_grid {s k : Nat} {y : ℚ} (low : s = 0 ∨ (pow2 52 : Nat) ≤ y)
    (error : |k - y| ≤ 1 / 2) (m : Magnitude) :
    |k - y| ≤ |(m.units : ℚ) / pow2 s - y|
    ∧ (m.units ≠ k * pow2 s → |(m.units : ℚ) / pow2 s - y| = |k - y| → |k - y| = 1 / 2) := by
  have pos : (0 : ℚ) < pow2 s := Nat.cast_pos.2 (pow2_pos s)
  have onGrid (k' : Nat) :
      |k - y| ≤ |k' - y| ∧ (k' ≠ k → |k' - y| = |k - y| → |k - y| = 1 / 2) := by
    by_cases same : k' = k
    · subst same
      exact ⟨le_rfl, fun other => absurd rfl other⟩
    · have far := half_le_abs error same
      exact ⟨error.trans far, fun _ tie => le_antisymm error (tie ▸ far)⟩
  by_cases multiple : ∃ k', m.units = k' * pow2 s
  · obtain ⟨k', units⟩ := multiple
    rw [units, Nat.cast_mul, mul_div_cancel_right₀ _ pos.ne']
    refine ⟨(onGrid k').1, fun other => (onGrid k').2 ?_⟩
    rintro rfl
    exact other rfl
  · -- a double off the grid is below the first one that has to be on it, and that is nearer
    have below := (units_multiple_or_lt m s).resolve_left multiple
    have first : (pow2 52 : Nat) ≤ y := by
      refine low.resolve_left ?_
      rintro rfl
      exact multiple ⟨m.units, (Nat.mul_one _).symm⟩
    have nearer : |((pow2 52 : Nat) : ℚ) - y| < |(m.units : ℚ) / pow2 s - y| := by
      have lt : (m.units : ℚ) / pow2 s < (pow2 52 : Nat) := by
        rw [div_lt_iff₀ pos]
        exact_mod_cast below
      rw [abs_of_nonpos (by linarith), abs_of_nonpos (by linarith)]
      linarith
    have best := (onGrid (pow2 52)).1
    exact ⟨best.trans nearer.le, fun _ tie => absurd tie (best.trans_lt nearer).ne'⟩

/-- The bounds of a quotient whose whole part has a given number of binary digits. -/
theorem quotient_bounds (num : Nat) {den : Nat} (pos : 0 < den) :
    ((num / den).log2 - 52 = 0
      ∨ (pow2 52 : Nat) ≤ (num : ℚ) / (den * pow2 ((num / den).log2 - 52) : Nat))
    ∧ (num : ℚ) / (den * pow2 ((num / den).log2 - 52) : Nat) < (pow2 53 : Nat) := by
  have pos' (s : Nat) : (0 : ℚ) < (den * pow2 s : Nat) := by
    exact_mod_cast Nat.mul_pos pos (pow2_pos s)
  constructor
  · by_cases small : (num / den).log2 ≤ 52
    · exact .inl (Nat.sub_eq_zero_of_le small)
    right
    obtain ⟨s, digits⟩ := Nat.exists_eq_add_of_le (Nat.le_of_not_le small)
    have whole : num / den ≠ 0 := by
      intro zero
      rw [zero, Nat.log2_zero] at digits
      omega
    have large := Nat.log2_self_le whole
    rw [digits, Nat.le_div_iff_mul_le pos] at large
    rw [le_div_iff₀ (pos' _), digits, Nat.add_sub_cancel_left]
    norm_cast
    calc pow2 52 * (den * pow2 s) = 2 ^ (52 + s) * den := by
          show 2 ^ 52 * (den * 2 ^ s) = _
          ring
      _ ≤ num := large
  · have small := Nat.lt_log2_self (n := num / den)
    rw [Nat.div_lt_iff_lt_mul pos] at small
    rw [div_lt_iff₀ (pos' _)]
    norm_cast
    calc num < 2 ^ ((num / den).log2 + 1) * den := small
      _ ≤ 2 ^ (53 + ((num / den).log2 - 52)) * den :=
          Nat.mul_le_mul_right den (Nat.pow_le_pow_right two_pos (by omega))
      _ = pow2 53 * (den * pow2 ((num / den).log2 - 52)) := by
          show _ = 2 ^ 53 * (den * 2 ^ _)
          ring

/-- Distances count in multiples of `2 ^ s` units. -/
theorem abs_value_sub (m : Magnitude) (s num den : Nat) :
    |m.value - num / den / scale|
      = |(m.units : ℚ) / pow2 s - num / (den * pow2 s : Nat)| * (pow2 s / scale) := by
  have unit : (0 : ℚ) < pow2 s := Nat.cast_pos.2 (pow2_pos s)
  rw [← abs_of_pos (div_pos unit scale_pos), ← abs_mul, Nat.cast_mul]
  unfold value
  generalize (pow2 s : ℚ) = u at unit
  generalize (scale : ℚ) = v
  congr 1
  field_simp

/-- A multiple of `2 ^ s` units that is at most half of them away is the nearest double, if that
can be a multiple. -/
theorem isNearest_of_grid {m : Magnitude} {s k num den : Nat} (worth : m.units = k * pow2 s)
    (low : s = 0 ∨ (pow2 52 : Nat) ≤ (num : ℚ) / (den * pow2 s : Nat))
    (error : |(k : ℚ) - num / (den * pow2 s : Nat)| ≤ 1 / 2)
    (even : |(k : ℚ) - num / (den * pow2 s : Nat)| = 1 / 2 → Even m) :
    m.IsNearest (num / den / scale) := by
  have unit : (0 : ℚ) < pow2 s := Nat.cast_pos.2 (pow2_pos s)
  have factor : (0 : ℚ) < pow2 s / scale := div_pos unit scale_pos
  have here : (m.units : ℚ) / pow2 s = k := by
    rw [worth, Nat.cast_mul, mul_div_cancel_right₀ _ unit.ne']
  constructor
  · intro m'
    rw [abs_value_sub m s, abs_value_sub m' s, here]
    exact mul_le_mul_of_nonneg_right (nearest_on_grid low error m').1 factor.le
  · intro m' other tie
    rw [abs_value_sub m s, abs_value_sub m' s, here] at tie
    have apart : m'.units ≠ k * pow2 s := fun same =>
      other (units_strictMono.injective (same.trans worth.symm))
    exact even ((nearest_on_grid low error m').2 apart (mul_right_cancel₀ factor.ne' tie))

/-- **Rounding gives the nearest double**, or infinity if that is too large for a double. -/
theorem isNearest_nearest (num : Nat) {den : Nat} (pos : 0 < den) :
    ∃ m : Magnitude, m.IsNearest (num / den / scale) ∧ nearest num den = min infinity m := by
  obtain ⟨low, high⟩ := quotient_bounds num pos
  unfold nearest
  dsimp only
  generalize (num / den).log2 - 52 = s at low high ⊢
  obtain ⟨error, even⟩ := divNearestEven_error num (Nat.mul_pos pos (pow2_pos s))
  refine ⟨_, isNearest_of_grid ?_ low error fun tie => ?_, rfl⟩
  · have bounds := abs_le.1 error
    generalize divNearestEven num (den * pow2 s) = k at bounds ⊢
    refine units_grid (low.imp_right fun low => ?_) ?_
    · have : ((pow2 52 : Nat) : ℚ) < (k : ℚ) + 1 := by linarith
      exact Nat.le_of_lt_succ (by exact_mod_cast this)
    · have : (k : ℚ) < (pow2 53 : Nat) + 1 := by linarith
      exact Nat.le_of_lt_succ (by exact_mod_cast this)
  · exact (Even.mul_left (by decide) s).add (Nat.even_iff.2 (even tie))

/-- **A larger magnitude is a larger number.** -/
theorem value_strictMono : StrictMono value := fun _ _ lt =>
  div_lt_div_of_pos_right (Nat.cast_lt.2 (units_strictMono lt)) scale_pos

/-- **Only one double is nearest.** -/
theorem IsNearest.unique {m m' : Magnitude} {q : ℚ} (h : m.IsNearest q) (h' : m'.IsNearest q) :
    m = m' := by
  by_contra other
  wlog lt : m < m' generalizing m m'
  · exact this h' h (Ne.symm other) (Nat.lt_of_le_of_ne (Nat.le_of_not_lt lt) (Ne.symm other))
  have tie := le_antisymm (h.nearest m') (h'.nearest m)
  have even := h.even m' (Ne.symm other) tie.symm
  have even' := h'.even m other tie
  -- both are even, so a magnitude between them is nearer than either
  have between : m + 1 < m' := by
    refine Nat.lt_of_le_of_ne lt ?_
    rintro rfl
    exact Nat.even_add_one.1 even' even
  have low := value_strictMono (Nat.lt_succ_self m)
  have high := value_strictMono between
  have middle := h.nearest (m + 1)
  rcases abs_cases (m.value - q) with ⟨_, _⟩ | ⟨_, _⟩ <;>
    rcases abs_cases (m'.value - q) with ⟨_, _⟩ | ⟨_, _⟩ <;>
    rcases abs_cases (value (m + 1) - q) with ⟨_, _⟩ | ⟨_, _⟩ <;> linarith

end Magnitude

/-! ## Numerals -/

namespace Number

/-- The whole number that digits spell. -/
def spelled (digits : List Char) : Nat :=
  Nat.ofDigits 10 (digits.reverse.map fun c => c.toNat - '0'.toNat)

/-- **The exact value of a numeral** with the given digits before the point and behind it. -/
def numeralValue (whole fraction : List Char) : ℚ :=
  spelled whole + spelled fraction / 10 ^ fraction.length

/-- **What a numeral denotes**: the nearest double, which is infinity if the nearest one has a
larger exponent than there is. -/
def Denotes (whole fraction : List Char) (x : Float) : Prop :=
  ∃ m : Magnitude, m.IsNearest (numeralValue whole fraction)
    ∧ x = (min Magnitude.infinity m).toFloat

variable (whole fraction : List Char)

/-- Digits in front are worth more by a power of ten. -/
theorem spelled_append (cs cs' : List Char) :
    spelled (cs ++ cs') = spelled cs * 10 ^ cs'.length + spelled cs' := by
  unfold spelled
  rw [List.reverse_append, List.map_append, Nat.ofDigits_append, List.length_map,
    List.length_reverse]
  ring

theorem digits_ofNumeral :
    (Decimal.ofNumeral whole fraction).digits = spelled (whole ++ fraction) := by
  unfold spelled
  rw [Nat.ofDigits_eq_foldr, List.foldr_map, List.foldr_reverse]
  exact congrArg (List.foldl · 0 (whole ++ fraction)) (funext₂ fun _ _ => Nat.add_comm _ _)

/-- The value of a numeral is its digits, moved behind the point. -/
theorem numeralValue_eq :
    numeralValue whole fraction = spelled (whole ++ fraction) / 10 ^ fraction.length := by
  rw [numeralValue, spelled_append]
  push_cast
  field_simp

/-- **The double of a numeral is the nearest one.** -/
theorem denotes_ofNumeral : Denotes whole fraction (ofNumeral whole fraction) := by
  have pos : 0 < 10 ^ fraction.length := by positivity
  obtain ⟨m, nearest, rounded⟩ :=
    Magnitude.isNearest_nearest (spelled (whole ++ fraction) * Magnitude.scale) pos
  refine ⟨m, ?_, ?_⟩
  · rw [Nat.cast_mul, Nat.cast_pow, mul_div_right_comm,
      mul_div_cancel_right₀ _ Magnitude.scale_pos.ne'] at nearest
    rw [numeralValue_eq]
    exact nearest
  · have places : (-(Decimal.ofNumeral whole fraction).exponent).toNat = fraction.length := by
      show (- -(fraction.length : Int)).toNat = _
      rw [Int.neg_neg, Int.toNat_natCast]
    have none : (Decimal.ofNumeral whole fraction).exponent.toNat = 0 :=
      Int.toNat_neg_natCast fraction.length
    unfold ofNumeral Decimal.nearest
    rw [digits_ofNumeral, places, none, ← rounded, show pow10 0 = 1 from rfl, Nat.mul_one,
      show pow10 fraction.length = 10 ^ fraction.length from rfl]

theorem denotes_iff {x : Float} : Denotes whole fraction x ↔ x = ofNumeral whole fraction := by
  constructor
  · rintro ⟨m, nearest, rfl⟩
    obtain ⟨m', nearest', same⟩ := denotes_ofNumeral whole fraction
    rw [same, nearest.unique nearest']
  · rintro rfl
    exact denotes_ofNumeral whole fraction

end Number
end Kix
