import Kix.Proofs.SplicedNumbers
import Kix.Proofs.TokenClasses

/-!
# The texts of decimals

A decimal stands for a rational number (`Decimal.value`), and reading it gives the double that is
nearest to that number. So all that is done to a decimal between finding and writing it keeps what
it reads as, as long as it keeps the number: leaving out zeros at the end does
(`Decimal.value_trim`), and so does writing it out with a point or with zeros behind it
(`Decimal.writes_positional`).

The text of a double that is not negative is therefore a numeral whose nearest double is the one
that was written (`Magnitude.exists_writes`).
-/

namespace Kix

/-! ## The value of a decimal -/

namespace Decimal

/-- **The number that a decimal stands for.** -/
def value (d : Decimal) : ℚ := d.digits * 10 ^ d.exponent

/-- A decimal with some digits behind the point. -/
theorem value_of_places {d : Decimal} {places : Nat} (h : d.exponent = -(places : ℤ)) :
    d.value = d.digits / 10 ^ places := by
  rw [value, h, zpow_neg, zpow_natCast, div_eq_mul_inv]

/-- A decimal with some zeros in front of the point. -/
theorem value_of_zeros {d : Decimal} {count : Nat} (h : d.exponent = count) :
    d.value = d.digits * 10 ^ count := by
  rw [value, h, zpow_natCast]

/-- **Reading a decimal** gives the double that is nearest to its value. -/
theorem exists_nearest (d : Decimal) :
    ∃ m : Magnitude, m.IsNearest d.value ∧ d.nearest = min Magnitude.infinity m := by
  have pos : 0 < pow10 (-d.exponent).toNat := Nat.pow_pos (by decide)
  obtain ⟨m, nearest, rounded⟩ := Magnitude.isNearest_nearest
    (d.digits * pow10 d.exponent.toNat * Magnitude.scale) pos
  refine ⟨m, ?_, rounded⟩
  have value : d.value
      = (d.digits * pow10 d.exponent.toNat * Magnitude.scale : Nat)
        / (pow10 (-d.exponent).toNat : Nat) / Magnitude.scale := by
    rw [Nat.cast_mul, mul_div_right_comm, mul_div_cancel_right₀ _ Magnitude.scale_pos.ne']
    obtain ⟨n, whole | fractional⟩ := Int.eq_nat_or_neg d.exponent
    · rw [value_of_zeros whole, whole, Int.toNat_natCast, Int.toNat_neg_natCast]
      simp
    · rw [value_of_places fractional, fractional, neg_neg, Int.toNat_natCast,
        Int.toNat_neg_natCast]
      simp
  rwa [value]

/-- Decimals that stand for one number read alike. -/
theorem nearest_congr {d d' : Decimal} (same : d.value = d'.value) : d.nearest = d'.nearest := by
  obtain ⟨m, nearest, rounded⟩ := d.exists_nearest
  obtain ⟨m', nearest', rounded'⟩ := d'.exists_nearest
  rw [same] at nearest
  rw [rounded, rounded', nearest.unique nearest']

/-- A decimal that reads as a finite double has that as its nearest double. -/
theorem isNearest_of_nearest {d : Decimal} {m : Magnitude} (reads : d.nearest = m)
    (finite : m < Magnitude.infinity) : m.IsNearest d.value := by
  obtain ⟨m', nearest, rounded⟩ := d.exists_nearest
  rw [rounded] at reads
  have below : ¬Magnitude.infinity ≤ m' := fun le => by
    rw [Nat.min_eq_left le] at reads
    exact finite.ne reads.symm
  rw [Nat.min_eq_right (Nat.le_of_not_le below)] at reads
  rwa [← reads]

/-- Leaving out zeros at the end changes nothing. -/
theorem value_trim (d : Decimal) : d.trim.value = d.value := by
  induction d using trim.induct with
  | case1 d zeros ih =>
    rw [trim, if_pos zeros, ih, value, value]
    obtain ⟨k, digits⟩ := Nat.dvd_of_mod_eq_zero zeros.2
    rw [digits, Nat.mul_div_cancel_left k (by decide), zpow_add₀ (by norm_num), zpow_one]
    push_cast
    ring
  | case2 d other => rw [trim, if_neg other]

/-! ## The shortest decimal reads back -/

variable {m : Magnitude} {tie : Tie}

/-- What is found on a grid is nearest to the number. -/
theorem nearest_of_onGrid {exponent : ℤ} {d : Decimal} (found : onGrid tie m exponent = some d) :
    d.nearest = m := by
  unfold onGrid at found
  dsimp only at found
  split at found
  · next lower =>
    split at found
    · next upper =>
      cases found
      exact upper.1
    · cases found
      exact lower
  · split at found
    · next upper =>
      cases found
      exact upper
    · cases found

/-- A number of units of `1 / 2 ^ n` as a decimal with `n` places. -/
theorem value_units (units : Nat) {n : Nat} {exponent : ℤ} (places : exponent = -n) :
    value ⟨units * Nat.pow 5 n, exponent⟩ = (units : ℚ) / pow2 n := by
  rw [value_of_places places]
  show ((units * 5 ^ n : Nat) : ℚ) / 10 ^ n = units / ((2 ^ n : Nat) : ℚ)
  have five : (5 : ℚ) ^ n ≠ 0 := pow_ne_zero n (by norm_num)
  rw [show (10 : ℚ) = 2 * 5 by norm_num, mul_pow, Nat.cast_mul, Nat.cast_pow, Nat.cast_pow,
    Nat.cast_ofNat, Nat.cast_ofNat, mul_div_mul_right _ _ five]

/-- The exact decimal of a magnitude has its value. -/
theorem value_exact (m : Magnitude) : (exact m).value = m.value := by
  unfold exact Magnitude.value Magnitude.scale
  generalize places : (1074 : Nat) = n
  exact value_units m.units (places ▸ rfl)

/-- **The shortest decimal of a double reads as that double.** -/
theorem nearest_shortest (finite : m < Magnitude.infinity) : (shortest tie m).nearest = m := by
  unfold shortest
  dsimp only
  rw [nearest_congr (value_trim _)]
  cases found : (List.range' 1 17).findSome? fun n : Nat => onGrid tie m (pointPosition m - n) with
  | some d =>
    obtain ⟨n, -, onGrid⟩ := List.exists_of_findSome?_eq_some found
    exact nearest_of_onGrid onGrid
  | none =>
    obtain ⟨m', nearest, rounded⟩ := (exact m).exists_nearest
    rw [value_exact] at nearest
    obtain rfl := nearest.unique m.isNearest_value
    exact rounded.trans (Nat.min_eq_right finite.le)

end Decimal

/-! ## Numerals -/

namespace Number

/-- **A numeral and the number that it writes**: digits, or digits with a point among them. -/
inductive Writes : List Char → ℚ → Prop where
  | whole {whole : List Char} (digits : IsDigits whole) : Writes whole (spelled whole)
  | point {whole fraction : List Char} (digits : IsDigits whole) (digits' : IsDigits fraction) :
    Writes (whole ++ '.' :: fraction) (numeralValue whole fraction)

theorem isDigits_numeral (n : Nat) : IsDigits (Decimal.numeral n) :=
  ⟨Nat.toDigits_ne_nil, fun _ mem => Nat.isDigit_of_mem_toDigits (by decide) (by decide) mem⟩

theorem isDigit_of_mem_zeros {count : Nat} {c : Char} (mem : c ∈ Decimal.zeros count) :
    c.isDigit = true := by
  rw [List.eq_of_mem_replicate mem]
  rfl

theorem spelled_zeros (count : Nat) : spelled (Decimal.zeros count) = 0 := by
  induction count with
  | zero => rfl
  | succ count ih =>
    show spelled (['0'] ++ Decimal.zeros count) = 0
    rw [spelled_append, ih]
    simp [spelled]

/-- A numeral is a token that denotes the nearest double. -/
theorem Writes.spells {text : List Char} {q : ℚ} (writes : Writes text q) {m : Magnitude}
    (nearest : m.IsNearest q) (finite : m < Magnitude.infinity) :
    Spells .number text (some (.number m.toFloat)) := by
  have same : m.toFloat = (min Magnitude.infinity m).toFloat := by
    rw [Nat.min_eq_right finite.le]
  cases writes with
  | whole digits =>
    refine .whole digits ⟨m, ?_, same⟩
    rwa [numeralValue_eq, List.append_nil, List.length_nil, pow_zero, div_one]
  | point digits digits' => exact .point digits digits' ⟨m, nearest, same⟩

end Number

open Number

/-- **A decimal that is written out** writes its value. -/
theorem Decimal.writes_positional (d : Decimal) : Writes d.positional d.value := by
  have digits := isDigits_numeral d.digits
  unfold positional
  dsimp only
  split
  · next whole =>
    have exponent : d.exponent = (d.exponent.toNat : ℤ) := by omega
    have text : IsDigits (numeral d.digits ++ zeros d.exponent.toNat) := by
      refine ⟨fun empty => digits.1 (List.append_eq_nil_iff.1 empty).1, fun c mem => ?_⟩
      rcases List.mem_append.1 mem with mem | mem
      · exact digits.2 c mem
      · exact isDigit_of_mem_zeros mem
    have value : d.value = spelled (numeral d.digits ++ zeros d.exponent.toNat) := by
      rw [value_of_zeros exponent, spelled_append, spelled_numeral, spelled_zeros, Nat.add_zero,
        zeros, List.length_replicate]
      push_cast
      rfl
    rw [value]
    exact .whole text
  next fractional =>
  have exponent : d.exponent = -((-d.exponent).toNat : ℤ) := by omega
  generalize (-d.exponent).toNat = places at exponent fractional ⊢
  rw [value_of_places exponent]
  split
  · next inside =>
    have split := List.take_append_drop ((numeral d.digits).length - places) (numeral d.digits)
    have left : ((numeral d.digits).drop ((numeral d.digits).length - places)).length
        = places := by
      rw [List.length_drop]
      omega
    have value : (d.digits : ℚ) / 10 ^ places
        = numeralValue ((numeral d.digits).take ((numeral d.digits).length - places))
          ((numeral d.digits).drop ((numeral d.digits).length - places)) := by
      rw [numeralValue_eq, split, spelled_numeral, left]
    rw [value]
    refine .point ⟨fun empty => ?_, fun c mem => digits.2 c (List.mem_of_mem_take mem)⟩
      ⟨fun empty => ?_, fun c mem => digits.2 c (List.mem_of_mem_drop mem)⟩
    · have length := congrArg List.length empty
      rw [List.length_take, List.length_nil] at length
      omega
    · rw [empty, List.length_nil] at left
      exact fractional left.symm
  · next outside =>
    have value : (d.digits : ℚ) / 10 ^ places
        = numeralValue ['0'] (zeros (places - (numeral d.digits).length) ++ numeral d.digits) := by
      rw [numeralValue_eq, spelled_append, spelled_append, spelled_zeros, spelled_numeral,
        List.length_append, zeros, List.length_replicate,
        Nat.sub_add_cancel (Nat.le_of_not_lt outside)]
      simp [spelled]
    rw [value]
    refine .point ⟨List.cons_ne_nil _ _, List.forall_mem_singleton.2 rfl⟩ ⟨fun empty => ?_,
      fun c mem => ?_⟩
    · exact digits.1 (List.append_eq_nil_iff.1 empty).2
    · rcases List.mem_append.1 mem with mem | mem
      · exact isDigit_of_mem_zeros mem
      · exact digits.2 c mem

/-- **The digits of an integral double** spell its value. -/
theorem Magnitude.exists_numeral_of_isIntegral {m : Magnitude} (integral : isIntegral m = true) :
    ∃ k : Nat, displayMagnitude m = Decimal.numeral k
      ∧ (spelled (Decimal.numeral k) : ℚ) = m.value := by
  have whole := (Nat.div_mul_cancel (Nat.dvd_of_mod_eq_zero (eq_of_beq integral))).symm
  refine ⟨_, displayMagnitude_of_units whole, ?_⟩
  rw [spelled_numeral, value_of_units whole]

/-- **The text of a double that is not negative** writes a number that the double is nearest to. -/
theorem Magnitude.exists_writes {m : Magnitude} (finite : m < infinity) :
    ∃ q, Writes (displayMagnitude m) q ∧ m.IsNearest q := by
  by_cases integral : isIntegral m = true
  · obtain ⟨k, text, value⟩ := exists_numeral_of_isIntegral integral
    have written := Writes.whole (isDigits_numeral k)
    rw [value, ← text] at written
    exact ⟨m.value, written, m.isNearest_value⟩
  · rw [displayMagnitude, if_neg integral]
    exact ⟨_, (Decimal.shortest .up m).writes_positional,
      Decimal.isNearest_of_nearest (Decimal.nearest_shortest finite) finite⟩

end Kix
