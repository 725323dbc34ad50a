import Kix.Number.Double

/-!
# The bits of a double

A double is made from a pattern of 64 bits and gives it back: its sign, its exponent and its
fraction are taken apart and put together again (`Double.pack_unpack`). Only what is not a number
loses its pattern. So every pattern of a finite double is the pattern of one
(`Double.toBits_ofBits`), and what holds for all doubles holds for all such patterns. The opposite
of a double has the other sign in its pattern and is the same otherwise (`Double.toBits_neg`).
-/

namespace Kix.Double

open Float.Model (Format)
open Float.Model.UnpackedFloat

variable (b : BitVec 64)

theorem toBitVec_ofBitVec (b : BitVec 1) : (Sign.ofBitVec b).toBitVec = b := by
  revert b
  decide

/-- A pattern is put together from its sign, its exponent and its fraction. -/
theorem packComponents_unpack :
    packComponents .binary64 (Sign.ofBitVec (@unpackSign .binary64 b))
      (@unpackExponent .binary64 b) (@unpackMantissa .binary64 b) = b := by
  have upper : b.extractLsb' (52 + 11) 1 ++ b.extractLsb' 52 11 = b.extractLsb' 52 12 :=
    BitVec.extractLsb'_append_extractLsb'_eq_extractLsb' rfl
  have all : b.extractLsb' (0 + 52) 12 ++ b.extractLsb' 0 52 = b.extractLsb' 0 64 :=
    BitVec.extractLsb'_append_extractLsb'_eq_extractLsb' rfl
  rw [packComponents, toBitVec_ofBitVec]
  show b.extractLsb' (52 + 11) 1 ++ b.extractLsb' 52 11 ++ b.extractLsb' 0 52 = b
  rw [upper]
  exact all.trans BitVec.extractLsb'_eq_self

/-- The exponent stands behind the fraction. -/
theorem toNat_unpackExponent :
    (@unpackExponent .binary64 b).toNat = b.toNat >>> 52 % 2048 := by
  show (b.extractLsb' 52 11).toNat = _
  rw [BitVec.extractLsb'_toNat]

section Packing

variable (s : Sign) (e : BitVec 11) (f : BitVec 52)

/-- A double below the least normal one has the exponent zero. -/
theorem pack_subnormal (pos : 0 < f.toNat) :
    pack .binary64 (.finite s f.toNat (-1074) pos) = packComponents .binary64 s 0 f := by
  have low : f.toNat.log2 < 52 := (Nat.log2_lt (Nat.ne_of_gt pos)).2 f.isLt
  have short : ¬ f.toNat.log2 + 1 = Format.binary64.mantissaBits := by
    show ¬ f.toNat.log2 + 1 = 53
    omega
  delta pack
  dsimp only
  rw [if_neg (by decide), if_neg short, BitVec.ofNat_toNat, BitVec.setWidth_eq]
  rfl

/-- A normal double has one bit more than its fraction, which packing takes off again. -/
theorem pack_normal (finite : e.toNat ≠ 2047) (pos : 0 < (1#1 ++ f).toNat) :
    pack .binary64 (.finite s (1#1 ++ f).toNat (e.toNat - 1075) pos)
      = packComponents .binary64 s e f := by
  have few := f.isLt
  have bound := e.isLt
  have value : (1#1 ++ f).toNat = 2 ^ 52 + f.toNat := by
    rw [BitVec.toNat_append, ← Nat.shiftLeft_add_eq_or_of_lt few]
    rfl
  have digits : (1#1 ++ f).toNat.log2 = 52 :=
    (Nat.log2_eq_iff (Nat.ne_of_gt pos)).2 ⟨by omega, by omega⟩
  have long : (1#1 ++ f).toNat.log2 + 1 = Format.binary64.mantissaBits := by
    rw [digits]
    rfl
  have exponent : ((e.toNat - 1075 : Int) + Format.binary64.exponentBias + (52 : Nat)).toNat
      = e.toNat := by
    show ((e.toNat - 1075 : Int) + (1023 : Nat) + (52 : Nat)).toNat = e.toNat
    omega
  have small : ¬ 2 ^ 11 ≤ e.toNat + 1 := by omega
  delta pack
  dsimp only
  rw [exponent, if_neg small, if_pos long]
  congr 1
  · exact BitVec.eq_of_toNat_eq (Nat.mod_eq_of_lt bound)
  · refine BitVec.eq_of_toNat_eq ?_
    rw [BitVec.toNat_ofNat, value]
    show (2 ^ 52 + f.toNat) % 2 ^ 52 = f.toNat
    omega

end Packing

variable {b}

/-- **Packing what was unpacked** gives a finite pattern back. -/
theorem pack_unpack (finite : @unpackExponent .binary64 b ≠ -1#11) :
    pack .binary64 (unpack .binary64 b) = b := by
  have whole := packComponents_unpack b
  have below : (@unpackExponent .binary64 b).toNat ≠ 2047 := fun same =>
    finite (BitVec.eq_of_toNat_eq same)
  unfold unpack
  dsimp only
  rw [if_neg finite]
  by_cases noExponent : @unpackExponent .binary64 b = 0#11
  · rw [if_pos noExponent]
    rw [noExponent] at whole ⊢
    by_cases noFraction : @unpackMantissa .binary64 b = 0#52
    · rw [dif_pos noFraction]
      rw [noFraction] at whole
      exact whole
    · rw [dif_neg noFraction]
      exact (pack_subnormal _ _ _).trans whole
  · rw [if_neg noExponent]
    exact (pack_normal _ _ _ below _).trans whole

/-- The magnitude of a finite double is what its pattern is without the sign. -/
theorem ofBits_eq_finite {bits : Nat} {negative : Bool} {m : Magnitude}
    (finite : ofBits bits = .finite negative m) :
    m = bits % pow2 63 ∧ m < Magnitude.infinity := by
  unfold ofBits at finite
  dsimp only at finite
  split at finite
  · next small =>
    obtain ⟨-, rfl⟩ := Double.finite.inj finite
    exact ⟨rfl, small⟩
  · split at finite <;> cases finite

section Patterns

variable {bits : UInt64} {negative : Bool} {m : Magnitude}
  (finite : ofBits bits.toNat = .finite negative m)

include finite

/-- **Every pattern of a finite double** is the pattern of one. -/
theorem toBits_ofBits : (Float.ofBits bits).toBits = bits := by
  have small : bits.toNat % 2 ^ 63 < 2047 * 2 ^ 52 := by
    obtain ⟨rfl, small⟩ := ofBits_eq_finite finite
    exact small
  refine UInt64.toBitVec_inj.1 (pack_unpack fun same => ?_)
  have exponent : 2047 = bits.toNat >>> 52 % 2048 :=
    (congrArg BitVec.toNat same).symm.trans (toNat_unpackExponent bits.toBitVec)
  rw [Nat.shiftRight_eq_div_pow] at exponent
  omega

/-- **A double that is read from its bits** is the one that its fields say. -/
theorem ofFloat_ofBits : ofFloat (Float.ofBits bits) = .finite negative m := by
  rw [ofFloat, toBits_ofBits finite, finite]

/-- A pattern is its magnitude, with the top bit set if it is negative. -/
theorem toNat_bits : bits.toNat = m + if negative then 1 <<< 63 else 0 := by
  have wide := bits.toNat_lt
  unfold ofBits at finite
  dsimp only at finite
  split at finite
  · obtain ⟨rfl, rfl⟩ := Double.finite.inj finite
    show bits.toNat = bits.toNat % 2 ^ 63 + if bits.toNat / 2 ^ 63 % 2 == 1 then 2 ^ 63 else 0
    split
    · next set =>
      have := eq_of_beq set
      omega
    · next clear =>
      have : bits.toNat / 2 ^ 63 % 2 ≠ 1 := fun set => clear (beq_iff_eq.2 set)
      omega
  · split at finite <;> cases finite

end Patterns

/-! ## Signs -/

/-- Patterns that differ in the sign alone stand for opposite numbers. -/
theorem unpack_eq_neg {b b' : BitVec 64}
    (exponent : @unpackExponent .binary64 b' = @unpackExponent .binary64 b)
    (mantissa : @unpackMantissa .binary64 b' = @unpackMantissa .binary64 b)
    (sign : Sign.ofBitVec (@unpackSign .binary64 b') = -Sign.ofBitVec (@unpackSign .binary64 b)) :
    unpack .binary64 b' = (unpack .binary64 b).neg := by
  unfold unpack
  dsimp only
  rw [exponent, sign]
  by_cases special : @unpackExponent .binary64 b = -1#11
  · rw [if_pos special, if_pos special, mantissa]
    by_cases none : @unpackMantissa .binary64 b = 0#52
    · rw [if_pos none, if_pos none]
      rfl
    · rw [if_neg none, if_neg none]
      rfl
  rw [if_neg special, if_neg special]
  by_cases small : @unpackExponent .binary64 b = 0#11
  · rw [if_pos small, if_pos small]
    by_cases none : @unpackMantissa .binary64 b = 0#52
    · rw [dif_pos none, dif_pos (mantissa.trans none)]
      rfl
    · rw [dif_neg none, dif_neg fun same => none (mantissa.symm.trans same)]
      show _ = Float.Model.UnpackedFloat.finite _ _ _ _
      congr 1
      rw [mantissa]
  · rw [if_neg small, if_neg small]
    show _ = Float.Model.UnpackedFloat.finite _ _ _ _
    congr 1
    rw [mantissa]

section Magnitudes

variable {bits : UInt64} {m : Magnitude}

theorem toNat_ofNat (small : m < Magnitude.infinity) : (UInt64.ofNat m).toNat = m := by
  have : Magnitude.infinity < UInt64.size := by decide
  exact UInt64.toNat_ofNat_of_lt (Nat.lt_trans small this)

/-- The bits of a finite magnitude, with no sign. -/
theorem ofBits_ofNat (small : m < Magnitude.infinity) :
    ofBits (UInt64.ofNat m).toNat = .finite false m := by
  have wide : Magnitude.infinity < 1 <<< 63 := by decide
  have low : m / pow2 63 = 0 := Nat.div_eq_of_lt (Nat.lt_trans small wide)
  have whole : m % pow2 63 = m := Nat.mod_eq_of_lt (Nat.lt_trans small wide)
  unfold ofBits
  dsimp only
  rw [toNat_ofNat small, whole, low, if_pos small]
  rfl

/-- A pattern without a sign is that of the double of its magnitude. -/
theorem toBits_toFloat (finite : ofBits bits.toNat = .finite false m) :
    m.toFloat.toBits = bits := by
  obtain ⟨-, small⟩ := ofBits_eq_finite finite
  have same : UInt64.ofNat m = bits := by
    refine UInt64.toNat_inj.1 ?_
    rw [toNat_ofNat small, toNat_bits finite]
    rfl
  rw [Magnitude.toFloat, same, toBits_ofBits finite]

/-- **A pattern with a sign is that of the opposite** of the double of its magnitude. -/
theorem toBits_neg (finite : ofBits bits.toNat = .finite true m) :
    (-m.toFloat).toBits = bits := by
  obtain ⟨-, small⟩ := ofBits_eq_finite finite
  have value : bits.toNat = m + 2 ^ 63 := toNat_bits finite
  have below : m < 2 ^ 63 := Nat.lt_trans small (by decide)
  have plain : (UInt64.ofNat m).toBitVec.toNat = m := toNat_ofNat small
  have signed : bits.toBitVec.toNat = m + 2 ^ 63 := value
  have unpacked : unpack .binary64 bits.toBitVec
      = (unpack .binary64 (UInt64.ofNat m).toBitVec).neg := by
    refine unpack_eq_neg (BitVec.eq_of_toNat_eq ?_) (BitVec.eq_of_toNat_eq ?_) ?_
    · rw [toNat_unpackExponent, toNat_unpackExponent, plain, signed, Nat.shiftRight_eq_div_pow,
        Nat.shiftRight_eq_div_pow]
      omega
    · show (bits.toBitVec.extractLsb' 0 52).toNat
        = ((UInt64.ofNat m).toBitVec.extractLsb' 0 52).toNat
      rw [BitVec.extractLsb'_toNat, BitVec.extractLsb'_toNat, plain, signed, Nat.shiftRight_zero,
        Nat.shiftRight_zero]
      omega
    · have set : @unpackSign .binary64 bits.toBitVec = 1#1 := by
        refine BitVec.eq_of_toNat_eq ?_
        show (bits.toBitVec.extractLsb' 63 1).toNat = 1
        rw [BitVec.extractLsb'_toNat, signed, Nat.shiftRight_eq_div_pow]
        omega
      have clear : @unpackSign .binary64 (UInt64.ofNat m).toBitVec = 0#1 := by
        refine BitVec.eq_of_toNat_eq ?_
        show ((UInt64.ofNat m).toBitVec.extractLsb' 63 1).toNat = 0
        rw [BitVec.extractLsb'_toNat, plain, Nat.shiftRight_eq_div_pow]
        omega
      rw [set, clear]
      rfl
  have packed : (Float.ofBits bits).toBits.toBitVec = bits.toBitVec := by
    rw [toBits_ofBits finite]
  have kept : (Float.ofBits (UInt64.ofNat m)).toBits = UInt64.ofNat m :=
    toBits_ofBits (ofBits_ofNat small)
  refine UInt64.toBitVec_inj.1 (Eq.trans ?_ packed)
  show pack .binary64 (unpack .binary64 (Float.ofBits (UInt64.ofNat m)).toBits.toBitVec).neg
    = pack .binary64 (unpack .binary64 bits.toBitVec)
  rw [kept, unpacked]

end Magnitudes

end Kix.Double
