import GridScript.Number.Modulus
import Mathlib

/-!
# Integers as floats

Integers below two to the power `53` fit into the significand of a float. `ofInt_eq` says which
float stands for such an integer (`Whole.toFloat`). The statements about `Whole.toFloat` say
that negation, sums and remainders of these floats are exact as long as the results are
integers of this size, and `toFloat_ofInt` that nothing is lost when they become numbers of
the language.
-/

namespace GridScript.Whole

open Float.Model Float.Model.UnpackedFloat

variable {s t : Sign} {m n : Nat}

/-- The sign of an integer; zero counts as positive. -/
def signOf (z : Int) : Sign :=
  if z < 0 then .negative else .positive

/-- Natural numbers are positive. -/
theorem signOf_natCast (n : Nat) : signOf n = .positive :=
  if_neg (by omega)

/-- An integer is its absolute value with its sign. -/
@[simp] theorem apply_signOf (z : Int) : (signOf z).apply z.natAbs = z := by
  unfold signOf
  split <;> simp only [Sign.apply] <;> omega

/-- A sign does not change the absolute value. -/
@[simp] theorem natAbs_apply (s : Sign) (n : Nat) : (s.apply n).natAbs = n := by
  cases s <;> simp [Sign.apply]

/-- Other numbers than zero have the sign they are given. -/
theorem signOf_apply (h : n ≠ 0) : signOf (s.apply n) = s := by
  cases s with
  | negative => exact if_pos (by simp only [Sign.apply]; omega)
  | positive => exact if_neg (by simp only [Sign.apply]; omega)

/-- A sign may be given to a product or to its first factor. -/
theorem apply_mul (s : Sign) (n k : Nat) : s.apply (n * k : Nat) = s.apply n * k := by
  cases s <;> simp [Sign.apply]

/-- The number of binary places behind the point that a whole number leaves free in the
significand of a float. -/
def places (n : Nat) : Nat :=
  52 - n.log2

/-- The digits of a whole number and the places behind the point make up the significand. -/
theorem log2_add_places (hn : n < 2 ^ 53) : n.log2 + places n = 52 := by
  have hlog : n.log2 ≤ 52 := by
    by_cases h : n = 0
    · simp [h]
    · exact Nat.le_of_lt_succ ((Nat.log2_lt h).2 hn)
  unfold places
  omega

/-- A power of two adds to the length of a number. -/
theorem log2_mul_two_pow (h : n ≠ 0) (k : Nat) : (n * 2 ^ k).log2 = n.log2 + k := by
  induction k with
  | zero => simp
  | succ k ih =>
    have hne : n * 2 ^ k ≠ 0 := Nat.mul_ne_zero h (Nat.two_pow_pos k).ne'
    rw [Nat.pow_succ, ← Nat.mul_assoc, Nat.mul_comm _ 2, Nat.log2_two_mul hne, ih, Nat.add_assoc]

/-- Powers of two may be given one after the other. -/
theorem mul_two_pow_mul (n : Nat) {j k l : Nat} (h : j + k = l) :
    n * 2 ^ j * 2 ^ k = n * 2 ^ l := by
  rw [Nat.mul_assoc, ← Nat.pow_add, h]

/-- A number with zeros in all free places fills the significand. -/
theorem significand_bounds (hn : n < 2 ^ 53) (h : n ≠ 0) :
    2 ^ 52 ≤ n * 2 ^ places n ∧ n * 2 ^ places n < 2 ^ 53 := by
  refine (Nat.log2_eq_iff (Nat.mul_ne_zero h (Nat.two_pow_pos _).ne')).1 ?_
  rw [log2_mul_two_pow h, log2_add_places hn]

/-- The parts of the float of a whole number with a sign. Its significand is filled, unless it is
a zero, which has a sign, too. -/
def parts (sign : Sign) (n : Nat) : UnpackedFloat :=
  if h : n = 0 then .zero sign
  else .finite sign (n * 2 ^ places n) (-places n)
    (Nat.mul_pos (Nat.pos_of_ne_zero h) (Nat.two_pow_pos _))

/-- A zero keeps its sign. -/
@[simp] theorem parts_zero : parts s 0 = .zero s := rfl

/-- Any other number has a significand. -/
theorem parts_of_ne_zero (h : n ≠ 0) : parts s n = .finite s (n * 2 ^ places n) (-places n)
    (Nat.mul_pos (Nat.pos_of_ne_zero h) (Nat.two_pow_pos _)) :=
  dif_neg h

/-- The exponent that a number is rounded to. -/
theorem targetExponent_eq (m : Nat) (e : Int) :
    Format.binary64.targetExponent (totalExponent m e) = max (m.log2 + e - 52) (-1074) := by
  simp only [Format.targetExponent, totalExponent, Format.mantissaBits, Format.minExponent]
  omega

/-- Zeros at the end of a significand are dropped without a trace. -/
theorem shiftRight_exact (n k : Nat) :
    (⟨n * 2 ^ k, false, false⟩ : ExtendedMantissa) >>> k = ⟨n, false, false⟩ := by
  induction k generalizing n with
  | zero => simp [HShiftRight.hShiftRight, Nat.repeat]
  | succ k ih =>
    change ExtendedMantissa.shiftRightOne
      ((⟨n * 2 ^ (k + 1), false, false⟩ : ExtendedMantissa) >>> k) = _
    rw [Nat.pow_succ', ← Nat.mul_assoc, ih]
    simp [ExtendedMantissa.shiftRightOne]

/-- A number with zeros at its end that do not fit is shifted until it fills the significand. -/
theorem shiftToTargetExponent_exact (h : n ≠ 0) (hn : n < 2 ^ 53) {k : Nat}
    (hk : places n ≤ k) :
    shiftToTargetExponent .binary64 (n * 2 ^ k) (-k) .exact =
      (⟨n * 2 ^ places n, false, false⟩, -(places n : Int)) := by
  have hplaces := log2_add_places hn
  have hshift : (max ((n * 2 ^ k).log2 + -(k : Int) - 52) (-1074) - -(k : Int)).toNat =
      k - places n := by
    rw [log2_mul_two_pow h]
    omega
  simp only [shiftToTargetExponent, shiftToExponent, targetExponent_eq, hshift,
    ExtendedMantissa.ofMantissaAndAccuracy]
  rw [← mul_two_pow_mul n (Nat.add_sub_of_le hk), shiftRight_exact]
  congr 1
  omega

/-- There is nothing to be shifted in a zero. -/
theorem shiftToTargetExponent_zero (e : Int) :
    (shiftToTargetExponent .binary64 0 e .exact).1 = ⟨0, false, false⟩ := by
  have hshift := shiftRight_exact 0
  simp only [Nat.zero_mul] at hshift
  exact hshift _

/-- A significand that nothing is cut from is not rounded. -/
theorem roundedMantissa_exact (m : Nat) :
    (⟨m, false, false⟩ : ExtendedMantissa).roundedMantissa = m := rfl

/-- Rounding loses nothing of a number that fits into the significand. -/
theorem roundWithAccuracy_exact (h : n ≠ 0) (hn : n < 2 ^ 53) {k : Nat} (hk : places n ≤ k) :
    roundWithAccuracy .binary64 s (n * 2 ^ k) (-k) .exact = parts s n := by
  have hne : n * 2 ^ places n ≠ 0 := Nat.mul_ne_zero h (Nat.two_pow_pos _).ne'
  rw [roundWithAccuracy, shiftToTargetExponent_exact h hn hk]
  simp only [roundedMantissa_exact, shiftToTargetExponent_exact h hn (Nat.le_refl _),
    dif_neg hne, parts_of_ne_zero h]

/-- A whole number is made a float as it is, in whatever unit it is counted. -/
theorem round_scaled (hn : n < 2 ^ 53) (k : Nat) :
    UnpackedFloat.round .binary64 s (n * 2 ^ k) (-k) = parts s n := by
  by_cases h : n = 0
  · subst h
    simp only [UnpackedFloat.round, decreaseExponent, Nat.zero_mul, Nat.zero_shiftLeft, roundWithAccuracy,
      shiftToTargetExponent_zero, roundedMantissa_exact, parts_zero, dite_true]
  have hplaces := log2_add_places hn
  have hshift : (-(k : Int) - max ((n * 2 ^ k).log2 + -(k : Int) - 52) (-1074)).toNat =
      places n - k := by
    rw [log2_mul_two_pow h]
    omega
  have hscale : (n * 2 ^ k) <<< (places n - k) = n * 2 ^ max k (places n) := by
    rw [Nat.shiftLeft_eq]
    exact mul_two_pow_mul n (by omega)
  have hexponent : -(k : Int) - (places n - k : Nat) = -(max k (places n) : Nat) := by omega
  simp only [UnpackedFloat.round, decreaseExponent, targetExponent_eq, hshift, hscale, hexponent]
  exact roundWithAccuracy_exact h hn (le_max_right _ _)

/-- So is an integer. -/
theorem normalize_scaled {z : Int} (hz : z.natAbs < 2 ^ 53) (k : Nat) :
    UnpackedFloat.normalize .binary64 (z * 2 ^ k) (-k) .positive = parts (signOf z) z.natAbs := by
  have hpow : (0 : Int) < 2 ^ k := by positivity
  have habs : (z * 2 ^ k).natAbs = z.natAbs * 2 ^ k := by simp [Int.natAbs_mul, Int.natAbs_pow]
  rcases lt_trichotomy z 0 with h | rfl | h
  · have hneg : z * 2 ^ k < 0 := mul_neg_of_neg_of_pos h hpow
    have hcount : (-(z * 2 ^ k)).toNat = z.natAbs * 2 ^ k := by omega
    rw [UnpackedFloat.normalize, compare_lt_iff_lt.2 hneg, hcount, round_scaled hz, signOf, if_pos h]
  · simp [UnpackedFloat.normalize, signOf]
  · have hpos : 0 < z * 2 ^ k := mul_pos h hpow
    have hcount : (z * 2 ^ k).toNat = z.natAbs * 2 ^ k := by omega
    rw [UnpackedFloat.normalize, compare_gt_iff_gt.2 hpos, hcount, round_scaled hz, signOf, if_neg (by omega)]

section Components

variable (sign : Sign) (exponent : BitVec Format.binary64.exponentBits)
  (mantissa : BitVec Format.binary64.mantissaBitsWithoutImplicit)

/-- The sign is stored in front. -/
@[simp] theorem ofBitVec_unpackSign :
    Sign.ofBitVec (unpackSign (packComponents .binary64 sign exponent mantissa)) = sign := by
  simp only [unpackSign, packComponents, BitVec.extractLsb]
  rw [BitVec.extractLsb'_append_eq_of_le (by decide),
    BitVec.extractLsb'_append_eq_of_le (by decide)]
  cases sign <;> rfl

/-- The bits of a float are its components one after the other. -/
theorem toNat_packComponents :
    (packComponents .binary64 sign exponent mantissa).toNat =
      sign.toBitVec.toNat * signBit + exponent.toNat * fractionCount + mantissa.toNat := by
  rw [packComponents, BitVec.toNat_append, BitVec.toNat_append,
    ← Nat.shiftLeft_add_eq_or_of_lt mantissa.isLt,
    ← Nat.shiftLeft_add_eq_or_of_lt exponent.isLt]
  simp only [Nat.shiftLeft_eq, signBit, fractionCount]
  omega

/-- Components with an exponent of their own are those of a float with a leading one. -/
theorem unpack_packComponents (hlow : 0 < exponent.toNat) (hhigh : exponent.toNat < 2047) :
    UnpackedFloat.unpack .binary64 (packComponents .binary64 sign exponent mantissa) =
      .finite sign (2 ^ 52 + mantissa.toNat) (exponent.toNat - 1075) (by omega) := by
  have hinfinite : exponent ≠ -1#_ := by
    rintro rfl
    exact absurd hhigh (by decide)
  have hsubnormal : exponent ≠ 0#_ := by
    rintro rfl
    exact absurd hlow (by decide)
  have hsignificand : (1#1 ++ mantissa).toNat = 2 ^ 52 + mantissa.toNat := by
    rw [BitVec.toNat_append, ← Nat.shiftLeft_add_eq_or_of_lt mantissa.isLt, Nat.shiftLeft_eq]
    rfl
  rw [UnpackedFloat.unpack]
  simp only [unpackMantissa_packComponents, unpackExponent_packComponents, ofBitVec_unpackSign,
    if_neg hinfinite, if_neg hsubnormal, hsignificand]
  rfl

end Components

/-- The float of a whole number with a sign. -/
def toFloat (sign : Sign) (n : Nat) : Float :=
  .ofModel (.pack (parts sign n))

/-- The components of a whole number. -/
theorem pack_parts (hn : n < 2 ^ 53) (h : n ≠ 0) :
    UnpackedFloat.pack .binary64 (parts s n) =
      packComponents .binary64 s (BitVec.ofNat 11 (n.log2 + 1023))
        (BitVec.ofNat 52 (n * 2 ^ places n)) := by
  have hplaces := log2_add_places hn
  have hfull : (n * 2 ^ places n).log2 + 1 = Format.binary64.mantissaBits := by
    rw [log2_mul_two_pow h, hplaces]
    rfl
  have hbiased : (-(places n : Int) + Format.binary64.exponentBias +
      Format.binary64.mantissaBitsWithoutImplicit).toNat = n.log2 + 1023 := by
    change (-(places n : Int) + (1023 : Nat) + (52 : Nat)).toNat = n.log2 + 1023
    omega
  have hfinite : ¬ 2 ^ Format.binary64.exponentBits ≤ n.log2 + 1023 + 1 := by
    simp only [Nat.reducePow]
    omega
  rw [parts_of_ne_zero h]
  simp only [UnpackedFloat.pack, hbiased, if_neg hfinite, if_pos hfull]

/-- A whole number is read from its float. -/
theorem unpack_toFloat (hn : n < 2 ^ 53) : (toFloat s n).toModel.unpack = parts s n := by
  change UnpackedFloat.unpack .binary64 (UnpackedFloat.pack .binary64 (parts s n)) = parts s n
  by_cases h : n = 0
  · subst h
    cases s <;> rfl
  have hplaces := log2_add_places hn
  obtain ⟨hlow, hhigh⟩ := significand_bounds hn h
  have hexponent : (BitVec.ofNat 11 (n.log2 + 1023)).toNat = n.log2 + 1023 := by
    rw [BitVec.toNat_ofNat]
    omega
  have hsignificand : 2 ^ 52 + (BitVec.ofNat 52 (n * 2 ^ places n)).toNat = n * 2 ^ places n := by
    rw [BitVec.toNat_ofNat]
    omega
  have hunbiased : ((n.log2 + 1023 : Nat) : Int) - 1075 = -places n := by omega
  rw [pack_parts hn h, unpack_packComponents _ _ _ (by omega) (by omega)]
  simp only [hexponent, hsignificand, hunbiased, parts_of_ne_zero h]

/-- The bits of a whole number other than zero are those of a finite float with its sign. -/
theorem exists_magnitude (s : Sign) (hn : n < 2 ^ 53) (h : n ≠ 0) :
    ∃ magnitude, 0 < magnitude ∧ magnitude < infiniteMagnitude ∧
      (toFloat s n).toBits.toNat = s.toBitVec.toNat * signBit + magnitude := by
  have hplaces := log2_add_places hn
  obtain ⟨hlow, hhigh⟩ := significand_bounds hn h
  refine ⟨(n.log2 + 1022) * fractionCount + n * 2 ^ places n, by omega, ?_, ?_⟩
  · simp only [infiniteMagnitude, fractionCount]
    omega
  · change (UnpackedFloat.pack .binary64 (parts s n)).toNat = _
    rw [pack_parts hn h, toNat_packComponents, BitVec.toNat_ofNat, BitVec.toNat_ofNat]
    simp only [fractionCount]
    omega

/-- Negation turns the sign around. -/
theorem neg_toFloat (hn : n < 2 ^ 53) : -toFloat s n = toFloat (-s) n := by
  have hneg : (parts s n).neg = parts (-s) n := by
    unfold parts
    split <;> rfl
  change Float.ofModel (.pack (toFloat s n).toModel.unpack.neg) = toFloat (-s) n
  rw [unpack_toFloat hn, hneg, toFloat]

/-- The exponent of the smaller of two units. -/
theorem min_places (m n : Nat) : min (-(places m : Int)) (-(places n : Int)) =
    -(max (places m) (places n) : Nat) := by
  omega

/-- A significand counted in a smaller unit. -/
theorem count_eq {k : Nat} (hk : places n ≤ k) :
    (n * 2 ^ places n) <<< (-(places n : Int) - -(k : Int)).toNat = n * 2 ^ k := by
  rw [Nat.shiftLeft_eq]
  exact mul_two_pow_mul n (by omega)

/-- Remainders of whole numbers are whole. -/
theorem floatRemainder_toFloat (hm : m < 2 ^ 53) (hn : n < 2 ^ 53) (h : n ≠ 0) :
    floatRemainder (toFloat s m) (toFloat t n) = toFloat s (m % n) := by
  have hmod : m % n < 2 ^ 53 := (Nat.mod_lt m (Nat.pos_of_ne_zero h)).trans hn
  rw [floatRemainder, unpack_toFloat hm, unpack_toFloat hn, toFloat]
  congr 2
  by_cases hzero : m = 0
  · subst hzero
    rw [parts_of_ne_zero h, Nat.zero_mod]
    rfl
  · rw [parts_of_ne_zero h, parts_of_ne_zero hzero, partsRemainder]
    simp only [min_places, count_eq (le_max_left _ _), count_eq (le_max_right _ _)]
    rw [Nat.mul_mod_mul_right, round_scaled hmod]

/-- Sums of whole numbers are whole. -/
theorem add_toFloat (hm : m < 2 ^ 53) (hn : n < 2 ^ 53) (h : m ≠ 0)
    (hsum : (s.apply m + t.apply n).natAbs < 2 ^ 53) :
    toFloat s m + toFloat t n =
      toFloat (signOf (s.apply m + t.apply n)) (s.apply m + t.apply n).natAbs := by
  change Float.ofModel (.pack (UnpackedFloat.add .binary64 (toFloat s m).toModel.unpack
    (toFloat t n).toModel.unpack)) = _
  rw [unpack_toFloat hm, unpack_toFloat hn, toFloat]
  congr 2
  by_cases hzero : n = 0
  · subst hzero
    have hsame : s.apply m + t.apply (0 : Nat) = s.apply m := by cases t <;> simp [Sign.apply]
    rw [hsame, natAbs_apply, signOf_apply h, parts_of_ne_zero h, parts_zero]
    rfl
  · rw [parts_of_ne_zero h, parts_of_ne_zero hzero, UnpackedFloat.add]
    simp only [min_places, decreaseExponent, count_eq (le_max_left _ _),
      count_eq (le_max_right _ _), apply_mul, ← add_mul, Nat.cast_pow, Nat.cast_ofNat]
    exact normalize_scaled hsum _

/-- The float of a word. -/
theorem ofUInt64_eq (hn : n < 2 ^ 53) : n.toUInt64.toFloat = toFloat .positive n := by
  have hword : n.toUInt64.toNat = n := by
    rw [Nat.toUInt64, UInt64.toNat_ofNat']
    omega
  have hnormal : UnpackedFloat.normalize .binary64 (n : Int) 0 .positive = parts .positive n := by
    simpa [signOf_natCast] using normalize_scaled (z := n) (by simpa using hn) 0
  change Float.ofModel (.pack (UnpackedFloat.normalize .binary64 (n.toUInt64.toNat : Int) 0 .positive)) = _
  rw [hword, hnormal, toFloat]

/-- The float of a natural number: that of a word, times one. -/
theorem ofNat_eq (hn : n < 2 ^ 53) : Float.ofNat n = toFloat .positive n := by
  have hone : (Float.ofBits 0x3FF0000000000000).toModel.unpack =
      .finite .positive (2 ^ 52) (-52) (by decide) := by rfl
  change Float.ofScientific n false 0 = _
  rw [Float.ofScientific, dif_pos ⟨hn, by decide⟩]
  change n.toUInt64.toFloat * Float.ofBits 0x3FF0000000000000 = _
  rw [ofUInt64_eq hn]
  change Float.ofModel (.pack (UnpackedFloat.mul .binary64 (toFloat .positive n).toModel.unpack
    (Float.ofBits 0x3FF0000000000000).toModel.unpack)) = _
  rw [hone, unpack_toFloat hn, toFloat]
  congr 2
  by_cases h : n = 0
  · subst h
    rfl
  · have hunit : -(places n : Int) + -52 = -(places n + 52 : Nat) := by omega
    rw [parts_of_ne_zero h, UnpackedFloat.mul, mul_two_pow_mul n rfl, hunit,
      roundWithAccuracy_exact h hn (Nat.le_add_right _ _), parts_of_ne_zero h]
    rfl

/-- The float of an integer. -/
theorem ofInt_eq {z : Int} (hz : z.natAbs < 2 ^ 53) :
    Float.ofInt z = toFloat (signOf z) z.natAbs := by
  cases z with
  | ofNat n =>
    have hnat : Float.ofInt (.ofNat n) = Float.ofNat n := rfl
    rw [hnat, Int.ofNat_eq_natCast, Int.natAbs_natCast, signOf_natCast]
    exact ofNat_eq hz
  | negSucc n =>
    have hnegated : Float.ofInt (.negSucc n) = -Float.ofNat (n + 1) := rfl
    have hsign : signOf (.negSucc n) = -.positive := if_pos (Int.negSucc_lt_zero n)
    rw [Int.natAbs_negSucc] at hz ⊢
    rw [hnegated, ofNat_eq hz, neg_toFloat hz, hsign]

/-- The sign of an integer is seen in the bits of its float. -/
theorem isPositive_ofInt {z : Int} (hz : z.natAbs < 2 ^ 53) :
    TruncatedRemainder.isPositive (Float.ofInt z) = TruncatedRemainder.isPositive z := by
  rw [ofInt_eq hz]
  by_cases h : z = 0
  · subst h
    rfl
  obtain ⟨magnitude, -, hfinite, hbits⟩ := exists_magnitude (signOf z) hz (by omega)
  have hsign : (signOf z).toBitVec.toNat = if z < 0 then 1 else 0 := by
    unfold signOf
    split <;> rfl
  refine decide_eq_decide.2 ?_
  rw [hbits, hsign]
  simp only [infiniteMagnitude, fractionCount] at hfinite
  simp only [signBit]
  split <;> omega

/-- A whole number other than zero becomes a number with the bits of its float. -/
theorem exists_ofFloat (s : Sign) (hn : n < 2 ^ 53) (h : n ≠ 0) :
    ∃ number, Number.ofFloat (toFloat s n) = .ok number ∧ number.bits = (toFloat s n).toBits := by
  obtain ⟨magnitude, hnonzero, hmagnitude, hbits⟩ := exists_magnitude s hn h
  have hsign : s.toBitVec.toNat ≤ 1 := by cases s <;> decide
  simp only [infiniteMagnitude, fractionCount, signBit] at hmagnitude hbits
  have hfinite : floatMagnitude (toFloat s n).toBits < infiniteMagnitude := by
    simp only [floatMagnitude, infiniteMagnitude, signBit, fractionCount]
    omega
  have hsigned : (toFloat s n).toBits ≠ negativeZeroBits := fun heq => by
    have hzero : (toFloat s n).toBits.toNat = signBit := congrArg UInt64.toNat heq
    simp only [signBit] at hzero
    omega
  exact ⟨⟨_, hfinite, hsigned⟩, by simp [Number.ofFloat, Number.ofBits, hfinite, hsigned], rfl⟩

/-- Whole numbers are numbers of the language, which has a single zero. -/
theorem ofFloat_toFloat (hn : n < 2 ^ 53) :
    Number.ofFloat (toFloat s n) = .ok (.ofInt (s.apply n)) := by
  by_cases h : n = 0
  · subst h
    cases s <;> rfl
  · obtain ⟨number, hnumber, -⟩ := exists_ofFloat s hn h
    rw [Number.ofInt, ofInt_eq (by rwa [natAbs_apply]), natAbs_apply, signOf_apply h, hnumber]
    rfl

/-- Integers are numbers of the language. -/
theorem ofFloat_ofInt {z : Int} (hz : z.natAbs < 2 ^ 53) :
    Number.ofFloat (Float.ofInt z) = .ok (.ofInt z) := by
  rw [ofInt_eq hz, ofFloat_toFloat hz, apply_signOf]

/-- Integers are computed with as floats. -/
theorem toFloat_ofInt {z : Int} (hz : z.natAbs < 2 ^ 53) :
    (Number.ofInt z).toFloat = Float.ofInt z := by
  by_cases h : z = 0
  · subst h
    rfl
  have hfloat := ofFloat_ofInt hz
  rw [ofInt_eq hz] at hfloat ⊢
  obtain ⟨number, hnumber, hbits⟩ := exists_ofFloat (signOf z) hz (by omega)
  obtain rfl : number = .ofInt z := Except.ok.inj (hnumber.symm.trans hfloat)
  rw [Number.toFloat, hbits]
  change Float.ofModel (.pack (toFloat (signOf z) z.natAbs).toModel.unpack) = _
  rw [unpack_toFloat hz, toFloat]

end GridScript.Whole
