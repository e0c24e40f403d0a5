import GridScript.Formula.Eval
import GridScript.Proofs.Integers

/-!
# The modulus of integers

`modulus_floored_unless_multiple` says what the modulus of two integers is. It is the floored one,
unless the divisor divides the dividend evenly and their signs differ: the divisor is then
added to a remainder of zero, as `multiple_leaves_divisor` shows. Formulas compute it exactly
on floats that are integers.
-/

namespace GridScript

open Whole Float.Model.UnpackedFloat

/-- The truncated remainder has the sign of the dividend, unless it is zero, and is closer to zero
than the divisor. -/
theorem tmod_bounds (a : Int) {b : Int} (h : b ≠ 0) :
    (0 ≤ a → 0 ≤ a.tmod b) ∧ (a < 0 → a.tmod b ≤ 0) ∧ (a.tmod b).natAbs < b.natAbs := by
  refine ⟨Int.tmod_nonneg b, fun hneg => ?_, ?_⟩
  · have hopposite : 0 ≤ (-a).tmod b := Int.tmod_nonneg b (by omega)
    rw [Int.neg_tmod] at hopposite
    omega
  · rw [Int.natAbs_tmod]
    exact Nat.mod_lt _ (by omega)

/-- The truncated remainder is that of the absolute values with the sign of the dividend. -/
theorem tmod_eq_apply (a : Int) {b : Int} (h : b ≠ 0) :
    a.tmod b = (signOf a).apply (a.natAbs % b.natAbs : Nat) := by
  obtain ⟨hpositive, hnegative, -⟩ := tmod_bounds a h
  rw [← Int.natAbs_tmod, signOf]
  split <;> simp only [Sign.apply] <;> omega

/-- The modulus of integers: the remainder, with the divisor added if the signs differ. -/
theorem modulus_eq (a b : Int) :
    modulus a b = if 0 ≤ a ↔ 0 ≤ b then a.tmod b else b + a.tmod b := by
  change (if (decide (0 ≤ a) == decide (0 ≤ b)) = true then a.tmod b else b + a.tmod (-b)) = _
  rw [Int.tmod_neg]
  refine if_congr ?_ rfl rfl
  rw [beq_iff_eq, decide_eq_decide]

/-- The modulus of integers is computed exactly. -/
theorem modulus_ofInt {a b : Int} (ha : a.natAbs < 2 ^ 53) (hb : b.natAbs < 2 ^ 53) (h : b ≠ 0) :
    Number.ofFloat (modulus (Float.ofInt a) (Float.ofInt b)) = .ok (.ofInt (modulus a b)) := by
  obtain ⟨hpositive, hnegative, hsmall⟩ := tmod_bounds a h
  have hrest : a.natAbs % b.natAbs < 2 ^ 53 := by
    rw [← Int.natAbs_tmod]
    omega
  have hsame : (TruncatedRemainder.isPositive (Float.ofInt a) ==
      TruncatedRemainder.isPositive (Float.ofInt b)) = true ↔ (0 ≤ a ↔ 0 ≤ b) := by
    rw [isPositive_ofInt ha, isPositive_ofInt hb, beq_iff_eq]
    exact decide_eq_decide
  rw [modulus_eq]
  by_cases hsigns : 0 ≤ a ↔ 0 ≤ b
  · rw [if_pos hsigns, modulus, if_pos (hsame.2 hsigns)]
    change Number.ofFloat (floatRemainder (Float.ofInt a) (Float.ofInt b)) = _
    rw [ofInt_eq ha, ofInt_eq hb, floatRemainder_toFloat ha hb (by omega), ofFloat_toFloat hrest,
      tmod_eq_apply a h]
  · have hsum : ((signOf b).apply b.natAbs +
        (signOf a).apply (a.natAbs % b.natAbs : Nat)).natAbs < 2 ^ 53 := by
      rw [apply_signOf, ← tmod_eq_apply a h]
      omega
    rw [if_neg hsigns, modulus, if_neg (fun heq => hsigns (hsame.1 heq))]
    change Number.ofFloat (Float.ofInt b + floatRemainder (Float.ofInt a) (-Float.ofInt b)) = _
    rw [ofInt_eq ha, ofInt_eq hb, neg_toFloat hb, floatRemainder_toFloat ha hb (by omega),
      add_toFloat hb hrest (by omega) hsum, ofFloat_toFloat hsum, apply_signOf, apply_signOf,
      tmod_eq_apply a h]

/-- The modulus differs from the dividend by a multiple of the divisor, and lies between zero and
the divisor on the divisor's side, zero included; except that dividing evenly with different signs
gives the divisor in place of zero. Formulas compute it exactly on integers below two to the
power `53`. -/
theorem modulus_floored_unless_multiple {a b : Int} (h : b ≠ 0) :
    b ∣ a - modulus a b ∧
      (if b ∣ a ∧ ¬ (0 ≤ a ↔ 0 ≤ b) then modulus a b = b
      else (0 < b → 0 ≤ modulus a b ∧ modulus a b < b) ∧
        (b < 0 → b < modulus a b ∧ modulus a b ≤ 0)) ∧
      (a.natAbs < 2 ^ 53 → b.natAbs < 2 ^ 53 →
        Formula.applyBinary .mod (.number (.ofInt a)) (.number (.ofInt b)) =
          .ok (.number (.ofInt (modulus a b)))) := by
  obtain ⟨hpositive, hnegative, hsmall⟩ := tmod_bounds a h
  have heven : b ∣ a ↔ a.tmod b = 0 := Int.dvd_iff_tmod_eq_zero
  have hrest : b ∣ a - a.tmod b := Int.dvd_self_sub_of_tmod_eq rfl
  refine ⟨?_, ?_, fun ha hb => ?_⟩
  · rw [modulus_eq]
    split
    · exact hrest
    · have hapart : a - (b + a.tmod b) = a - a.tmod b - b := by omega
      rw [hapart]
      exact Int.dvd_sub hrest (Int.dvd_refl b)
  · rw [modulus_eq]
    split <;> split <;> omega
  · have hresult := modulus_ofInt ha hb h
    rw [← toFloat_ofInt ha, ← toFloat_ofInt hb] at hresult
    change (Fault.ofNumber (modulus (Number.ofInt a).toFloat (Number.ofInt b).toFloat)).map
      Value.number = _
    rw [Fault.ofNumber, hresult]
    rfl

/-- The modulus of seven below zero by three is two. -/
theorem modulus_floored_unless_multiple_seven : (3 : Int) ≠ 0 ∧ (3 : Int) ∣ -7 - 2 ∧
    Formula.applyBinary .mod (.number (.ofInt (-7))) (.number (.ofInt 3)) =
      .ok (.number (.ofInt 2)) := by
  have hvalue : modulus (-7 : Int) 3 = 2 := by decide
  obtain ⟨hdvd, -, hfloat⟩ := modulus_floored_unless_multiple (a := -7) (b := 3) (by decide)
  rw [hvalue] at hdvd hfloat
  exact ⟨by decide, hdvd, hfloat (by decide) (by decide)⟩

/-- A multiple of the divisor with the other sign leaves the divisor. -/
theorem multiple_leaves_divisor :
    Formula.applyBinary .mod (.number (.ofInt (-6))) (.number (.ofInt 3)) =
      .ok (.number (.ofInt 3)) ∧
      ¬ ∀ a b : Int, b ≠ 0 → (0 < b → 0 ≤ modulus a b ∧ modulus a b < b) ∧
        (b < 0 → b < modulus a b ∧ modulus a b ≤ 0) := by
  refine ⟨by rfl, fun hall => ?_⟩
  have hrange := (hall (-6) 3 (by decide)).1 (by decide)
  exact absurd hrange.2 (by decide)

end GridScript
