import Mathlib.Data.Sign.Basic
import Reckoner.Proofs.Numbers.Exact

/-!
# Evaluation — floored division

A division is floored if its quotient is a whole number and what remains is smaller than the
divisor and has its sign (`FlooredDivision`).  There is one such pair for every two numbers, the
divisor not being zero (`FlooredDivision.unique`).

The two operators reckon its halves by ways of their own: the quotient is the floor of a division,
the remainder is what truncation toward zero leaves, moved by the divisor where the signs differ.
**Together they are the floored division** (`Operator.apply_flooredDivision`), read over numbers
that are not rounded.
-/

namespace Reckoner

/-- `a` is `q` times `b` and `r` besides, which is smaller than `b` and has its sign. -/
structure FlooredDivision (a b : ℚ) (q : ℤ) (r : ℚ) : Prop where
  eq_add : a = b * q + r
  abs_lt : |r| < |b|
  sign : r = 0 ∨ SignType.sign r = SignType.sign b

namespace FlooredDivision

variable {a b : ℚ}

/-- The floor of the quotient, and the part of it behind the point times the divisor. -/
theorem floor (hb : b ≠ 0) : FlooredDivision a b ⌊a / b⌋ (b * Int.fract (a / b)) where
  eq_add := by
    rw [← mul_add, Int.floor_add_fract, mul_div_cancel₀ a hb]
  abs_lt := by
    rw [abs_mul, Int.abs_fract]
    exact mul_lt_of_lt_one_right (abs_pos.mpr hb) (Int.fract_lt_one _)
  sign := by
    rcases (Int.fract_nonneg (a / b)).eq_or_lt with hzero | hpos
    · exact .inl (by rw [← hzero, mul_zero])
    · exact .inr (by rw [sign_mul, sign_pos hpos, mul_one])

/-- **There is one floored division.** -/
theorem unique {q : ℤ} {r : ℚ} (hb : b ≠ 0) (h : FlooredDivision a b q r) :
    q = ⌊a / b⌋ ∧ r = b * Int.fract (a / b) := by
  have hquotient : a / b = q + r / b := by
    rw [h.eq_add, add_div, mul_div_cancel_left₀ _ hb]
  have hpart : 0 ≤ r / b ∧ r / b < 1 := by
    refine ⟨?_, (le_abs_self _).trans_lt ?_⟩
    · rcases h.sign with rfl | hsign
      · rw [zero_div]
      · rcases lt_or_gt_of_ne hb with hneg | hpos
        · rw [sign_neg hneg, sign_eq_neg_one_iff] at hsign
          exact (div_pos_of_neg_of_neg hsign hneg).le
        · rw [sign_pos hpos, sign_eq_one_iff] at hsign
          exact (div_pos hsign hpos).le
    · rw [abs_div, div_lt_one (abs_pos.mpr hb)]
      exact h.abs_lt
  have hfloor : ⌊a / b⌋ = q := by
    rw [hquotient, Int.floor_intCast_add, Int.floor_eq_zero_iff.mpr hpart, add_zero]
  refine ⟨hfloor.symm, ?_⟩
  rw [Int.fract, hfloor, hquotient, add_sub_cancel_left, mul_div_cancel₀ r hb]

end FlooredDivision

/-- Truncation leaves the part behind the point, or, below zero, what this part lacks of one. -/
theorem Exact.sub_truncate_cases (x : ℚ) :
    x - truncate x = Int.fract x ∨ (x - truncate x = Int.fract x - 1 ∧ 0 < Int.fract x) := by
  unfold truncate
  split
  · rcases Int.fract_eq_zero_or_add_one_sub_ceil x with hzero | hpart
    · obtain ⟨n, rfl⟩ := Int.fract_eq_zero_iff.mp hzero
      exact .inl (by simp)
    · rcases (Int.fract_nonneg x).eq_or_lt with hzero | hpos
      · obtain ⟨n, rfl⟩ := Int.fract_eq_zero_iff.mp hzero.symm
        exact .inl (by simp)
      · exact .inr ⟨by rw [hpart]; ring, hpos⟩
  · exact .inl rfl

section

variable [ExactPower]

namespace Arithmetic

/-- The remainder of truncation is moved by the divisor if the signs differ. -/
theorem flooredRemainder_eq {a b r : ℚ} (hr : r = a - b * Exact.truncate (a / b)) :
    flooredRemainder a b = if r ≠ 0 ∧ ¬ (r < 0 ↔ b < 0) then r + b else r := by
  subst hr
  simp [flooredRemainder, remainder, isZero, isBelowZero, add]

/-- **The remainder is the part behind the point times the divisor.** -/
theorem flooredRemainder_eq_fract {a b : ℚ} (hb : b ≠ 0) :
    flooredRemainder a b = b * Int.fract (a / b) := by
  have hleft : b * (a / b - Exact.truncate (a / b)) = a - b * Exact.truncate (a / b) := by
    rw [mul_sub, mul_div_cancel₀ a hb]
  rw [flooredRemainder_eq hleft]
  have hone := Int.fract_lt_one (a / b)
  rcases Exact.sub_truncate_cases (a / b) with heq | ⟨heq, hpos⟩ <;> rw [heq]
  · -- nothing is left, or something with the sign of the divisor
    refine if_neg ?_
    rintro ⟨hne, hsigns⟩
    have hpos : 0 < Int.fract (a / b) :=
      lt_of_le_of_ne (Int.fract_nonneg _) (right_ne_zero_of_mul hne).symm
    exact hsigns (by simp [mul_neg_iff, hpos, hpos.not_gt])
  · -- what is left has the other sign, and the divisor makes up for it
    have hneg : Int.fract (a / b) - 1 < 0 := by linarith
    have hsigns : ¬ (b * (Int.fract (a / b) - 1) < 0 ↔ b < 0) := by
      rcases lt_or_gt_of_ne hb with hb | hb
      · exact fun h => (h.mpr hb).not_gt (mul_pos_of_neg_of_neg hb hneg)
      · exact fun h => hb.not_gt (h.mp (mul_neg_of_pos_of_neg hb hneg))
    rw [if_pos ⟨mul_ne_zero hb hneg.ne, hsigns⟩]
    ring

end Arithmetic

/-- A division has a value where the divisor is not zero. -/
theorem Operator.divide_of_ne_zero (op : Operator) {b : ℚ} (hb : b ≠ 0) (value : ℚ) :
    apply.divide op b value = .ok value :=
  if_neg (by simpa [Arithmetic.isZero] using hb)

/-- **The two operators give the floored division.**  Over numbers that are not rounded they have
values wherever the divisor is not zero: a whole number, and what remains, which is smaller than
the divisor and has its sign; and no other pair is such. -/
theorem Operator.apply_flooredDivision (a b : ℚ) (hb : b ≠ 0) :
    ∃ (q : ℤ) (r : ℚ), Operator.floorDiv.apply a b = .ok (q : ℚ) ∧
      Operator.mod.apply a b = .ok r ∧ FlooredDivision a b q r ∧
      ∀ (q' : ℤ) (r' : ℚ), FlooredDivision a b q' r' → q' = q ∧ r' = r := by
  refine ⟨⌊a / b⌋, b * Int.fract (a / b), divide_of_ne_zero _ hb _, ?_, .floor hb,
    fun q r h => h.unique hb⟩
  rw [← Arithmetic.flooredRemainder_eq_fract hb]
  exact divide_of_ne_zero _ hb _

end

/-- Seven and a half by two below zero: four times too much, and half of one is left below zero. -/
theorem Operator.apply_flooredDivision_negative :
    letI : ExactPower := ⟨fun x y => x ^ y.num⟩
    (-2 : ℚ) ≠ 0 ∧ Operator.floorDiv.apply (15 / 2 : ℚ) (-2) = .ok (-4) ∧
      Operator.mod.apply (15 / 2 : ℚ) (-2) = .ok (-1 / 2) := by
  let _ : ExactPower := ⟨fun x y => x ^ y.num⟩
  have hne : (-2 : ℚ) ≠ 0 := by norm_num
  obtain ⟨q, r, hq, hr, -, hunique⟩ := Operator.apply_flooredDivision (15 / 2) (-2) hne
  have hsign : SignType.sign (-1 / 2 : ℚ) = SignType.sign (-2 : ℚ) := by
    rw [sign_neg (by norm_num), sign_neg (by norm_num)]
  have hdivision : FlooredDivision (15 / 2) (-2) (-4) (-1 / 2) :=
    ⟨by norm_num, by norm_num [abs_div], .inr hsign⟩
  obtain ⟨rfl, rfl⟩ := hunique _ _ hdivision
  exact ⟨hne, by rw [hq]; norm_num, hr⟩

end Reckoner
