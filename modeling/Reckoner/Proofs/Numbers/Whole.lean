import Reckoner.Binary64.Whole
import Reckoner.Proofs.Numbers.Differences
import Reckoner.Proofs.Numbers.Exact

/-!
# Numbers — doubles rounded to whole numbers

A finite double is a rational number, `toRat`.  **The whole number that it is rounded to is a double
in turn** (`grains_toWhole`), in whichever way it is rounded: a double with places behind the point
is small, and a large one is a whole number already.

Rounded to the nearest, it is a half away at most, so that **the machine finds the exact distance
of a double from the nearest integer** (`toRat_sub_toWhole`).
-/

namespace Reckoner.Binary64

variable {x y : Float}

theorem grainsPerOne_pos : 0 < grainsPerOne := by
  decide

/-! ### Doubles as rational numbers -/

/-- The number that a finite double is. -/
def toRat (x : Float) : ℚ :=
  grains x / grainsPerOne

theorem not_isNaN_of_isFinite (hx : isFinite x = true) : isNaN x = false :=
  decide_eq_false (Nat.lt_asymm (of_decide_eq_true hx))

theorem lt_iff_toRat (hx : isFinite x = true) (hy : isFinite y = true) :
    x < y ↔ toRat x < toRat y := by
  rw [lt_iff (not_isNaN_of_isFinite hx) (not_isNaN_of_isFinite hy), toRat, toRat,
    div_lt_div_iff_of_pos_right (by exact_mod_cast grainsPerOne_pos), Int.cast_lt]

theorem toRat_abs (hx : isFinite x = true) : isFinite x.abs = true ∧ toRat x.abs = |toRat x| := by
  have hw : word x < infinityWord := of_decide_eq_true hx
  rw [abs_eq (not_isNaN_of_isFinite hx)]
  refine ⟨isFinite_ofWord hw, ?_⟩
  rw [toRat, toRat, grains_ofWord hw, abs_div, Nat.abs_cast, ← Int.cast_abs, Int.abs_eq_natAbs,
    natAbs_grains]
  rfl

/-- A whole number with 53 bits is a double. -/
theorem grains_ofRatio (negative : Bool) {n : Nat} (hn : n < 2 * exponentBit) :
    isFinite (ofRatio negative n 1) = true ∧
      grains (ofRatio negative n 1) = signed negative (n * grainsPerOne) := by
  obtain ⟨k, hk, hone⟩ := exists_grainsPerOne
  have hshift : n * grainsPerOne = n <<< k := by rw [hone, Nat.shiftLeft_eq]
  obtain ⟨hlt, hmagnitude⟩ := wordMagnitude_nearestWord hn (k := k) (by rw [hk]; decide)
  rw [← hshift] at hlt hmagnitude
  exact ⟨isFinite_ofWord hlt, by rw [ofRatio, grains_ofWord hlt, hmagnitude]⟩

section

variable {n : Nat}

/-- A natural number is as many ones. -/
theorem toRat_of_grains (h : grains x = (n * grainsPerOne : Nat)) : toRat x = n := by
  rw [toRat, h, Int.cast_natCast, Nat.cast_mul, mul_div_cancel_right₀]
  exact_mod_cast grainsPerOne_pos.ne'

theorem toNat_toUInt32_of_grains (hx : isFinite x = true)
    (h : grains x = (n * grainsPerOne : Nat)) (hn : n < 2 ^ 32) : x.toUInt32.toNat = n := by
  have hones : magnitude x / grainsPerOne = n := by
    rw [← natAbs_grains, h, Int.natAbs_natCast, Nat.mul_div_cancel _ grainsPerOne_pos]
  rw [toNat_toUInt32 hx (by rw [h]; exact Int.natCast_nonneg _) (by rwa [hones]), hones]

theorem toRat_ofNat (hn : n < 2 * exponentBit) :
    isFinite (ofNat n) = true ∧ toRat (ofNat n) = n :=
  ⟨(grains_ofRatio false hn).1, toRat_of_grains (grains_ofRatio false hn).2⟩

end

/-! ### Whole numbers -/

/-- A whole number is not raised. -/
theorem raises_zero (mode : Rounding) (negative : Bool) (whole : Nat) :
    mode.raises negative whole 0 = false := by
  have hpos := grainsPerOne_pos
  cases mode <;> simp [Rounding.raises]
  · omega
  · exact fun hzero => absurd hzero.symm (Nat.ne_of_gt hpos)

/-- Rounding adds one at most. -/
theorem wholeMagnitude_le (mode : Rounding) (x : Float) :
    wholeMagnitude mode x ≤ magnitude x / grainsPerOne + 1 := by
  unfold wholeMagnitude
  dsimp only
  split
  · exact Nat.le_refl _
  · exact Nat.le_succ _

/-- A whole number of ones stays as it is. -/
theorem wholeMagnitude_mul_of_dvd (mode : Rounding) (h : grainsPerOne ∣ magnitude x) :
    wholeMagnitude mode x * grainsPerOne = magnitude x := by
  rw [wholeMagnitude, Nat.mod_eq_zero_of_dvd h, raises_zero]
  exact Nat.div_mul_cancel h

/-- Where there are places behind the point, there are few ones. -/
theorem lt_or_dvd_magnitude (x : Float) :
    magnitude x / grainsPerOne < exponentBit ∨ grainsPerOne ∣ magnitude x := by
  obtain ⟨n, -, hone⟩ := exists_grainsPerOne
  rcases Nat.eq_zero_or_pos (word x) with hzero | hpos
  · rw [magnitude, hzero, wordMagnitude_zero]
    exact .inr (dvd_zero _)
  obtain ⟨m, k, h, hword⟩ := exists_canonical (Nat.ne_of_gt hpos)
  rw [magnitude, hword, h.wordMagnitude_eq, Nat.shiftLeft_eq]
  rcases Nat.lt_or_ge k n with hlow | hhigh
  · refine .inl ((Nat.div_lt_iff_lt_mul grainsPerOne_pos).mpr ?_)
    rw [hone]
    calc m * 2 ^ k < 2 * exponentBit * 2 ^ k :=
          Nat.mul_lt_mul_of_pos_right h.lt (Nat.two_pow_pos k)
      _ = exponentBit * 2 ^ (k + 1) := by ring
      _ ≤ exponentBit * 2 ^ n := Nat.mul_le_mul_left _ (Nat.pow_le_pow_right (by decide) hlow)
  · rw [hone]
    exact .inr (dvd_mul_of_dvd_right (pow_dvd_pow 2 hhigh) m)

/-- **The whole number that a finite double is rounded to is a double.** -/
theorem grains_toWhole (mode : Rounding) (hx : isFinite x = true) :
    isFinite (toWhole mode x) = true ∧
      grains (toWhole mode x) = signed (isNegative x) (wholeMagnitude mode x * grainsPerOne) := by
  rw [toWhole, if_pos hx]
  rcases lt_or_dvd_magnitude x with hfew | hwhole
  · have hbit : exponentBit + 1 ≤ 2 * exponentBit := by decide
    have hle := wholeMagnitude_le mode x
    exact grains_ofRatio _ (by omega)
  · have hw : word x < infinityWord := of_decide_eq_true hx
    rw [ofRatio, wholeMagnitude_mul_of_dvd mode hwhole, magnitude, nearestWord_wordMagnitude hw]
    exact ⟨isFinite_ofWord hw, grains_ofWord hw⟩

/-! ### The nearest integer -/

/-- What is rounded to the nearest is moved by a half at most. -/
theorem wholeMagnitude_near (x : Float) :
    2 * magnitude x ≤ 2 * (wholeMagnitude .halfAway x * grainsPerOne) + grainsPerOne ∧
      2 * (wholeMagnitude .halfAway x * grainsPerOne) ≤ 2 * magnitude x + grainsPerOne := by
  have hsplit := Nat.div_add_mod' (magnitude x) grainsPerOne
  have hrest := Nat.mod_lt (magnitude x) grainsPerOne_pos
  simp only [wholeMagnitude, Rounding.raises, decide_eq_true_eq]
  split
  · rw [Nat.add_one_mul (magnitude x / grainsPerOne)]
    omega
  · omega

/-- The integer that a finite double is rounded to. -/
def nearestInt (x : Float) : ℤ :=
  signed (isNegative x) (wholeMagnitude .halfAway x)

theorem toRat_toWhole (hx : isFinite x = true) : toRat (toWhole .halfAway x) = nearestInt x := by
  rw [toRat, (grains_toWhole .halfAway hx).2, signed_mul, nearestInt, Int.cast_mul, Int.cast_natCast,
    mul_div_cancel_right₀]
  exact_mod_cast grainsPerOne_pos.ne'

theorem natAbs_grains_sub (x : Float) : 2 * (grains x -
    signed (isNegative x) (wholeMagnitude .halfAway x * grainsPerOne)).natAbs ≤ grainsPerOne := by
  have hnear := wholeMagnitude_near x
  unfold grains
  cases isNegative x <;> simp only [signed, if_true, if_false, Bool.false_eq_true] <;> omega

/-- **Rounded to the nearest, a double is no further than a half away.** -/
theorem abs_nearestInt_sub_le (x : Float) : |(nearestInt x : ℚ) - toRat x| ≤ 1 / 2 := by
  have hpos : (0 : ℚ) < grainsPerOne := by exact_mod_cast grainsPerOne_pos
  have hgrains : (nearestInt x : ℚ) - toRat x = -((grains x -
      signed (isNegative x) (wholeMagnitude .halfAway x * grainsPerOne) : ℤ) / grainsPerOne) := by
    rw [signed_mul, toRat, nearestInt]
    push_cast
    field_simp
    ring
  have hnear : 2 * |((grains x -
      signed (isNegative x) (wholeMagnitude .halfAway x * grainsPerOne) : ℤ) : ℚ)| ≤
      grainsPerOne := by
    rw [← Int.cast_abs, Int.abs_eq_natAbs]
    exact_mod_cast natAbs_grains_sub x
  rw [hgrains, abs_neg, abs_div, abs_of_pos hpos, div_le_div_iff₀ hpos two_pos]
  linarith

/-- The distance is no larger than the double, nor than the whole number unless that is zero. -/
theorem natAbs_grains_sub_le (x : Float) (d : Int)
    (hd : d = grains x - signed (isNegative x) (wholeMagnitude .halfAway x * grainsPerOne)) :
    d.natAbs ≤ magnitude x ∧ (wholeMagnitude .halfAway x = 0 ∨
      d.natAbs ≤ wholeMagnitude .halfAway x * grainsPerOne) := by
  have hnear := natAbs_grains_sub x
  rw [← hd] at hnear
  rcases Nat.eq_zero_or_pos (wholeMagnitude .halfAway x) with hzero | hpos
  · rw [hzero, Nat.zero_mul, signed_zero, Int.sub_zero] at hd
    exact ⟨by rw [hd, natAbs_grains], .inl hzero⟩
  · have hone := Nat.le_mul_of_pos_left grainsPerOne hpos
    have hhalf := (wholeMagnitude_near x).2
    exact ⟨by omega, .inr (by omega)⟩

/-- **The machine finds how far a double is from the nearest integer.** -/
theorem toRat_sub_toWhole (hx : isFinite x = true) :
    isFinite (x - toWhole .halfAway x) = true ∧
      toRat (x - toWhole .halfAway x) = toRat x - nearestInt x := by
  obtain ⟨hfinite, hgrains⟩ := grains_toWhole .halfAway hx
  have hmagnitude := natAbs_grains (toWhole .halfAway x)
  rw [hgrains, natAbs_signed] at hmagnitude
  obtain ⟨hleft, hright⟩ := natAbs_grains_sub_le x _ rfl
  obtain ⟨hsub, hdifference⟩ := grains_sub hx hfinite (by rwa [hgrains]) <| by
    rw [hgrains, ← hmagnitude]
    refine hright.imp_left fun hzero => ?_
    rw [hzero, Nat.zero_mul] at hmagnitude
    exact Nat.eq_zero_of_not_pos fun hpos => (magnitude_pos_iff.mpr hpos).ne hmagnitude
  refine ⟨hsub, ?_⟩
  rw [← toRat_toWhole hx, toRat, toRat, toRat, hdifference, Int.cast_sub, sub_div]

end Reckoner.Binary64
