import Reckoner.Proofs.Numbers.Order

/-!
# Numbers — differences and whole parts

The machine subtracts by bringing both numbers to the smaller power of two, and rounds what is left
to 53 bits.  **A difference that is not larger than either number is left as it is**
(`grains_sub`): its bits are among those of the number with the smaller power.

A double is cut off to its ones by shifting its bits (`toNat_toUInt32`).
-/

namespace Reckoner.Binary64

open Float.Model (UnpackedFloat Format)
open Float.Model.UnpackedFloat (ExtendedMantissa Sign)

variable {negative : Bool} {m k w : Nat} {x y : Float}

/-! ### Rounding that leaves a number as it is -/

theorem targetExponent_eq (m : Nat) (e : Int) :
    Format.targetExponent .binary64 (Float.Model.totalExponent m e) =
      max (m.log2 + 1 + e - 53) (-1074) :=
  rfl

/-- A mantissa is not shifted to an exponent that is not above its own. -/
theorem shiftToExponent_of_le {e e' : Int} (h : e' ≤ e) :
    UnpackedFloat.shiftToExponent m e .exact e' = (.ofMantissaAndAccuracy m .exact, e) := by
  have hshift : (e' - e).toNat = 0 := Int.toNat_eq_zero.mpr (Int.sub_nonpos_of_le h)
  rw [UnpackedFloat.shiftToExponent, hshift]
  exact Prod.ext rfl (Int.add_zero e)

/-- 53 bits are not rounded. -/
theorem roundWithAccuracy_eq {s : Sign} (hm : 0 < m) (hlt : m < 2 * exponentBit) :
    UnpackedFloat.roundWithAccuracy .binary64 s m (k - 1074) .exact =
      .finite s m (k - 1074) hm := by
  have hlog : m.log2 < 53 := (Nat.log2_lt (Nat.ne_of_gt hm)).mpr hlt
  have hshift : UnpackedFloat.shiftToTargetExponent .binary64 m (k - 1074) .exact =
      (ExtendedMantissa.ofMantissaAndAccuracy m .exact, (k - 1074 : Int)) := by
    unfold UnpackedFloat.shiftToTargetExponent
    rw [targetExponent_eq]
    exact shiftToExponent_of_le (by omega)
  have hround : (ExtendedMantissa.ofMantissaAndAccuracy m .exact).roundedMantissa = m := rfl
  unfold UnpackedFloat.roundWithAccuracy
  simp only [hshift, hround]
  exact dif_neg (Nat.ne_of_gt hm)

/-- With 53 bits at most, a mantissa is moved to the power of two at which it is canonical. -/
theorem round_eq (negative : Bool) (hm : 0 < m) (hlt : m < 2 * exponentBit)
    (hk : k ≤ lastExponent) : UnpackedFloat.round .binary64 (sign negative) m (k - 1074) =
      unpacked negative (nearestWord (m <<< k) 1) := by
  have hlog : m.log2 < 53 := (Nat.log2_lt (Nat.ne_of_gt hm)).mpr hlt
  have hform := canonical_shiftLeft (k := k) hm hlt
  rw [nearestWord_eq hm hlt hk, unpacked_canonical hform (by omega)]
  have htarget : max (m.log2 + 1 + (k - 1074) - 53 : Int) (-1074) =
      (m.log2 + k - 52 : Nat) - 1074 := by
    omega
  generalize m.log2 + k - 52 = p at *
  have hp : p ≤ k := by omega
  have hshift : ((k - 1074 : Int) - (p - 1074)).toNat = k - p := by omega
  have hexponent : (k - 1074 : Int) - (k - p : Nat) = p - 1074 := by omega
  unfold UnpackedFloat.round UnpackedFloat.decreaseExponent
  simp only [targetExponent_eq, htarget, hshift, hexponent]
  exact roundWithAccuracy_eq hform.pos hform.lt

theorem normalize_eq {d : Int} (hd : d.natAbs < 2 * exponentBit) (hk : k ≤ lastExponent) :
    UnpackedFloat.normalize .binary64 d (k - 1074) .positive =
      unpacked (d < 0) (nearestWord (d.natAbs <<< k) 1) := by
  rcases lt_trichotomy d 0 with hneg | rfl | hpos
  · have hmantissa : (-d).toNat = d.natAbs := by omega
    rw [UnpackedFloat.normalize, compare_lt_iff_lt.mpr hneg, hmantissa, decide_eq_true hneg]
    exact round_eq true (by omega) hd hk
  · rw [Int.natAbs_zero, Nat.zero_shiftLeft, nearestWord_of_lt (by decide)]
    rfl
  · have hmantissa : d.toNat = d.natAbs := by omega
    rw [UnpackedFloat.normalize, compare_gt_iff_gt.mpr hpos, hmantissa,
      decide_eq_false (by omega)]
    exact round_eq false (by omega) hd hk

/-! ### Differences -/

/-- What the machine has taken apart is a finite number of `g` grains. -/
def IsGrains (u : UnpackedFloat) (g : Int) : Prop :=
  ∃ negative w, w < infinityWord ∧ u = unpacked negative w ∧ g = signed negative (wordMagnitude w)

/-- Put together, it is a double with these grains. -/
theorem IsGrains.ofModel {u : UnpackedFloat} {g : Int} (h : IsGrains u g) :
    isFinite (.ofModel (.pack u)) = true ∧ grains (.ofModel (.pack u)) = g := by
  obtain ⟨negative, w, hw, rfl, rfl⟩ := h
  rw [← ofWord_eq (Nat.lt_trans hw (by decide))]
  exact ⟨isFinite_ofWord hw, grains_ofWord hw⟩

theorem signed_natAbs (d : Int) : signed (d < 0) d.natAbs = d := by
  by_cases hneg : d < 0
  · rw [signed, if_pos (decide_eq_true hneg)]
    omega
  · rw [signed, if_neg (by simpa using hneg)]
    omega

/-- 53 bits at a power of two are so many grains. -/
theorem normalize_isGrains {d : Int} (hd : d.natAbs < 2 * exponentBit) (hk : k ≤ lastExponent) :
    IsGrains (.normalize .binary64 d (k - 1074) .positive) (d * (2 ^ k : Nat)) := by
  obtain ⟨hlt, hmagnitude⟩ := wordMagnitude_nearestWord hd hk
  refine ⟨d < 0, _, hlt, normalize_eq hd hk, ?_⟩
  rw [hmagnitude, Nat.shiftLeft_eq, signed_mul, signed_natAbs]

variable {negative' : Bool} {m' k' w' : Nat}

/-- Both numbers are brought to the smaller power of two. -/
theorem sub_canonical (h : Canonical m k) (h' : Canonical m' k') :
    UnpackedFloat.sub .binary64 (.finite (sign negative) m (k - 1074) h.pos)
      (.finite (sign negative') m' (k' - 1074) h'.pos) =
    UnpackedFloat.normalize .binary64
      (signed negative (m <<< (k - min k k')) - signed negative' (m' <<< (k' - min k k')))
      ((min k k' : Nat) - 1074) .positive := by
  have hmin : min (k - 1074 : Int) (k' - 1074) = (min k k' : Nat) - 1074 := by omega
  have hk : ((k - 1074 : Int) - ((min k k' : Nat) - 1074)).toNat = k - min k k' := by omega
  have hk' : ((k' - 1074 : Int) - ((min k k' : Nat) - 1074)).toNat = k' - min k k' := by omega
  simp only [UnpackedFloat.sub, UnpackedFloat.decreaseExponent, hmin, hk, hk', apply_sign]

theorem signed_shiftLeft {i j : Nat} (hj : j ≤ i) (negative : Bool) (a : Nat) :
    signed negative (a <<< i) = signed negative (a <<< (i - j)) * (2 ^ j : Nat) := by
  rw [← signed_mul, Nat.shiftLeft_eq, Nat.shiftLeft_eq, Nat.mul_assoc, ← Nat.pow_add,
    Nat.sub_add_cancel hj]

/-- The difference has 53 bits if it is not larger than the number with the smaller power. -/
theorem sub_canonical_isGrains (h : Canonical m k) (hk : k ≤ lastExponent) (h' : Canonical m' k')
    (hleft : (signed negative (m <<< k) - signed negative' (m' <<< k')).natAbs ≤ m <<< k)
    (hright : (signed negative (m <<< k) - signed negative' (m' <<< k')).natAbs ≤ m' <<< k') :
    IsGrains (.sub .binary64 (.finite (sign negative) m (k - 1074) h.pos)
      (.finite (sign negative') m' (k' - 1074) h'.pos))
      (signed negative (m <<< k) - signed negative' (m' <<< k')) := by
  rw [signed_shiftLeft (Nat.min_le_left k k'), signed_shiftLeft (Nat.min_le_right k k'),
    ← Int.sub_mul] at hleft hright ⊢
  rw [sub_canonical h h']
  generalize signed negative (m <<< (k - min k k')) -
    signed negative' (m' <<< (k' - min k k')) = d at *
  rw [Int.natAbs_mul, Int.natAbs_natCast] at hleft hright
  refine normalize_isGrains ?_ (Nat.le_trans (Nat.min_le_left ..) hk)
  rcases Nat.le_total k k' with hle | hle
  · rw [Nat.min_eq_left hle, Nat.shiftLeft_eq] at hleft
    exact Nat.lt_of_le_of_lt (Nat.le_of_mul_le_mul_right hleft (Nat.two_pow_pos k)) h.lt
  · rw [Nat.min_eq_right hle, Nat.shiftLeft_eq] at hright
    exact Nat.lt_of_le_of_lt (Nat.le_of_mul_le_mul_right hright (Nat.two_pow_pos k')) h'.lt

theorem sub_isGrains (hw : w < infinityWord) (hw' : w' < infinityWord)
    (hleft : (signed negative (wordMagnitude w) - signed negative' (wordMagnitude w')).natAbs ≤
      wordMagnitude w)
    (hright : w' = 0 ∨
      (signed negative (wordMagnitude w) - signed negative' (wordMagnitude w')).natAbs ≤
        wordMagnitude w') :
    IsGrains (.sub .binary64 (unpacked negative w) (unpacked negative' w'))
      (signed negative (wordMagnitude w) - signed negative' (wordMagnitude w')) := by
  rcases Nat.eq_zero_or_pos w' with rfl | hpos'
  · rcases word_cases (Nat.le_of_lt hw) with rfl | rfl | ⟨m, k, h, hk, hword⟩
    · refine ⟨negative && !negative', 0, hw, ?_, by simp⟩
      rw [unpacked_zero, unpacked_zero, unpacked_zero]
      cases negative <;> cases negative' <;> rfl
    · cases Nat.lt_irrefl _ hw
    · refine ⟨negative, w, hw, ?_, by simp⟩
      rw [hword, unpacked_canonical h hk, unpacked_zero]
      rfl
  · obtain ⟨m', k', h', rfl⟩ := exists_canonical (Nat.ne_of_gt hpos')
    have hk' := h'.le_lastExponent hw'
    replace hright := hright.resolve_left (Nat.ne_of_gt hpos')
    rcases Nat.eq_zero_or_pos w with rfl | hpos
    · -- zero is not as large as the difference
      have hmagnitude := wordMagnitude_strictMono hpos'
      rw [wordMagnitude_zero] at hleft hmagnitude
      rw [signed_zero, Int.zero_sub, Int.natAbs_neg, natAbs_signed] at hleft
      omega
    · obtain ⟨m, k, h, rfl⟩ := exists_canonical (Nat.ne_of_gt hpos)
      have hk := h.le_lastExponent hw
      rw [h.wordMagnitude_eq, h'.wordMagnitude_eq] at *
      rw [unpacked_canonical h hk, unpacked_canonical h' hk']
      exact sub_canonical_isGrains h hk h' hleft hright

/-- **A difference that is not larger than either number is exact.** -/
theorem grains_sub (hx : isFinite x = true) (hy : isFinite y = true)
    (hleft : (grains x - grains y).natAbs ≤ magnitude x)
    (hright : word y = 0 ∨ (grains x - grains y).natAbs ≤ magnitude y) :
    isFinite (x - y) = true ∧ grains (x - y) = grains x - grains y := by
  have hsub := sub_isGrains (of_decide_eq_true hx) (of_decide_eq_true hy) hleft hright
  rw [← toModel_unpack, ← toModel_unpack] at hsub
  exact hsub.ofModel

/-- An infinite number has no difference from itself. -/
theorem isNaN_sub_self (hx : word x = infinityWord) : isNaN (x - x) = true := by
  have hunpack : UnpackedFloat.sub .binary64 x.toModel.unpack x.toModel.unpack = .notANumber := by
    rw [toModel_unpack, hx]
    cases isNegative x <;> rfl
  have hsub : x - x = .ofModel (.pack .notANumber) := by
    rw [← hunpack]
    rfl
  rw [hsub, isNaN_ofModel_notANumber]

/-! ### Whole parts -/

/-- Bit by bit, a shift divides by a power of two. -/
theorem mantissa_repeat_shiftRightOne (n : Nat) (em : ExtendedMantissa) :
    (n.repeat ExtendedMantissa.shiftRightOne em).mantissa = em.mantissa / 2 ^ n := by
  induction n with
  | zero => simp [Nat.repeat]
  | succ n ih =>
      rw [Nat.repeat, ExtendedMantissa.shiftRightOne, ih, Nat.div_div_eq_div_mul, Nat.pow_succ]

/-- The lower bits are cut off, or were not there. -/
theorem shiftLeft_div_two_pow (m k n : Nat) : m <<< k / 2 ^ n = m <<< (k - n) / 2 ^ (n - k) := by
  rw [Nat.shiftLeft_eq, Nat.shiftLeft_eq]
  rcases Nat.le_total n k with hle | hle
  · obtain ⟨j, rfl⟩ := Nat.exists_eq_add_of_le' hle
    rw [Nat.add_sub_cancel, Nat.sub_eq_zero_of_le hle, Nat.pow_zero, Nat.div_one, Nat.pow_add,
      ← Nat.mul_assoc, Nat.mul_div_cancel _ (Nat.two_pow_pos n)]
  · have hsplit : 2 ^ n = 2 ^ (n - k) * 2 ^ k := by
      rw [← Nat.pow_add, Nat.sub_add_cancel hle]
    rw [hsplit, Nat.mul_div_mul_right _ _ (Nat.two_pow_pos k), Nat.sub_eq_zero_of_le hle,
      Nat.pow_zero, Nat.mul_one]

theorem roundToInt_eq (negative : Bool) (m k : Nat) :
    UnpackedFloat.roundToInt (sign negative) m (k - 1074) =
      signed negative (m <<< k / grainsPerOne) := by
  obtain ⟨n, hn, hone⟩ := exists_grainsPerOne
  have hmantissa : ∀ (a : Nat) (e : Int),
      (UnpackedFloat.shiftToExponent a e .exact 0).1.mantissa = a / 2 ^ (0 - e).toNat :=
    fun a e => mantissa_repeat_shiftRightOne _ _
  have hleft : (k - 1074 : Int).toNat = k - n := by omega
  have hright : (0 - ((k - 1074 : Int) - (k - n : Nat))).toNat = n - k := by omega
  rw [hone, shiftLeft_div_two_pow]
  unfold UnpackedFloat.roundToInt UnpackedFloat.decreaseExponent
  simp only [Int.sub_zero, hmantissa, apply_sign, hleft, hright]

theorem toInt_unpacked (hw : w < infinityWord) (a b : Int) :
    (unpacked negative w).toInt a b = signed negative (wordMagnitude w / grainsPerOne) := by
  rcases Nat.eq_zero_or_pos w with rfl | hpos
  · simp [UnpackedFloat.toInt]
  · obtain ⟨m, k, h, rfl⟩ := exists_canonical (Nat.ne_of_gt hpos)
    rw [unpacked_canonical h (h.le_lastExponent hw), h.wordMagnitude_eq]
    exact roundToInt_eq negative m k

/-- **A double that is not below zero is cut off to its ones**, if 32 bits hold them. -/
theorem toNat_toUInt32 (hx : isFinite x = true) (hpos : 0 ≤ grains x)
    (hsize : magnitude x / grainsPerOne < 2 ^ 32) :
    x.toUInt32.toNat = magnitude x / grainsPerOne := by
  have hones : (x.toModel.unpack.toInt 0 (UInt32.size - 1)).toNat = magnitude x / grainsPerOne := by
    rw [toModel_unpack, toInt_unpacked (of_decide_eq_true hx)]
    change (signed (isNegative x) (magnitude x / grainsPerOne)).toNat = _
    unfold grains at hpos
    cases hsign : isNegative x with
    | false => exact Int.toNat_natCast _
    | true =>
        have hzero : magnitude x = 0 := by simpa [signed, hsign] using hpos
        simp [hzero]
  rw [Float.toUInt32, Float.Model.toUInt32, UnpackedFloat.toUInt32, hones,
    UInt32.ofNatClamp_eq_ofNat _ hsize, UInt32.toNat_ofNat_of_lt' hsize]

end Reckoner.Binary64
