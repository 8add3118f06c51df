import Reckoner.Proofs.Numbers.Machine

/-!
# Numbers — the order of doubles

The machine compares two finite numbers by their signs, exponents and mantissas, in this order.
Since words are made up of the last two, **it orders doubles as their words**
(`compare_unpacked`), **and so as the grains that they stand for** (`lt_iff`, `le_iff`).  Only what
is not a number is outside this order.
-/

namespace Reckoner.Binary64

open Float.Model (UnpackedFloat)

variable {negative : Bool} {m k w : Nat} {x y : Float}

/-! ### Words -/

theorem compare_neg (a b : Int) : compare (-a) (-b) = (compare a b).swap := by
  rcases lt_trichotomy a b with hlt | rfl | hgt
  · rw [compare_lt_iff_lt.mpr hlt, compare_gt_iff_gt.mpr (Int.neg_lt_neg hlt)]
    rfl
  · rw [compare_eq_iff_eq.mpr rfl, compare_eq_iff_eq.mpr rfl]
    rfl
  · rw [compare_gt_iff_gt.mpr hgt, compare_lt_iff_lt.mpr (Int.neg_lt_neg hgt)]
    rfl

/-- Exponents before mantissas: this is how words are ordered. -/
theorem compare_canonical {m' k' : Nat} (h : Canonical m k) (h' : Canonical m' k') :
    (compare (k - 1074 : Int) (k' - 1074)).then (compare m m') =
      compare ((k * exponentBit + m : Nat) : Int) ((k' * exponentBit + m' : Nat) : Int) := by
  obtain ⟨-, hm, hfull⟩ := h
  obtain ⟨-, hm', hfull'⟩ := h'
  rcases Nat.lt_trichotomy k k' with hlt | rfl | hgt
  · have hexponent : (k - 1074 : Int) < k' - 1074 := by omega
    have hword : k * exponentBit + m < k' * exponentBit + m' := by
      simp only [exponentBit] at *
      omega
    rw [compare_lt_iff_lt.mpr hexponent, compare_lt_iff_lt.mpr (Int.ofNat_lt.mpr hword)]
    rfl
  · rw [compare_eq_iff_eq.mpr rfl]
    rcases Nat.lt_trichotomy m m' with hlt | rfl | hgt
    · rw [compare_lt_iff_lt.mpr hlt, compare_lt_iff_lt.mpr (by omega)]
      rfl
    · rw [compare_eq_iff_eq.mpr rfl, compare_eq_iff_eq.mpr rfl]
      rfl
    · rw [compare_gt_iff_gt.mpr hgt, compare_gt_iff_gt.mpr (by omega)]
      rfl
  · have hexponent : (k - 1074 : Int) > k' - 1074 := by omega
    have hword : k * exponentBit + m > k' * exponentBit + m' := by
      simp only [exponentBit] at *
      omega
    rw [compare_gt_iff_gt.mpr hexponent, compare_gt_iff_gt.mpr (Int.ofNat_lt.mpr hword)]
    rfl

theorem lt_eq_compare {a b : Int} : .lt = compare a b ↔ a < b := by
  rw [eq_comm, compare_lt_iff_lt]

theorem gt_eq_compare {a b : Int} : .gt = compare a b ↔ b < a := by
  rw [eq_comm, compare_gt_iff_gt]

/-- **The machine orders doubles as their words.** -/
theorem compare_unpacked {negative' : Bool} {w' : Nat} (hw : w ≤ infinityWord)
    (hw' : w' ≤ infinityWord) :
    UnpackedFloat.compare (unpacked negative w) (unpacked negative' w') =
      some (compare (signed negative w) (signed negative' w')) := by
  rcases word_cases hw with rfl | rfl | ⟨m, k, h, hk, hword⟩ <;>
    rcases word_cases hw' with rfl | rfl | ⟨m', k', h', hk', hword'⟩
  case inr.inr.inr.inr =>
    have hcompare := compare_canonical h h'
    have hpos := h.pos
    have hpos' := h'.pos
    rw [← hword, ← hword'] at hcompare
    rw [hword, unpacked_canonical h hk, ← hword, hword', unpacked_canonical h' hk', ← hword']
    cases negative <;> cases negative' <;>
      simp [UnpackedFloat.compare, sign, signed, hcompare, compare_neg, lt_eq_compare,
        gt_eq_compare] <;> omega
  case inl.inr.inr | inr.inl.inr.inr =>
    have hpos := h'.pos
    have hlt := hword' ▸ h'.word_lt hk'
    rw [hword', unpacked_canonical h' hk', ← hword']
    cases negative <;> cases negative' <;>
      simp [UnpackedFloat.compare, sign, signed, lt_eq_compare, gt_eq_compare] <;> omega
  case inr.inr.inl | inr.inr.inr.inl =>
    have hpos := h.pos
    have hlt := hword ▸ h.word_lt hk
    rw [hword, unpacked_canonical h hk, ← hword]
    cases negative <;> cases negative' <;>
      simp [UnpackedFloat.compare, sign, signed, lt_eq_compare, gt_eq_compare] <;> omega
  -- zeros and infinities among themselves
  all_goals cases negative <;> cases negative' <;> decide

/-! ### Grains with a sign -/

/-- The grains of a double, with its sign.  Those of infinity would be the next ones behind the
largest finite double. -/
def grains (x : Float) : Int :=
  signed (isNegative x) (magnitude x)

theorem grains_ofWord (hw : w < infinityWord) :
    grains (ofWord negative w) = signed negative (wordMagnitude w) := by
  rw [grains, magnitude, isNegative_ofWord (Nat.le_of_lt hw), word_ofWord (Nat.le_of_lt hw)]

theorem magnitude_pos_iff : 0 < magnitude x ↔ 0 < word x :=
  wordMagnitude_strictMono.lt_iff_lt (a := 0)

theorem natAbs_grains (x : Float) : (grains x).natAbs = magnitude x :=
  natAbs_signed _ _

/-- Grains are ordered as words. -/
theorem grains_lt_grains (x y : Float) : grains x < grains y ↔
    signed (isNegative x) (word x) < signed (isNegative y) (word y) := by
  have hxy : magnitude x < magnitude y ↔ word x < word y := wordMagnitude_strictMono.lt_iff_lt
  have hyx : magnitude y < magnitude x ↔ word y < word x := wordMagnitude_strictMono.lt_iff_lt
  have hx : 0 < magnitude x ↔ 0 < word x := magnitude_pos_iff
  have hy : 0 < magnitude y ↔ 0 < word y := magnitude_pos_iff
  unfold grains
  cases isNegative x <;> cases isNegative y <;>
    simp only [signed, if_true, if_false, Bool.false_eq_true] <;> omega

theorem lt_iff_compare :
    x < y ↔ UnpackedFloat.compare x.toModel.unpack y.toModel.unpack = some .lt := by
  have hlt : (x < y) = (decide (x.toModel.unpack.lt y.toModel.unpack = true) = true) := rfl
  rw [hlt, decide_eq_true_iff, UnpackedFloat.lt, beq_iff_eq]

theorem le_iff_compare :
    x ≤ y ↔ (UnpackedFloat.compare x.toModel.unpack y.toModel.unpack).any (·.isLE) = true := by
  have hle : (x ≤ y) = (decide (x.toModel.unpack.le y.toModel.unpack = true) = true) := rfl
  rw [hle, decide_eq_true_iff, UnpackedFloat.le]

/-- **Doubles are ordered as their grains.** -/
theorem lt_iff (hx : isNaN x = false) (hy : isNaN y = false) : x < y ↔ grains x < grains y := by
  have hwx := word_le_of_not_isNaN hx
  have hwy := word_le_of_not_isNaN hy
  rw [lt_iff_compare, toModel_unpack, toModel_unpack, compare_unpacked hwx hwy, Option.some_inj,
    compare_lt_iff_lt, grains_lt_grains]

theorem le_iff (hx : isNaN x = false) (hy : isNaN y = false) : x ≤ y ↔ grains x ≤ grains y := by
  have hwx := word_le_of_not_isNaN hx
  have hwy := word_le_of_not_isNaN hy
  rw [le_iff_compare, toModel_unpack, toModel_unpack, compare_unpacked hwx hwy, Option.any_some,
    Ordering.isLE_iff_ne_gt, compare_gt_iff_gt.not, ← not_lt, grains_lt_grains]

/-- What is not a number is not below anything. -/
theorem not_lt_of_isNaN (hx : isNaN x = true) : ¬ x < y := by
  rw [lt_iff_compare, toModel_unpack, unpacked_of_lt (of_decide_eq_true hx), UnpackedFloat.compare]
  simp

/-- Nor is it at or below anything, or anything at or below it. -/
theorem not_le_of_isNaN (hx : isNaN x = true) : ¬ x ≤ y ∧ ¬ y ≤ x := by
  rw [le_iff_compare, le_iff_compare, toModel_unpack, unpacked_of_lt (of_decide_eq_true hx)]
  cases y.toModel.unpack <;> simp [UnpackedFloat.compare]

end Reckoner.Binary64
