import Mathlib
import Reckoner.Proofs.Numbers.Rounding

/-!
# Numbers — words and their grains

A word other than zero stands for `m` times a power of two, where `m` has no more than 53 bits, and
as many unless the power is the least one (`Canonical`).  The word itself is the exponent of the
power and `m` added up, so that **words are ordered as the numbers of grains that they stand for**
(`wordMagnitude_strictMono`).

**A number of grains with 53 significant bits is not rounded** (`wordMagnitude_nearestWord`), if it
is not too large.
-/

namespace Reckoner.Binary64

/-- `m` times the `k`th power of two, with no bit left to be moved from `m` to the power. -/
structure Canonical (m k : Nat) : Prop where
  pos : 0 < m
  lt : m < 2 * exponentBit
  full : k = 0 ∨ exponentBit ≤ m

/-- The largest power of two that finite doubles are multiples of. -/
def lastExponent : Nat := 2045

/-- A one is a power of two grains.  The exponent is kept out of sight, so that no power of this
size is ever worked out. -/
theorem exists_grainsPerOne : ∃ n, n = 1074 ∧ grainsPerOne = 2 ^ n := by
  obtain ⟨n, hn⟩ : ∃ n, n = 1074 := ⟨_, rfl⟩
  exact ⟨n, hn, by rw [← Nat.one_shiftLeft, hn, grainsPerOne]⟩

/-- Every word but zero has such a form. -/
theorem exists_canonical {w : Nat} (hw : w ≠ 0) :
    ∃ m k, Canonical m k ∧ w = k * exponentBit + m := by
  refine ⟨w - (w / exponentBit - 1) * exponentBit, w / exponentBit - 1, ⟨?_, ?_, ?_⟩, ?_⟩ <;>
    simp only [exponentBit] at * <;> omega

namespace Canonical

variable {m k : Nat}

theorem word_lt (h : Canonical m k) (hk : k ≤ lastExponent) :
    k * exponentBit + m < infinityWord := by
  have hm := h.lt
  simp only [exponentBit, infinityWord, lastExponent] at *
  omega

theorem le_lastExponent (h : Canonical m k) (hw : k * exponentBit + m < infinityWord) :
    k ≤ lastExponent := by
  have hfull := h.full
  simp only [exponentBit, infinityWord, lastExponent] at *
  omega

/-- The grains of a word are read off its form. -/
theorem wordMagnitude_eq (h : Canonical m k) :
    wordMagnitude (k * exponentBit + m) = m <<< k := by
  rcases Nat.lt_or_ge m exponentBit with hlow | hhigh
  · obtain rfl : k = 0 := h.full.resolve_right (Nat.not_le_of_lt hlow)
    rw [Nat.zero_mul, Nat.zero_add, wordMagnitude, Nat.div_eq_of_lt hlow, if_pos rfl,
      Nat.mod_eq_of_lt hlow, Nat.shiftLeft_zero]
  · -- the leading bit of `m` has been added to the exponent
    have hword : k * exponentBit + m = (m - exponentBit) + (k + 1) * exponentBit := by
      rw [Nat.succ_mul]
      omega
    have hrest : m - exponentBit < exponentBit := by
      have := h.lt
      omega
    have hbit : 0 < exponentBit := by decide
    rw [hword, wordMagnitude, Nat.add_mul_div_right _ _ hbit, Nat.div_eq_of_lt hrest,
      Nat.add_mul_mod_self_right, Nat.mod_eq_of_lt hrest, Nat.zero_add,
      if_neg (Nat.succ_ne_zero k), Nat.add_sub_cancel, Nat.add_sub_cancel' hhigh]

end Canonical

@[simp] theorem wordMagnitude_zero : wordMagnitude 0 = 0 := by
  decide

/-- **Words are ordered as the numbers of grains that they stand for.** -/
theorem wordMagnitude_strictMono : StrictMono wordMagnitude := by
  intro v w hvw
  obtain ⟨m', k', hw, rfl⟩ := exists_canonical (Nat.ne_zero_of_lt hvw)
  rw [hw.wordMagnitude_eq]
  rcases eq_or_ne v 0 with rfl | hv
  · rw [Nat.shiftLeft_eq]
    exact Nat.mul_pos hw.pos (Nat.two_pow_pos k')
  · obtain ⟨m, k, hform, rfl⟩ := exists_canonical hv
    rw [hform.wordMagnitude_eq, Nat.shiftLeft_eq, Nat.shiftLeft_eq]
    rcases Nat.lt_trichotomy k k' with hlt | rfl | hgt
    · -- a step of the exponent counts for more than all bits
      have hfull : exponentBit ≤ m' := hw.full.resolve_left (Nat.ne_zero_of_lt hlt)
      calc m * 2 ^ k < 2 * exponentBit * 2 ^ k :=
            Nat.mul_lt_mul_of_pos_right hform.lt (Nat.two_pow_pos k)
        _ = exponentBit * 2 ^ (k + 1) := by
            rw [Nat.pow_succ, Nat.mul_comm 2, Nat.mul_assoc, Nat.mul_comm 2]
        _ ≤ m' * 2 ^ k' := Nat.mul_le_mul hfull (Nat.pow_le_pow_right (by decide) hlt)
    · exact Nat.mul_lt_mul_of_pos_right (Nat.lt_of_add_lt_add_left hvw) (Nat.two_pow_pos k)
    · have hfull : exponentBit ≤ m := hform.full.resolve_left (Nat.ne_zero_of_lt hgt)
      have hlt := hw.lt
      simp only [exponentBit] at *
      omega

/-! ### Numbers that are not rounded -/

/-- Bits that fit are moved from the power until the form is canonical. -/
theorem canonical_shiftLeft {d k : Nat} (hd : 0 < d) (hlt : d < 2 * exponentBit) :
    Canonical (d <<< (k - (d.log2 + k - 52))) (d.log2 + k - 52) := by
  have hlog : d.log2 < 53 := (Nat.log2_lt hd.ne').mpr hlt
  have hlow := Nat.log2_self_le hd.ne'
  have hhigh := @Nat.lt_log2_self d
  rw [Nat.shiftLeft_eq]
  refine ⟨Nat.mul_pos hd (Nat.two_pow_pos _), ?_, ?_⟩
  · calc d * 2 ^ (k - (d.log2 + k - 52))
        < 2 ^ (d.log2 + 1) * 2 ^ (k - (d.log2 + k - 52)) :=
          Nat.mul_lt_mul_of_pos_right hhigh (Nat.two_pow_pos _)
      _ = 2 ^ (d.log2 + 1 + (k - (d.log2 + k - 52))) := (Nat.pow_add ..).symm
      _ ≤ 2 ^ 53 := Nat.pow_le_pow_right (by decide) (by omega)
  · rcases Nat.eq_zero_or_pos (d.log2 + k - 52) with hzero | hpos
    · exact .inl hzero
    · refine .inr ?_
      calc 2 ^ 52 = 2 ^ (d.log2 + (k - (d.log2 + k - 52))) := by congr 1; omega
        _ = 2 ^ d.log2 * 2 ^ (k - (d.log2 + k - 52)) := Nat.pow_add ..
        _ ≤ d * 2 ^ (k - (d.log2 + k - 52)) := Nat.mul_le_mul_right _ hlow

/-- The word nearest to a number with 53 significant bits. -/
theorem nearestWord_eq {d k : Nat} (hd : 0 < d) (hlt : d < 2 * exponentBit)
    (hk : k ≤ lastExponent) : nearestWord (d <<< k) 1 =
      (d.log2 + k - 52) * exponentBit + d <<< (k - (d.log2 + k - 52)) := by
  have hlog : d.log2 < 53 := (Nat.log2_lt hd.ne').mpr hlt
  have hform := canonical_shiftLeft (k := k) hd hlt
  have hmagnitude := hform.wordMagnitude_eq
  rw [← Nat.shiftLeft_add, Nat.sub_add_cancel (by omega)] at hmagnitude
  rw [← hmagnitude, nearestWord_wordMagnitude (hform.word_lt (by omega))]

/-- **A number of grains with 53 significant bits is not rounded.** -/
theorem wordMagnitude_nearestWord {d k : Nat} (hd : d < 2 * exponentBit) (hk : k ≤ lastExponent) :
    nearestWord (d <<< k) 1 < infinityWord ∧ wordMagnitude (nearestWord (d <<< k) 1) = d <<< k := by
  rcases Nat.eq_zero_or_pos d with rfl | hpos
  · rw [Nat.zero_shiftLeft, nearestWord_of_lt (by decide)]
    decide
  · have hlog : d.log2 < 53 := (Nat.log2_lt hpos.ne').mpr hd
    have hform := canonical_shiftLeft (k := k) hpos hd
    rw [nearestWord_eq hpos hd hk]
    refine ⟨hform.word_lt (by omega), ?_⟩
    rw [hform.wordMagnitude_eq, ← Nat.shiftLeft_add, Nat.sub_add_cancel (by omega)]

end Reckoner.Binary64
