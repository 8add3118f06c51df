import Reckoner.Binary64.Basic

/-!
# Numbers — rounding to a double

`nearestWord a d` depends on the quotient of `a` and `d` alone (`nearestWord_scale`), and **a
double is its own nearest** (`nearestWord_wordMagnitude`): the word that a number of grains came
from is the word of the double nearest to it.
-/

namespace Reckoner.Binary64

/-! ### Quotients -/

/-- Rounding a quotient sees the quotient alone. -/
theorem roundHalfEven_scale {k : Nat} (hk : 0 < k) (a d : Nat) :
    roundHalfEven (a * k) (d * k) = roundHalfEven a d := by
  have hless : 2 * (a % d * k) < d * k ↔ 2 * (a % d) < d := by
    rw [← Nat.mul_assoc, Nat.mul_lt_mul_right hk]
  have hmore : d * k < 2 * (a % d * k) ↔ d < 2 * (a % d) := by
    rw [← Nat.mul_assoc, Nat.mul_lt_mul_right hk]
  simp only [roundHalfEven, Nat.mul_div_mul_right _ _ hk, Nat.mul_mod_mul_right, hless, hmore]

/-- A whole quotient is not rounded. -/
theorem roundHalfEven_mul (q : Nat) {d : Nat} (hd : 0 < d) : roundHalfEven (q * d) d = q := by
  simp [roundHalfEven, Nat.mul_div_cancel _ hd, hd]

/-- The nearest double depends on the quotient alone. -/
theorem nearestWord_scale {k : Nat} (hk : 0 < k) (a d : Nat) :
    nearestWord (a * k) (d * k) = nearestWord a d := by
  have hshift : ∀ p, (d * k) <<< p = (d <<< p) * k := by
    intro p
    rw [Nat.shiftLeft_eq, Nat.shiftLeft_eq, Nat.mul_right_comm]
  simp only [nearestWord, Nat.mul_div_mul_right _ _ hk, hshift, roundHalfEven_scale hk]

/-! ### Doubles -/

theorem log2_shiftLeft {m : Nat} (hm : m ≠ 0) (p : Nat) : (m <<< p).log2 = m.log2 + p := by
  have hpos : 0 < 2 ^ p := Nat.two_pow_pos p
  rw [Nat.shiftLeft_eq, Nat.log2_eq_iff (Nat.mul_ne_zero hm (Nat.ne_of_gt hpos)),
    Nat.add_right_comm, Nat.pow_add, Nat.pow_add]
  exact ⟨Nat.mul_le_mul_right _ (Nat.log2_self_le hm),
    Nat.mul_lt_mul_of_pos_right Nat.lt_log2_self hpos⟩

/-- The double nearest to a number of 53 significant bits with zeros behind them. -/
theorem nearestWord_shiftLeft {m : Nat} (hlog : m.log2 = 52) (p : Nat) :
    nearestWord (m <<< p) 1 = min infinityWord (p * exponentBit + m) := by
  have hm : m ≠ 0 := by
    rintro rfl
    cases hlog
  have hp : (m <<< p / 1).log2 - 52 = p := by
    rw [Nat.div_one, log2_shiftLeft hm, hlog, Nat.add_sub_cancel_left]
  rw [nearestWord, hp, Nat.shiftLeft_eq, Nat.shiftLeft_eq, Nat.one_mul,
    roundHalfEven_mul _ (Nat.two_pow_pos p)]

/-- A number of grains with fewer bits is its own word. -/
theorem nearestWord_of_lt {m : Nat} (hm : m < exponentBit) : nearestWord m 1 = m := by
  have hlog : m.log2 - 52 = 0 := by
    rcases Nat.eq_zero_or_pos m with rfl | hpos
    · rfl
    · exact Nat.sub_eq_zero_of_le (Nat.le_of_lt ((Nat.log2_lt (Nat.ne_of_gt hpos)).mpr hm))
  have hround : roundHalfEven m 1 = m := by
    have h := roundHalfEven_mul m Nat.one_pos
    rwa [Nat.mul_one] at h
  rw [nearestWord, Nat.div_one, hlog, Nat.shiftLeft_zero, hround, Nat.zero_mul, Nat.zero_add]
  exact Nat.min_eq_right (Nat.le_of_lt (Nat.lt_trans hm (by decide)))

/-- **A double is its own nearest.** -/
theorem nearestWord_wordMagnitude {w : Nat} (hw : w < infinityWord) :
    nearestWord (wordMagnitude w) 1 = w := by
  have hfraction : w % exponentBit < exponentBit := Nat.mod_lt _ (by decide)
  have hsplit := Nat.div_add_mod w exponentBit
  unfold wordMagnitude
  dsimp only
  split
  · rename_i hzero
    -- below the normal doubles a word is its number of grains
    rw [nearestWord_of_lt hfraction]
    rwa [hzero, Nat.mul_zero, Nat.zero_add] at hsplit
  · rename_i hpos
    -- the leading one in front of the fraction adds one to the exponent
    have hlog : (exponentBit + w % exponentBit).log2 = 52 := by
      rw [Nat.log2_eq_iff (by omega)]
      exact ⟨Nat.le_add_right _ _, Nat.add_lt_add_left hfraction exponentBit⟩
    have hword : (w / exponentBit - 1) * exponentBit + (exponentBit + w % exponentBit) = w := by
      rw [← Nat.add_assoc, ← Nat.succ_mul, Nat.succ_eq_add_one,
        Nat.sub_add_cancel (Nat.pos_of_ne_zero hpos), Nat.mul_comm, hsplit]
    rw [nearestWord_shiftLeft hlog, hword]
    exact Nat.min_eq_right (Nat.le_of_lt hw)

end Reckoner.Binary64
