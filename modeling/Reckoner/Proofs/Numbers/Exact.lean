import Mathlib.Algebra.Order.Round
import Mathlib.Data.Rat.Floor
import Mathlib.Tactic.Linarith
import Mathlib.Tactic.Ring
import Reckoner.Arithmetic

/-!
# Numbers — reckoning without rounding

The rational numbers as numbers that operators and conversions can be read over: every operation is
exact, and every number is finite.  Only a power may have no rational value, so that any function
at all may stand in for it (`ExactPower`), and nothing that is proved here depends on which.

Rounding to a whole number is characterised by what it is for (`Exact.NearestAway`): the whole
number is **nearest, and of two that are equally near the one further from zero**
(`Exact.nearestAway_roundAway`).  Therefore it is no further than a half away, and a larger number
is not rounded to a smaller one.
-/

namespace Reckoner

namespace Exact

/-- A number without its places behind the point. -/
def truncate (x : ℚ) : ℤ :=
  if x < 0 then ⌈x⌉ else ⌊x⌋

/-- A number rounded to a whole one, halves going away from zero. -/
def roundAway (x : ℚ) : ℤ :=
  if x < 0 then -⌊-x + 1 / 2⌋ else ⌊x + 1 / 2⌋

/-! ### Rounding -/

/-- `n` is a whole number nearest to `x`, and none that is equally near is further from zero. -/
structure NearestAway (x : ℚ) (n : ℤ) : Prop where
  nearest : ∀ k : ℤ, |(n : ℚ) - x| ≤ |(k : ℚ) - x|
  away : ∀ k : ℤ, |(k : ℚ) - x| = |(n : ℚ) - x| → |k| ≤ |n|

namespace NearestAway

variable {x y : ℚ} {m n : ℤ}

/-- Below zero, rounding is as above. -/
theorem neg (h : NearestAway x n) : NearestAway (-x) (-n) := by
  have hflip : ∀ k : ℤ, |(k : ℚ) - -x| = |((-k : ℤ) : ℚ) - x| := fun k => by
    rw [← abs_neg]
    push_cast
    ring_nf
  refine ⟨fun k => ?_, fun k hk => ?_⟩
  · rw [hflip, hflip, neg_neg]
    exact h.nearest (-k)
  · rw [hflip, hflip, neg_neg] at hk
    simpa using h.away (-k) hk

/-- The nearest whole number is no further than a half away. -/
theorem abs_sub_le (h : NearestAway x n) : |(n : ℚ) - x| ≤ 1 / 2 :=
  calc |(n : ℚ) - x| ≤ |(round x : ℚ) - x| := h.nearest (round x)
    _ = |x - round x| := abs_sub_comm _ _
    _ ≤ 1 / 2 := abs_sub_round x

/-- **A larger number is not rounded to a smaller one.** -/
theorem mono (hm : NearestAway x m) (hn : NearestAway y n) (hxy : x ≤ y) : m ≤ n := by
  by_contra! hlt
  have hstep : (n : ℚ) + 1 ≤ m := by exact_mod_cast hlt
  have hxm := abs_le.mp hm.abs_sub_le
  have hyn := abs_le.mp hn.abs_sub_le
  -- only where both numbers are halfway between `n` and `m`, and then both go the same way
  have hmx : (m : ℚ) - x = 1 / 2 := by linarith
  have hnx : (n : ℚ) - x = -(1 / 2) := by linarith
  obtain rfl : x = y := by linarith
  have heq : |(m : ℚ) - x| = |(n : ℚ) - x| := by rw [hmx, hnx, abs_neg]
  have habs : |m| = |n| := le_antisymm (hn.away m heq) (hm.away n heq.symm)
  have hcast : (m : ℚ) = n + 1 := by linarith
  have hnext : m = n + 1 := by exact_mod_cast hcast
  rcases abs_eq_abs.mp habs with h | h <;> omega

end NearestAway

/-- No whole number is nearer than one that is a half away at most. -/
theorem nearest_of_abs_sub_le {x : ℚ} {n : ℤ} (h : |(n : ℚ) - x| ≤ 1 / 2) (k : ℤ) :
    |(n : ℚ) - x| ≤ |(k : ℚ) - x| := by
  rcases eq_or_ne k n with rfl | hne
  · exact le_rfl
  · have hstep : (1 : ℚ) ≤ |(k : ℚ) - n| := by exact_mod_cast Int.one_le_abs (sub_ne_zero.mpr hne)
    have htriangle := abs_sub_le (k : ℚ) x n
    rw [abs_sub_comm x] at htriangle
    linarith

/-- From zero on, rounding is adding a half and leaving out the places. -/
theorem nearestAway_floor {x : ℚ} (hx : 0 ≤ x) : NearestAway x ⌊x + 1 / 2⌋ := by
  have hlow := Int.floor_le (x + 1 / 2)
  have hhigh := Int.lt_floor_add_one (x + 1 / 2)
  generalize ⌊x + 1 / 2⌋ = n at hlow hhigh
  refine ⟨nearest_of_abs_sub_le (abs_le.mpr ⟨by linarith, by linarith⟩), fun k hk => ?_⟩
  rcases abs_eq_abs.mp hk with heq | hmirror
  · have hkn : k = n := by exact_mod_cast sub_left_injective heq
    rw [hkn]
  · -- `k` is on the other side of `x`, as far as `n`, which is not a half below
    have hle : (k : ℚ) < n + 1 := by linarith
    have hle : k < n + 1 := by exact_mod_cast hle
    have hsum : (0 : ℚ) ≤ k + n := by linarith
    have hsum : 0 ≤ k + n := by exact_mod_cast hsum
    exact le_trans (abs_le.mpr ⟨by omega, by omega⟩) (le_abs_self n)

/-- **Rounding takes the nearest whole number, and of two the one further from zero.** -/
theorem nearestAway_roundAway (x : ℚ) : NearestAway x (roundAway x) := by
  unfold roundAway
  split
  · rename_i h
    simpa using (nearestAway_floor (neg_nonneg.mpr h.le)).neg
  · rename_i h
    exact nearestAway_floor (not_lt.mp h)

end Exact

/-! ### Operations -/

/-- The number that a decimal is. -/
def Decimal.toRat (d : Decimal) : ℚ :=
  d.digits * 10 ^ d.exponent

/-- Whatever is taken for the power of two rational numbers. -/
class ExactPower where
  power : ℚ → ℚ → ℚ

/-- Rational numbers.  Nothing is rounded but what is to be a whole number. -/
instance [ExactPower] : Arithmetic ℚ where
  ofDecimal := Decimal.toRat
  add x y := x + y
  sub x y := x - y
  mul x y := x * y
  div x y := x / y
  pow := ExactPower.power
  remainder x y := x - y * Exact.truncate (x / y)
  floor x := ⌊x⌋
  round x := Exact.roundAway x
  isZero x := x = 0
  isBelowZero x := x < 0
  isFinite _ := true

end Reckoner
