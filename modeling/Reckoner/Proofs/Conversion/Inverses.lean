import Mathlib.Tactic.NormNum
import Reckoner.Proofs.Conversion.Lookup
import Reckoner.Proofs.Numbers.Exact

/-!
# Conversion — there and back

Read over numbers that are not rounded, every step of a formula is a straight line, and the step
with the other operation and the same constant undoes it.  So a formula is a straight line, whose
slope is the product of the slopes of its steps (`Formula.run_sub_run`), and **the inverse steps in
the opposite order undo it** (`Formula.inverse_run`).  In the table, the formula of the rule back is
the inverse of the formula there, step by step.

A converted value is the nearest multiple of the sixth decimal place, so that it is half of such a
place off at most.  On the way back this error is stretched by the slope of the formula back, and
the second rounding adds half a place of its own: **there and back, a value comes within half of
one place and the slope** (`ConversionRule.convert_there_and_back`).
-/

namespace Reckoner

theorem Decimal.toRat_pos {d : Decimal} (h : d.digits ≠ 0) : 0 < d.toRat :=
  mul_pos (Nat.cast_pos.mpr (Nat.pos_of_ne_zero h)) (zpow_pos (by norm_num) _)

/-! ### Steps -/

namespace FormulaStep

/-- The step with the opposite operation. -/
def inverse : FormulaStep → FormulaStep
  | .times d => .over d
  | .over d  => .times d
  | .plus d  => .minus d
  | .minus d => .plus d

/-- Steps that can be undone: none multiplies or divides by zero. -/
def Regular : FormulaStep → Prop
  | .times d => d.digits ≠ 0
  | .over d  => d.digits ≠ 0
  | .plus _  => True
  | .minus _ => True

instance : DecidablePred Regular
  | .times d => inferInstanceAs (Decidable (d.digits ≠ 0))
  | .over d  => inferInstanceAs (Decidable (d.digits ≠ 0))
  | .plus _  => .isTrue trivial
  | .minus _ => .isTrue trivial

/-- By how much the value grows where the number before the step grows by one. -/
def slope : FormulaStep → ℚ
  | .times d => d.toRat
  | .over d  => d.toRat⁻¹
  | .plus _  => 1
  | .minus _ => 1

theorem slope_pos : ∀ {step : FormulaStep}, step.Regular → 0 < step.slope
  | .times d, h => d.toRat_pos h
  | .over d, h  => inv_pos.mpr (d.toRat_pos h)
  | .plus _, _  => one_pos
  | .minus _, _ => one_pos

variable [ExactPower]

/-- A step is a straight line. -/
theorem run_sub_run (x y : ℚ) :
    ∀ step : FormulaStep, run x step - run y step = step.slope * (x - y)
  | .times d => (by ring : x * d.toRat - y * d.toRat = d.toRat * (x - y))
  | .over d  => (by ring : x / d.toRat - y / d.toRat = d.toRat⁻¹ * (x - y))
  | .plus d  => (by ring : x + d.toRat - (y + d.toRat) = 1 * (x - y))
  | .minus d => (by ring : x - d.toRat - (y - d.toRat) = 1 * (x - y))

/-- The inverse step undoes a step. -/
theorem inverse_run (x : ℚ) :
    ∀ {step : FormulaStep}, step.Regular → run (run x step) step.inverse = x
  | .times d, h => mul_div_cancel_right₀ x (d.toRat_pos h).ne'
  | .over d, h  => div_mul_cancel₀ x (d.toRat_pos h).ne'
  | .plus d, _  => add_sub_cancel_right x d.toRat
  | .minus d, _ => sub_add_cancel x d.toRat

end FormulaStep

/-! ### Formulas -/

namespace Formula

/-- The inverse steps in the opposite order. -/
def inverse (formula : Formula) : Formula :=
  (formula.map FormulaStep.inverse).reverse

/-- The product of the slopes of the steps. -/
def slope : Formula → ℚ
  | []              => 1
  | step :: formula => step.slope * slope formula

theorem slope_pos {formula : Formula} (h : ∀ step ∈ formula, step.Regular) :
    0 < formula.slope := by
  induction formula with
  | nil => exact one_pos
  | cons step formula ih =>
      exact mul_pos (FormulaStep.slope_pos (h step (by simp))) (ih fun s hs => h s (by simp [hs]))

variable [ExactPower]

/-- **A formula is a straight line.** -/
theorem run_sub_run (formula : Formula) (x y : ℚ) :
    formula.run x - formula.run y = formula.slope * (x - y) := by
  induction formula generalizing x y with
  | nil => exact (one_mul (x - y)).symm
  | cons step formula ih =>
      calc run formula (step.run x) - run formula (step.run y)
          = slope formula * (step.run x - step.run y) := ih _ _
        _ = slope (step :: formula) * (x - y) := by
          rw [FormulaStep.run_sub_run, slope]
          ring

/-- **The inverse formula undoes a formula.** -/
theorem inverse_run {formula : Formula} (h : ∀ step ∈ formula, step.Regular) (x : ℚ) :
    formula.inverse.run (formula.run x) = x := by
  induction formula generalizing x with
  | nil => rfl
  | cons step formula ih =>
      have hcons : inverse (step :: formula) = inverse formula ++ [step.inverse] := by
        rw [inverse, List.map_cons, List.reverse_cons, inverse]
      have htail : run (inverse formula) (run formula (step.run x)) = step.run x :=
        ih (fun s hs => h s (by simp [hs])) (step.run x)
      calc run (inverse (step :: formula)) (run formula (step.run x))
          = step.inverse.run (run (inverse formula) (run formula (step.run x))) := by
            rw [hcons, run, List.foldl_append]
            rfl
        _ = x := by rw [htail, FormulaStep.inverse_run x (h step (by simp))]

end Formula

/-! ### The formulas of the table -/

namespace ConversionRule

/-- The formulas of the table can be undone. -/
theorem regular_formula {rule : ConversionRule} (h : rule ∈ all) :
    ∀ step ∈ rule.formula, step.Regular := by
  have hentries : ∀ r ∈ all, ∀ step ∈ r.formula, step.Regular := by decide
  exact hentries rule h

/-- **The formula of the rule back is the inverse formula.** -/
theorem Reverses.formula_eq {back rule : ConversionRule} (hback : back ∈ all) (h : rule ∈ all)
    (hreverses : back.Reverses rule) : back.formula = rule.formula.inverse := by
  have hentries : ∀ s ∈ all, ∀ r ∈ all, s.source = r.target → s.target = r.source →
      s.formula = r.formula.inverse := by
    decide
  exact hentries back hback rule h hreverses.source_eq hreverses.target_eq

/-- The formula from Fahrenheit to Celsius is no steeper than one to one. -/
theorem abs_slope_le_one {rule : ConversionRule} (h : rule ∈ all)
    (hsource : rule.source = .fahrenheit) (htarget : rule.target = .celsius) :
    |rule.formula.slope| ≤ 1 := by
  have hentries : ∀ r ∈ all, r.source = .fahrenheit → r.target = .celsius →
      r.formula = [.minus ⟨32, 0⟩, .times ⟨5, 0⟩, .over ⟨9, 0⟩] := by
    decide
  rw [hentries rule h hsource htarget]
  norm_num [Formula.slope, FormulaStep.slope, Decimal.toRat, abs_div]

end ConversionRule

/-! ### Rounded values -/

section

variable [ExactPower]

/-- A rounded number is a multiple of the sixth decimal place, the nearest that there is. -/
theorem exists_nearest_roundTo (x : ℚ) :
    ∃ n : ℤ, roundTo conversionPlaces x = n / 10 ^ 6 ∧ Exact.NearestAway (x * 10 ^ 6) n := by
  have hfactor : Decimal.toRat ⟨1, conversionPlaces⟩ = 10 ^ 6 := by
    rw [Decimal.toRat, Nat.cast_one, one_mul]
    exact zpow_natCast 10 6
  have hround : roundTo conversionPlaces x =
      Exact.roundAway (x * Decimal.toRat ⟨1, conversionPlaces⟩) /
        Decimal.toRat ⟨1, conversionPlaces⟩ := by
    rw [roundTo]
    exact if_pos rfl
  rw [hround, hfactor]
  exact ⟨_, rfl, Exact.nearestAway_roundAway _⟩

namespace ConversionRule

/-- **A converted value is half of the sixth decimal place off at most.** -/
theorem abs_convert_sub_le (rule : ConversionRule) (x : ℚ) :
    |rule.convert x - rule.formula.run x| ≤ 5 / 10 ^ 7 := by
  obtain ⟨n, heq, hnearest⟩ := exists_nearest_roundTo (rule.formula.run x)
  have hscaled : rule.convert x - rule.formula.run x =
      (n - rule.formula.run x * 10 ^ 6) / 10 ^ 6 := by
    rw [convert, heq]
    ring
  calc |rule.convert x - rule.formula.run x|
      = |n - rule.formula.run x * 10 ^ 6| / 10 ^ 6 := by rw [hscaled, abs_div]; norm_num
    _ ≤ 1 / 2 / 10 ^ 6 := by gcongr; exact hnearest.abs_sub_le
    _ = 5 / 10 ^ 7 := by norm_num

/-- A larger number is not converted to a smaller one. -/
theorem convert_mono {rule : ConversionRule} (h : rule ∈ all) :
    Monotone (rule.convert : ℚ → ℚ) := by
  intro x y hxy
  obtain ⟨m, hm, hmx⟩ := exists_nearest_roundTo (rule.formula.run x)
  obtain ⟨n, hn, hny⟩ := exists_nearest_roundTo (rule.formula.run y)
  have hslope := Formula.slope_pos (regular_formula h)
  have hrun : rule.formula.run x ≤ rule.formula.run y := by
    rw [← sub_nonneg, rule.formula.run_sub_run]
    exact mul_nonneg hslope.le (sub_nonneg.mpr hxy)
  have hmn : m ≤ n := hmx.mono hny (by gcongr)
  rw [convert, convert, hm, hn]
  gcongr

/-- **There and back, a value comes within half of one place and the slope back.** -/
theorem abs_convert_convert_sub_le {back rule : ConversionRule} (hback : back ∈ all)
    (h : rule ∈ all) (hreverses : back.Reverses rule) (x : ℚ) :
    |back.convert (rule.convert x) - x| ≤ (1 + |back.formula.slope|) / 2 * (1 / 10 ^ 6) := by
  have hundo : back.formula.run (rule.formula.run x) = x := by
    rw [hreverses.formula_eq hback h]
    exact Formula.inverse_run (regular_formula h) x
  -- the first error, stretched by the way back
  have hfirst : |back.formula.run (rule.convert x) - x| ≤ |back.formula.slope| * (5 / 10 ^ 7) :=
    calc |back.formula.run (rule.convert x) - x|
        = |back.formula.run (rule.convert x) - back.formula.run (rule.formula.run x)| := by
          rw [hundo]
      _ = |back.formula.slope| * |rule.convert x - rule.formula.run x| := by
          rw [Formula.run_sub_run, abs_mul]
      _ ≤ |back.formula.slope| * (5 / 10 ^ 7) := by
          gcongr
          exact rule.abs_convert_sub_le x
  calc |back.convert (rule.convert x) - x|
      ≤ |back.convert (rule.convert x) - back.formula.run (rule.convert x)| +
        |back.formula.run (rule.convert x) - x| := abs_sub_le _ _ _
    _ ≤ 5 / 10 ^ 7 + |back.formula.slope| * (5 / 10 ^ 7) :=
        add_le_add (back.abs_convert_sub_le _) hfirst
    _ = (1 + |back.formula.slope|) / 2 * (1 / 10 ^ 6) := by ring

/-- **Converting there and back.**  Every rule of the table has one rule back, which is found
wherever the rule is, with the texts exchanged.  Over numbers that are not rounded but to the sixth
decimal place:

* a converted value is the multiple of this place that is nearest to the value of the formula,
  halves going away from zero, and is half of the place off at most;
* a larger number is not converted to a smaller one;
* the formula back is a straight line, and there and back a number comes within half of one place
  and its slope;
* from Celsius to Fahrenheit and back it comes within one place. -/
theorem convert_there_and_back (rule : ConversionRule) (h : rule ∈ all) :
    ∃ back ∈ all, back.Reverses rule ∧ (∀ other ∈ all, other.Reverses rule → other = back) ∧
      (∀ a b, rule.leads a b = true → find? a b = some rule ∧ find? b a = some back) ∧
      (∀ x : ℚ, ∃ n : ℤ, rule.convert x = n / 10 ^ 6 ∧
        Exact.NearestAway (rule.formula.run x * 10 ^ 6) n) ∧
      (∀ x : ℚ, |rule.convert x - rule.formula.run x| ≤ 5 / 10 ^ 7) ∧
      Monotone (rule.convert : ℚ → ℚ) ∧
      (∀ x y : ℚ, back.formula.run x - back.formula.run y = back.formula.slope * (x - y)) ∧
      (∀ x : ℚ, |back.convert (rule.convert x) - x| ≤
        (1 + |back.formula.slope|) / 2 * (1 / 10 ^ 6)) ∧
      (rule.source = .celsius → rule.target = .fahrenheit →
        ∀ x : ℚ, |back.convert (rule.convert x) - x| ≤ 1 / 10 ^ 6) := by
  obtain ⟨back, hback, hreverses, -⟩ := exists_reverses h
  refine ⟨back, hback, hreverses, fun other hother hother' => ?_, fun a b hleads => ?_,
    fun _ => exists_nearest_roundTo _, rule.abs_convert_sub_le, convert_mono h,
    back.formula.run_sub_run, abs_convert_convert_sub_le hback h hreverses,
    fun hcelsius hfahrenheit x => ?_⟩
  · exact eq_of_units hother hback (hother'.source_eq.trans hreverses.source_eq.symm)
      (hother'.target_eq.trans hreverses.target_eq.symm)
  · exact ⟨find?_eq_some_iff.mpr ⟨h, hleads⟩,
      find?_eq_some_iff.mpr ⟨hback, hreverses.leads_iff.mpr hleads⟩⟩
  · have hslope := abs_slope_le_one hback (hreverses.source_eq.trans hfahrenheit)
      (hreverses.target_eq.trans hcelsius)
    calc |back.convert (rule.convert x) - x|
        ≤ (1 + |back.formula.slope|) / 2 * (1 / 10 ^ 6) :=
          abs_convert_convert_sub_le hback h hreverses x
      _ ≤ (1 + 1) / 2 * (1 / 10 ^ 6) := by gcongr
      _ = 1 / 10 ^ 6 := by norm_num

end ConversionRule

end

/-- A third of a degree, to Fahrenheit and back. -/
theorem ConversionRule.convert_third_of_degree :
    letI : ExactPower := ⟨fun x y => x ^ y.num⟩
    ∃ rule ∈ all, ∃ back ∈ all, find? "C" "F" = some rule ∧ find? "F" "C" = some back ∧
      rule.source = .celsius ∧ rule.target = .fahrenheit ∧
      |back.convert (rule.convert (1 / 3 : ℚ)) - 1 / 3| ≤ 1 / 10 ^ 6 := by
  let _ : ExactPower := ⟨fun x y => x ^ y.num⟩
  obtain ⟨rule, h, hsource, htarget⟩ :
      ∃ rule ∈ all, rule.source = .celsius ∧ rule.target = .fahrenheit := by
    decide
  have hleads : rule.leads "C" "F" = true := by
    rw [leads_iff, hsource, htarget]
    decide
  obtain ⟨back, hback, -, -, hfinds, -, -, -, -, -, hdegree⟩ := convert_there_and_back rule h
  obtain ⟨hrule, hruleBack⟩ := hfinds _ _ hleads
  exact ⟨rule, h, back, hback, hrule, hruleBack, hsource, htarget, hdegree hsource htarget _⟩

end Reckoner
