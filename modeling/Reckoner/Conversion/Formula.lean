import Reckoner.Arithmetic

/-!
# Conversion — formulas

A formula is a list of steps, each one operation with a decimal constant, done one after another.
A converted value is rounded to six decimal places.
-/

namespace Reckoner

/-- One operation on the value so far. -/
inductive FormulaStep where
  | times (d : Decimal)
  | over (d : Decimal)
  | plus (d : Decimal)
  | minus (d : Decimal)
  deriving DecidableEq, Repr

open Arithmetic in
/-- The value after a step. -/
def FormulaStep.run {α : Type} [Arithmetic α] (x : α) : FormulaStep → α
  | .times d => mul x (ofDecimal d)
  | .over d  => div x (ofDecimal d)
  | .plus d  => add x (ofDecimal d)
  | .minus d => sub x (ofDecimal d)

/-- Steps to be done in order. -/
abbrev Formula : Type := List FormulaStep

/-- The value after every step. -/
def Formula.run {α : Type} [Arithmetic α] (formula : Formula) (x : α) : α :=
  formula.foldl FormulaStep.run x

open Arithmetic in
/-- The multiple of `10 ^ (-places)` nearest to a number, halves going away from zero.  A number
too large to be scaled stays as it is. -/
def roundTo {α : Type} [Arithmetic α] (places : Nat) (x : α) : α :=
  let factor := ofDecimal ⟨1, places⟩
  let scaled := mul x factor
  if isFinite scaled then div (round scaled) factor else x

end Reckoner
