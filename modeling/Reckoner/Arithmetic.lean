import Reckoner.Binary64.Whole
import Reckoner.Decimal.Basic
import Reckoner.Failure

/-!
# Arithmetic — what operators do to numbers

The operators and the conversion formulas are written against a class of number operations, so
that each of them has one definition, which runs on doubles and can be read over any other
numbers.
-/

namespace Reckoner

/-- The operations on numbers that operators and conversions are made of. -/
class Arithmetic (α : Type) where
  ofDecimal : Decimal → α
  add : α → α → α
  sub : α → α → α
  mul : α → α → α
  div : α → α → α
  pow : α → α → α
  /-- what a division truncated toward zero leaves -/
  remainder : α → α → α
  /-- the largest whole number not above -/
  floor : α → α
  /-- the nearest whole number, halves going away from zero -/
  round : α → α
  isZero : α → Bool
  isBelowZero : α → Bool
  isFinite : α → Bool

/-- Doubles.  The four basic operations and the power are the machine's own; what must be exact is
computed on grains. -/
instance : Arithmetic Float where
  ofDecimal d := d.toFloat
  add x y := x + y
  sub x y := x - y
  mul x y := x * y
  div x y := x / y
  pow x y := Float.pow x y
  remainder := Binary64.remainder
  floor := Binary64.toWhole .down
  round := Binary64.toWhole .halfAway
  isZero x := x == 0
  isBelowZero x := x < 0
  isFinite := Binary64.isFinite

/-- The remainder that carries the sign of the divisor. -/
def Arithmetic.flooredRemainder {α : Type} [Arithmetic α] (x y : α) : α :=
  let r := remainder x y
  if !isZero r && isBelowZero r != isBelowZero y then add r y else r

/-- The value of `x ∘ y`.  The three divisions have none where `y` is zero, of either sign. -/
def Operator.apply {α : Type} [Arithmetic α] (op : Operator) (x y : α) : Except Failure α :=
  match op with
  | .add      => .ok (Arithmetic.add x y)
  | .sub      => .ok (Arithmetic.sub x y)
  | .mul      => .ok (Arithmetic.mul x y)
  | .pow      => .ok (Arithmetic.pow x y)
  | .div      => divide (Arithmetic.div x y)
  | .mod      => divide (Arithmetic.flooredRemainder x y)
  | .floorDiv => divide (Arithmetic.floor (Arithmetic.div x y))
where
  /-- The outcome of a division with this quotient or remainder. -/
  divide (value : α) : Except Failure α :=
    if Arithmetic.isZero y then .error (.divisionByZero op.name) else .ok value

end Reckoner
