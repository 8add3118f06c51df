import Reckoner.Binary64.Basic

/-!
# Binary64 — whole numbers and remainders

Rounding a double to a whole number, in the four ways the function table needs, and the exact
remainder of a division truncated toward zero.  Both are computed on grains: the result is always
a double, so nothing is rounded twice.
-/

namespace Reckoner.Binary64

/-- A way to choose between the two whole numbers around a magnitude. -/
inductive Rounding where
  | down
  | up
  | halfAway
  | halfEven
  deriving DecidableEq, Repr

/-- Whether a magnitude of `whole` ones and `rest` grains goes to the larger neighbour. -/
def Rounding.raises (mode : Rounding) (negative : Bool) (whole rest : Nat) : Bool :=
  match mode with
  | .down     => negative && rest != 0
  | .up       => !negative && rest != 0
  | .halfAway => grainsPerOne ≤ 2 * rest
  | .halfEven => grainsPerOne < 2 * rest || (2 * rest == grainsPerOne && whole % 2 == 1)

/-- The magnitude of `x` rounded to a whole number of ones. -/
def wholeMagnitude (mode : Rounding) (x : Float) : Nat :=
  let whole := magnitude x / grainsPerOne
  let rest := magnitude x % grainsPerOne
  if mode.raises (isNegative x) whole rest then whole + 1 else whole

/-- The double `x` rounded to a whole number; the sign stays, also on zero, and so does what is not
finite. -/
def toWhole (mode : Rounding) (x : Float) : Float :=
  if isFinite x then ofRatio (isNegative x) (wholeMagnitude mode x) 1 else x

/-- What is left of `x` after taking away the whole multiples of `y` toward zero, exactly.  It has
the sign of `x`. -/
def remainder (x y : Float) : Float :=
  if isNaN x || isNaN y || !isFinite x || word y == 0 then nan
  else if !isFinite y then x
  else ofMagnitude (isNegative x) (magnitude x % magnitude y)

end Reckoner.Binary64
