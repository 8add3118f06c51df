import Reckoner.Binary64.Basic

/-!
# Decimal — numbers in base ten

A decimal is `digits · 10 ^ exponent`.  `Decimal.toFloat` is the double nearest to it, whatever the
number of digits.
-/

namespace Reckoner

/-- The number `digits · 10 ^ exponent`. -/
structure Decimal where
  digits   : Nat
  exponent : Int
  deriving DecidableEq, Repr

namespace Decimal

/-- The decimal spelled by the digits in front of the point and those behind it. -/
def ofDigits (whole places : List Char) : Decimal :=
  ⟨Nat.ofDigitChars 10 places (Nat.ofDigitChars 10 whole 0), -places.length⟩

/-- A decimal as a quotient of natural numbers. -/
def ratio (d : Decimal) : Nat × Nat :=
  (d.digits * Nat.pow 10 d.exponent.toNat, Nat.pow 10 (-d.exponent).toNat)

/-- The word of the double nearest to a decimal. -/
def toWord (d : Decimal) : Nat :=
  Binary64.nearestWord (d.ratio.1 * Binary64.grainsPerOne) d.ratio.2

/-- The double nearest to a decimal. -/
def toFloat (d : Decimal) : Float :=
  Binary64.ofWord false d.toWord

/-- The same number without trailing zeros among its digits. -/
def trim (d : Decimal) : Decimal :=
  if d.digits ≠ 0 ∧ d.digits % 10 = 0 then trim ⟨d.digits / 10, d.exponent + 1⟩ else d
termination_by d.digits
decreasing_by omega

end Decimal

end Reckoner
