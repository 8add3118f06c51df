import Reckoner.Decimal.Basic
import Reckoner.Json.Basic

/-!
# Json — numbers as they are read

A number is read into a significand of at most 64 bits and a power of ten.  Digits for which the
significand has no room count by their place only.  A number with a point, with an exponent or with
more digits than fit becomes a double: the significand is converted first and then scaled by powers
of ten, each time rounding to the nearest double.
-/

namespace Reckoner.Json

/-- The number `significand · 10 ^ exponent`, as far as it has been read. -/
structure Scaled where
  significand : Nat
  exponent    : Int

namespace Scaled

/-- The significand with one more digit, if there is room for it. -/
def push? (n : Scaled) (digit : Char) : Option Nat :=
  let significand := n.significand * 10 + (digit.toNat - '0'.toNat)
  if significand < UInt64.size then some significand else none

/-- Takes digits in front of the point: those without room are zeros. -/
def pushWhole (n : Scaled) : List Char → Scaled
  | [] => n
  | digit :: digits =>
    match n.push? digit with
    | some significand => pushWhole ⟨significand, n.exponent⟩ digits
    | none => ⟨n.significand, n.exponent + digits.length + 1⟩

/-- Takes digits behind the point: those without room are left out. -/
def pushPlaces (n : Scaled) : List Char → Scaled
  | [] => n
  | digit :: digits =>
    match n.push? digit with
    | some significand => pushPlaces ⟨significand, n.exponent - 1⟩ digits
    | none => n

/-- The largest power of ten that is a double. -/
def largestPower : Nat := 308

/-- A power of ten as a double. -/
def power (n : Nat) : Float :=
  Decimal.toFloat ⟨1, n⟩

/-- The product `x · 10 ^ exponent`, if that is finite.  Powers out of range are taken in several
steps. -/
def scale? (x : Float) (exponent : Int) : Option Float :=
  if _h : exponent < -(largestPower : Int) then
    if x == 0 then some x else scale? (x / power largestPower) (exponent + largestPower)
  else if exponent < 0 then some (x / power exponent.natAbs)
  else if exponent ≤ largestPower then
    let y := x * power exponent.toNat
    if Binary64.isFinite y then some y else none
  else if x == 0 then some x
  else none
termination_by (-exponent).toNat
decreasing_by simp only [largestPower] at *; omega

/-- The double for a number, if that is finite. -/
def toFloat? (negative : Bool) (n : Scaled) : Option Float :=
  (scale? (Binary64.ofNat n.significand) n.exponent).map fun x => if negative then -x else x

/-- An integer that fits in 64 bits, in its kind; minus zero and what is below the least integer
are doubles. -/
def integer (negative : Bool) (significand : Nat) : JsonNumber :=
  if !negative then .natural significand
  else if significand = 0 ∨ UInt64.size / 2 < significand then .real (-(Binary64.ofNat significand))
  else .negative (-significand)

end Scaled

end Reckoner.Json
