import Reckoner.Failure
import Reckoner.Binary64.Whole
import Reckoner.Decimal.Basic

/-!
# Function — the scientific functions

A table of functions of one number.  Some have a guard, a condition on the argument that is
checked before anything is computed.  A name finds its function only when it is spelled exactly.
-/

namespace Reckoner

/-- A condition on an argument, and what to say when it fails. -/
structure Guard where
  accepts : Float → Bool
  message : String

/-- A named function of one number. -/
structure ScientificFunction where
  name  : String
  run   : Float → Float
  guard : Option Guard := none

namespace ScientificFunction

/-- How far from a whole number an argument of the factorial may be. -/
def integralTolerance : Float :=
  Decimal.toFloat ⟨1, -9⟩

/-- Not below zero; what is not a number is let through. -/
def isNonNegative (x : Float) : Bool :=
  Binary64.isNaN x || 0 ≤ x

/-- Above zero; what is not a number is let through. -/
def isPositive (x : Float) : Bool :=
  Binary64.isNaN x || 0 < x

/-- Not below zero, and a whole number within the tolerance. -/
def isNonNegativeInteger (x : Float) : Bool :=
  0 ≤ x && (x - Binary64.toWhole .halfAway x).abs < integralTolerance

/-- The largest argument whose factorial is a double. -/
def largestFactorial : Nat := 170

/-- The product `2 · 3 · … · n` of doubles, from the left. -/
def product (n : Nat) : Float :=
  (List.range' 2 (n - 1)).foldl (fun p k => p * Binary64.ofNat k) 1

/-- The factorial of the nearest whole number, which is counted up to in 32 bits. -/
def factorial (x : Float) : Float :=
  let n := Binary64.toWhole .halfAway x
  if Binary64.ofNat largestFactorial < n then Binary64.infinity else product n.toUInt32.toNat

/-- Every function, in the order in which they are listed to users. -/
def all : List ScientificFunction :=
  [⟨"sin", Float.sin, none⟩,
   ⟨"cos", Float.cos, none⟩,
   ⟨"tan", Float.tan, none⟩,
   ⟨"asin", Float.asin, none⟩,
   ⟨"acos", Float.acos, none⟩,
   ⟨"atan", Float.atan, none⟩,
   ⟨"sqrt", Float.sqrt,
    some ⟨isNonNegative, "Cannot calculate square root of negative number"⟩⟩,
   ⟨"log", Float.log,
    some ⟨isPositive, "Cannot calculate logarithm of non-positive number"⟩⟩,
   ⟨"log10", Float.log10, none⟩,
   ⟨"exp", Float.exp, none⟩,
   ⟨"abs", Float.abs, none⟩,
   ⟨"floor", Binary64.toWhole .down, none⟩,
   ⟨"ceil", Binary64.toWhole .up, none⟩,
   ⟨"round", Binary64.toWhole .halfEven, none⟩,
   ⟨"factorial", factorial,
    some ⟨isNonNegativeInteger, "Factorial is only defined for non-negative integers"⟩⟩]

/-- The function with this name. -/
def find? (name : String) : Option ScientificFunction :=
  all.find? (·.name == name)

/-- The value of a function, unless its guard refuses the argument. -/
def call (f : ScientificFunction) (x : Float) : Except Failure Float :=
  match f.guard with
  | none => .ok (f.run x)
  | some guard =>
    if guard.accepts x then .ok (f.run x) else .error (.outsideDomain f.name guard.message)

/-- The value of the function with this name. -/
def apply (name : String) (x : Float) : Except Failure Float :=
  match find? name with
  | none => .error (.unknownFunction name)
  | some f => f.call x

end ScientificFunction

end Reckoner
