/-!
# Binary64 — doubles as whole numbers

A finite double is a sign and a whole number of *grains*, a grain being `2⁻¹⁰⁷⁴`, the least
positive double.  `magnitude` is that number and `word` the low 63 bits that carry it;
`nearestWord` goes back, from any quotient of natural numbers to the word of the double nearest to
it, a tie going to the even word.  Everything here is arithmetic on `Nat`, so that rounding,
remainders and decimal text can be reasoned about without the machine's operations.
-/

namespace Reckoner.Binary64

/-- Grains in the number one. -/
def grainsPerOne : Nat := 1 <<< 1074

/-- The bit of the sign, above every word. -/
def signBit : Nat := 0x8000000000000000

/-- The least bit of the exponent, above every fraction. -/
def exponentBit : Nat := 0x0010000000000000

/-- The word of infinity: the first that is no finite double. -/
def infinityWord : Nat := 0x7FF0000000000000

/-- The word of the double that is not a number. -/
def nanWord : Nat := 0x7FF8000000000000

/-- The sign: set for negative numbers and for `-0`. -/
def isNegative (x : Float) : Bool :=
  signBit ≤ x.toBits.toNat

/-- The bits of a double below its sign. -/
def word (x : Float) : Nat :=
  x.toBits.toNat % signBit

/-- Neither infinite nor no number at all. -/
def isFinite (x : Float) : Bool :=
  word x < infinityWord

/-- Not a number: every word past infinity's. -/
def isNaN (x : Float) : Bool :=
  infinityWord < word x

/-- The grains that a word below `infinityWord` stands for. -/
def wordMagnitude (w : Nat) : Nat :=
  let exponent := w / exponentBit
  let fraction := w % exponentBit
  if exponent = 0 then fraction else (exponentBit + fraction) <<< (exponent - 1)

/-- How many grains make up a finite double, its sign aside. -/
def magnitude (x : Float) : Nat :=
  wordMagnitude (word x)

/-- The quotient `a / d` rounded to a whole number, a half going to the even neighbour. -/
def roundHalfEven (a d : Nat) : Nat :=
  let q := a / d
  let r := a % d
  if 2 * r < d then q
  else if d < 2 * r then q + 1
  else q + q % 2

/-- The word of the double nearest to `a / d` grains, a tie going to the even word and what is too
large to infinity.  Doubles are whole multiples of `2 ^ p` grains with at most 53 significant bits,
and their words count those multiples, so that rounding up into the next power of two carries into
the exponent by itself. -/
def nearestWord (a d : Nat) : Nat :=
  let p := (a / d).log2 - 52
  min infinityWord (p * exponentBit + roundHalfEven a (d <<< p))

/-- The double with this sign and word. -/
def ofWord (negative : Bool) (w : Nat) : Float :=
  Float.ofBits (UInt64.ofNat (if negative then signBit + w else w))

/-- The double nearest to `a / d`, with the given sign. -/
def ofRatio (negative : Bool) (a d : Nat) : Float :=
  ofWord negative (nearestWord (a * grainsPerOne) d)

/-- The double nearest to a whole number of grains, with the given sign. -/
def ofMagnitude (negative : Bool) (grains : Nat) : Float :=
  ofWord negative (nearestWord grains 1)

/-- The double nearest to a natural number. -/
def ofNat (n : Nat) : Float :=
  ofRatio false n 1

/-- The double nearest to an integer. -/
def ofInt (n : Int) : Float :=
  ofRatio (n < 0) n.natAbs 1

/-- Positive infinity. -/
def infinity : Float :=
  ofWord false infinityWord

/-- The double that is not a number. -/
def nan : Float :=
  ofWord false nanWord

end Reckoner.Binary64
