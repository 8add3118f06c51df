import Reckoner.Decimal.Shortest

/-!
# Decimal — the text of a double

Two texts of a double are in use.  `Layout.plain` writes every number positionally, as in
expressions, labels and messages; `Layout.json` writes a number of a serialized result, always
with a point or an exponent.  Both write the shortest digits that read back.
-/

namespace Reckoner

/-- The choices by which one text of a number differs from another. -/
structure Layout where
  /-- how equally near digits are settled -/
  tie        : Tie
  /-- which decimal exponents of the first digit are written without an exponent -/
  positional : Int → Bool
  /-- what follows a whole number written without an exponent -/
  wholeMark  : List Char

namespace Layout

/-- Digits alone: never an exponent, and no point after a whole number. -/
def plain : Layout :=
  ⟨.up, fun _ => true, []⟩

/-- A point or an exponent in every number; no exponent from `10⁻⁵` up to below `10¹⁶`. -/
def json : Layout :=
  ⟨.even, fun k => -5 ≤ k && k ≤ 15, ['.', '0']⟩

/-- A run of digits with its point set by the exponent of the last digit. -/
def positionalText (wholeMark digits : List Char) (exponent : Int) : List Char :=
  if 0 ≤ exponent then digits ++ List.replicate exponent.toNat '0' ++ wholeMark
  else
    let places := (-exponent).toNat
    if places < digits.length then
      digits.take (digits.length - places) ++ '.' :: digits.drop (digits.length - places)
    else '0' :: '.' :: List.replicate (places - digits.length) '0' ++ digits

/-- A run of digits with a point after the first and the power of ten of that first one. -/
def scientificText (digits : List Char) (leading : Int) : List Char :=
  let mantissa := match digits with
    | []      => []
    | [d]     => [d]
    | d :: ds => d :: '.' :: ds
  mantissa ++ 'e' :: (if leading < 0 then '-' else '+') :: Nat.toDigits 10 leading.natAbs

/-- The text of a decimal without trailing zeros. -/
def decimalText (layout : Layout) (d : Decimal) : List Char :=
  let digits := Nat.toDigits 10 d.digits
  let leading := d.exponent + digits.length - 1
  if layout.positional leading then positionalText layout.wholeMark digits d.exponent
  else scientificText digits leading

/-- The text of the finite double with word `w`, its sign aside. -/
def wordText (layout : Layout) (w : Nat) : List Char :=
  if w = 0 then '0' :: layout.wholeMark
  else layout.decimalText (Decimal.shortest layout.tie w)

/-- The text of a double.  What is not a number shows no sign. -/
def spell (layout : Layout) (x : Float) : List Char :=
  if Binary64.isNaN x then ['N', 'a', 'N']
  else
    let digits := if Binary64.isFinite x then layout.wordText (Binary64.word x) else ['i', 'n', 'f']
    if Binary64.isNegative x then '-' :: digits else digits

/-- The text of a double, as a string. -/
def text (layout : Layout) (x : Float) : String :=
  String.ofList (layout.spell x)

end Layout

end Reckoner
