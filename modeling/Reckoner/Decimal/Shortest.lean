import Reckoner.Decimal.Basic

/-!
# Decimal — the shortest digits of a double

`Decimal.shortest` is the decimal with the fewest digits that reads back as a given positive
double.  It looks at one decimal grid after another, from coarse to fine, and stops at the first
on which one of the two neighbours of the double reads back; of two such neighbours it takes the
nearer, and `Tie` settles equal distances.
-/

namespace Reckoner

/-- Which of two neighbours at the same distance is taken. -/
inductive Tie where
  /-- the larger one -/
  | up
  /-- the one with an even last digit -/
  | even
  deriving DecidableEq, Repr

/-- Whether the quotient `q`, of which the part `r / d` is missing, goes up to `q + 1`. -/
def Tie.raises (tie : Tie) (q r d : Nat) : Bool :=
  match tie with
  | .up   => d ≤ 2 * r
  | .even => d < 2 * r || (2 * r == d && q % 2 == 1)

namespace Decimal

/-- The neighbours of `grains` on the grid of spacing `10 ^ exponent`, the nearer first. -/
def neighbours (tie : Tie) (grains : Nat) (exponent : Int) : Decimal × Decimal :=
  let a := grains * Nat.pow 10 (-exponent).toNat
  let d := Binary64.grainsPerOne * Nat.pow 10 exponent.toNat
  let q := a / d
  if tie.raises q (a % d) d then (⟨q + 1, exponent⟩, ⟨q, exponent⟩)
  else (⟨q, exponent⟩, ⟨q + 1, exponent⟩)

/-- The neighbour of the double `w` on one grid that reads back as `w`, the nearer if both do. -/
def onGrid? (tie : Tie) (w : Nat) (exponent : Int) : Option Decimal :=
  let (near, far) := neighbours tie (Binary64.wordMagnitude w) exponent
  if near.toWord = w then some near
  else if far.toWord = w then some far
  else none

/-- A decimal equal to a number of grains, with all its digits: a grain is `5¹⁰⁷⁴ · 10⁻¹⁰⁷⁴`. -/
def exact (grains : Nat) : Decimal :=
  ⟨grains * Nat.pow 5 1074, -1074⟩

/-- The first hit on `count` grids, from `exponent` on to finer ones; where none has a hit, every
digit there is. -/
def search (tie : Tie) (w count : Nat) (exponent : Int) : Decimal :=
  match (List.range count).findSome? fun (finer : Nat) => onGrid? tie w (exponent - finer) with
  | some d => d
  | none => exact (Binary64.wordMagnitude w)

/-- An exponent at which the grid is coarser than the number itself: `log₁₀ 2` is just under
`30103 / 100000`. -/
def coarsest (grains : Nat) : Int :=
  ((grains.log2 : Int) - 1073) * 30103 / 100000 + 1

/-- The shortest decimal that reads back as the positive double `w`.  Seventeen digits always do,
and the first three grids may be too coarse to show any. -/
def shortest (tie : Tie) (w : Nat) : Decimal :=
  (search tie w 20 (coarsest (Binary64.wordMagnitude w))).trim

end Decimal

end Reckoner
