/-!
# Operator — the seven binary operators

Their symbols, their names in messages, how strongly they bind and on which side a chain of them
groups.
-/

namespace Reckoner

/-- A binary operator. -/
inductive Operator where
  | add
  | sub
  | mul
  | div
  | pow
  | mod
  | floorDiv
  deriving DecidableEq, Repr

namespace Operator

/-- Every operator, in the order in which they are listed to users. -/
def all : List Operator :=
  [.add, .sub, .mul, .div, .pow, .mod, .floorDiv]

/-- How an operator is written. -/
def symbol : Operator → String
  | .add      => "+"
  | .sub      => "-"
  | .mul      => "*"
  | .div      => "/"
  | .pow      => "**"
  | .mod      => "%"
  | .floorDiv => "//"

/-- What an operator is called in messages. -/
def name : Operator → String
  | .add      => "addition"
  | .sub      => "subtraction"
  | .mul      => "multiplication"
  | .div      => "division"
  | .pow      => "exponentiation"
  | .mod      => "modulo"
  | .floorDiv => "floor division"

/-- How strongly an operator binds; the larger number binds tighter. -/
def precedence : Operator → Nat
  | .add | .sub                    => 1
  | .mul | .div | .mod | .floorDiv => 2
  | .pow                           => 3

/-- Whether `a ∘ b ∘ c` means `a ∘ (b ∘ c)`. -/
def groupsRight : Operator → Bool
  | .pow => true
  | _    => false

/-- Operators that bind equally strongly group on the same side. -/
theorem groupsRight_eq_of_precedence_eq {a b : Operator} (h : a.precedence = b.precedence) :
    a.groupsRight = b.groupsRight := by
  cases a <;> cases b <;> first | rfl | exact absurd h (by decide)

end Operator

end Reckoner
