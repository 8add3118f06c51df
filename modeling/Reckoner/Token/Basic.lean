import Reckoner.Decimal.Layout
import Reckoner.Operator

/-!
# Token — the words of an expression

Numbers, operators and parentheses, and how each is written.
-/

namespace Reckoner

/-- A word of an expression. -/
inductive Token where
  | number (value : Float)
  | operator (op : Operator)
  | opening
  | closing
  deriving DecidableEq, Repr

/-- A token and where it starts, in bytes from the beginning of the text. -/
structure PlacedToken where
  token    : Token
  position : Nat
  deriving DecidableEq, Repr

namespace Token

/-- How a token is written. -/
def text : Token → String
  | .number value => Layout.plain.text value
  | .operator op  => op.symbol
  | .opening      => "("
  | .closing      => ")"

/-- Operators, as opposed to numbers and parentheses. -/
def isOperator : Token → Bool
  | .operator _ => true
  | _           => false

end Token

end Reckoner
