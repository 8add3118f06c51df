import Reckoner.Token.Basic

/-!
# Failure — what can go wrong in a computation

Each way in which an expression, a function call or a conversion fails is one constructor, with
what its message names.  `Failure.code` is the stable identifier for programs, `Failure.message`
the sentence for people.
-/

namespace Reckoner

/-- What a reader of expressions has to object to at one place. -/
inductive Complaint where
  | emptyExpression
  | unexpectedEnd
  /-- an operator without the values that it takes -/
  | missingOperand
  | missingClosing
  | emptyParentheses
  | nestedTooDeeply
  | unexpectedToken (found : Token)
  | expectedClosing (found : Token)
  | expectedOperand (found : Token)
  /-- a point without a digit on either side -/
  | barePoint
  /-- an objection in the words of a caller -/
  | worded (words : String)
  deriving DecidableEq, Repr

/-- The wording of a complaint. -/
def Complaint.message : Complaint → String
  | .emptyExpression       => "empty expression"
  | .unexpectedEnd         => "unexpected end of expression"
  | .missingOperand        => "missing operand"
  | .missingClosing        => "missing closing parenthesis"
  | .emptyParentheses      => "empty parentheses"
  | .nestedTooDeeply       => "expression too deeply nested"
  | .unexpectedToken found => "unexpected token '" ++ found.text ++ "'"
  | .expectedClosing found => "expected ')' but found '" ++ found.text ++ "'"
  | .expectedOperand found => "expected a number or '(' but found '" ++ found.text ++ "'"
  | .barePoint             => "invalid number literal '.'"
  | .worded words          => words

/-- A reason why a computation has no value. -/
inductive Failure where
  | invalidCharacter (character : Char) (position : Nat)
  | unbalancedParentheses
  | consecutiveOperators (position : Nat)
  | malformed (complaint : Complaint) (position : Nat)
  | divisionByZero (operation : String)
  | unknownFunction (name : String)
  | outsideDomain (function message : String)
  | unsupportedConversion (source target : String)
  deriving DecidableEq, Repr

namespace Failure

/-- The stable code of a failure. -/
def code : Failure → String
  | .invalidCharacter ..      => "INVALID_CHARACTER"
  | .unbalancedParentheses    => "UNBALANCED_PARENTHESES"
  | .consecutiveOperators _   => "CONSECUTIVE_OPERATORS"
  | .malformed ..             => "SYNTAX_ERROR"
  | .divisionByZero _         => "DIVISION_BY_ZERO"
  | .unknownFunction _        => "UNKNOWN_FUNCTION"
  | .outsideDomain ..         => "DOMAIN_ERROR"
  | .unsupportedConversion .. => "UNSUPPORTED_CONVERSION"

/-- The sentence that tells a failure. -/
def message : Failure → String
  | .invalidCharacter character position =>
    "Invalid character '" ++ character.toString ++ "' at position " ++ toString position
  | .unbalancedParentheses => "Unbalanced parentheses"
  | .consecutiveOperators position => "Consecutive operators at position " ++ toString position
  | .malformed complaint position =>
    "Syntax error at position " ++ toString position ++ ": " ++ complaint.message
  | .divisionByZero operation => "Division by zero in " ++ operation
  | .unknownFunction name => "Unknown function: " ++ name
  | .outsideDomain _ message => message
  | .unsupportedConversion source target =>
    "Unsupported conversion: " ++ source ++ " to " ++ target

/-- Failures that show while the text is split into tokens, before any of it is read as an
expression. -/
def isValidation : Failure → Bool
  | .invalidCharacter ..    => true
  | .unbalancedParentheses  => true
  | .consecutiveOperators _ => true
  | _                       => false

end Failure

end Reckoner
