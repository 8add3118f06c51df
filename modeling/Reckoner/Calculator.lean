import Reckoner.Conversion.Rule
import Reckoner.Expr.Value
import Reckoner.Function
import Reckoner.Instant
import Reckoner.Outcome

/-!
# Calculator — computations on record

A calculator knows what time it is, and records every computation with it.  A failure is part of
the record, so that every request has an outcome.
-/

namespace Reckoner

/-- A calculator at a time. -/
structure Calculator where
  now : Instant

namespace Calculator

/-- The value of an expression, on record.  An expression that fails before it is read was not
valid in the first place, and its record says so. -/
def evaluate (calculator : Calculator) (expression : String) : Outcome :=
  match evaluateExpression expression with
  | .ok x => .ofResult expression "calculation" calculator.now.stamp x
  | .error failure =>
    let operation := if failure.isValidation then "validation" else "calculation"
    .ofFailure expression operation calculator.now.stamp failure

/-- The value of a function, on record. -/
def applyFunction (calculator : Calculator) (name : String) (x : Float) : Outcome :=
  let expression := name ++ "(" ++ Layout.plain.text x ++ ")"
  match ScientificFunction.apply name x with
  | .ok y => .ofResult expression "scientific_function" calculator.now.stamp y
  | .error failure => .ofFailure expression "scientific_function" calculator.now.stamp failure

/-- A conversion, on record. -/
def convertUnits (calculator : Calculator) (x : Float) (source target : String) : Outcome :=
  let expression := Layout.plain.text x ++ " " ++ source ++ " to " ++ target
  match convert x source target with
  | .ok conversion =>
    .ofResult expression conversion.label calculator.now.stamp conversion.value
  | .error failure => .ofFailure expression "unit_conversion" calculator.now.stamp failure

end Calculator

end Reckoner
