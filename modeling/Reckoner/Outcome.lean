import Reckoner.Failure
import Reckoner.Json.Shape

/-!
# Outcome — the record of one computation

What was computed, its result or what went wrong, and when.  Outcomes are written as JSON objects
and read back from them.
-/

namespace Reckoner

/-- The record of a computation. -/
structure Outcome where
  /-- the input, as it was asked for -/
  expression   : String
  /-- the result, unless there is none -/
  result       : Option Float
  /-- what was done -/
  operation    : String
  timestamp    : String
  success      : Bool
  errorMessage : String := ""
  /-- the stable code of a failure -/
  errorCode    : Option String := none
  deriving DecidableEq, Repr

namespace Outcome

/-- The record of a result. -/
def ofResult (expression operation timestamp : String) (result : Float) : Outcome :=
  { expression, result := some result, operation, timestamp, success := true }

/-- The record of a failure. -/
def ofFailure (expression operation timestamp : String) (failure : Failure) : Outcome :=
  { expression, result := none, operation, timestamp, success := false,
    errorMessage := failure.message, errorCode := some failure.code }

/-- An outcome as a JSON object.  The code of a failure is left out where there is none. -/
def toJson (o : Outcome) : Json :=
  .ofMembers <|
    [("expression", .string o.expression),
     ("result", .ofOption .ofFloat o.result),
     ("operation", .string o.operation),
     ("timestamp", .string o.timestamp),
     ("success", .bool o.success),
     ("error_message", .string o.errorMessage)] ++
    match o.errorCode with
    | some code => [("error_code", .string code)]
    | none => []

/-- The shape in which outcomes are read. -/
def shape : Json.Shape where
  name := "CalculationResult"
  fields :=
    [{ name := "expression", kind := .text },
     { name := "result", kind := .optional .number, absent := some none },
     { name := "operation", kind := .text },
     { name := "timestamp", kind := .text },
     { name := "success", kind := .boolean },
     { name := "error_message", kind := .text, absent := some "", omittable := true },
     { name := "error_code", kind := .optional .text, absent := some none, omittable := true }]

/-- The outcome that a JSON value records. -/
def ofJson (j : Json) : Except Json.Mismatch Outcome :=
  (shape.read j).map fun
    (expression, result, operation, timestamp, success, errorMessage, errorCode, _) =>
      { expression, result, operation, timestamp, success, errorMessage, errorCode }

end Outcome

end Reckoner
