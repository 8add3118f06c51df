import Reckoner.Calculator
import Reckoner.Catalogue
import Reckoner.Tool.Parameters

/-!
# Tool — the calculator's tools

Four tools: one for expressions, one for functions, one for conversions, and one that lists what
can be computed.  A computation that succeeds is replied with its data, one that fails with its
message and its code; both are replies.
-/

namespace Reckoner.Tool

open Json (Shape)

/-- The reply that tells an outcome; its input is named by the kind of tool. -/
def reply (inputName : String) (o : Outcome) : Json :=
  if o.success then
    .ofMembers
      [("success", .bool true),
       ("data", .ofMembers
         [(inputName, .string o.expression),
          ("result", .ofOption .ofFloat o.result),
          ("operation", .string o.operation),
          ("timestamp", .string o.timestamp)])]
  else
    .ofMembers
      [("success", .bool false),
       ("error", .string o.errorMessage),
       ("code", .ofOption .string o.errorCode)]

/-- The parameter of the tool for expressions. -/
def expressionShape : Shape where
  name := "CalculateExpressionParams"
  description := "Parameters for expression evaluation"
  fields :=
    [{ name := "expression", kind := .text,
       description := "Mathematical expression, e.g. \"2 + 3 * 4\" or \"(1 + 2) ^ 3\"" }]

/-- The parameters of the tool for functions. -/
def functionShape : Shape where
  name := "ScientificFunctionParams"
  description := "Parameters for scientific functions"
  fields :=
    [{ name := "function_name", kind := .text,
       description :=
         "Name of the function, e.g. \"sin\", \"sqrt\", \"log\", \"factorial\"" },
     { name := "value", kind := .number, description := "Input value for the function" }]

/-- The parameters of the tool for conversions. -/
def conversionShape : Shape where
  name := "ConvertUnitsParams"
  description := "Parameters for unit conversion"
  fields :=
    [{ name := "value", kind := .number, description := "Value to convert" },
     { name := "from_unit", kind := .text,
       description := "Source unit, e.g. \"C\", \"m\", \"kg\"" },
     { name := "to_unit", kind := .text,
       description := "Target unit, e.g. \"F\", \"ft\", \"lbs\"" }]

/-- The tool that lists what can be computed has no parameters. -/
def catalogueShape : Shape where
  name := "SupportedFunctionsParams"
  description := "The supported-functions tool takes no arguments"
  fields := []

/-- Evaluates expressions. -/
def evaluateExpression (calculator : Calculator) : Tool where
  name := "calculator_calculate_expression"
  description := "Evaluate a mathematical expression using + - * / ** % // and parentheses"
  schema := expressionShape.schema
  run j := do
    let (expression, _) ← expressionShape.validate j.orNone
    return reply "expression" (calculator.evaluate expression)

/-- Applies functions. -/
def applyFunction (calculator : Calculator) : Tool where
  name := "calculator_apply_scientific_function"
  description := "Apply a scientific function (sin, cos, sqrt, log, factorial, ...) to a value"
  schema := functionShape.schema
  run j := do
    let (name, x, _) ← functionShape.validate j.orNone
    return reply "function" (calculator.applyFunction name x)

/-- Converts units. -/
def convertUnits (calculator : Calculator) : Tool where
  name := "calculator_convert_units"
  description :=
    "Convert between units: temperature (C, F, K), length (m, ft, km, mi), mass (kg, lbs)"
  schema := conversionShape.schema
  run j := do
    let (x, source, target, _) ← conversionShape.validate j.orNone
    return reply "conversion" (calculator.convertUnits x source target)

/-- Lists what can be computed. -/
def listCatalogue : Tool where
  name := "calculator_get_supported_calculator_functions"
  description :=
    "Get the list of supported calculator operators, functions and unit conversions"
  schema := catalogueShape.schema
  run j := do
    let _ ← catalogueShape.validate j.orNone
    return .ofMembers [("success", .bool true), ("data", Catalogue.all.summary)]

/-- The tools of a calculator. -/
def allOf (calculator : Calculator) : List Tool :=
  [evaluateExpression calculator, applyFunction calculator, convertUnits calculator,
   listCatalogue]

end Reckoner.Tool
