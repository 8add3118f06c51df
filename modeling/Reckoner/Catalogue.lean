import Reckoner.Conversion.Rule
import Reckoner.Function
import Reckoner.Json.Shape

/-!
# Catalogue — what can be computed

The operators, the functions and the units on offer, each in the order of its table.
-/

namespace Reckoner

/-- Lists of what can be computed. -/
structure Catalogue where
  operators : List String
  functions : List String
  units     : List String
  deriving DecidableEq, Repr

namespace Catalogue

/-- All that there is. -/
def all : Catalogue where
  operators := Operator.all.map Operator.symbol
  functions := ScientificFunction.all.map ScientificFunction.name
  units     := Quantity.all.map Quantity.summary

/-- A catalogue as a JSON object of lists. -/
def toJson (c : Catalogue) : Json :=
  .ofMembers
    [("basic_operators", .ofTexts c.operators),
     ("scientific_functions", .ofTexts c.functions),
     ("unit_categories", .ofTexts c.units)]

/-- A catalogue as a JSON object of three lines to be shown. -/
def summary (c : Catalogue) : Json :=
  .ofMembers
    [("Basic", .string (", ".intercalate c.operators)),
     ("Scientific", .string (", ".intercalate c.functions)),
     ("Units", .string (", ".intercalate c.units))]

/-- The shape in which catalogues are read. -/
def shape : Json.Shape where
  name := "SupportedOperations"
  fields :=
    [{ name := "basic_operators", kind := .texts },
     { name := "scientific_functions", kind := .texts },
     { name := "unit_categories", kind := .texts }]

/-- The catalogue that a JSON value describes. -/
def ofJson (j : Json) : Except Json.Mismatch Catalogue :=
  (shape.read j).map fun (operators, functions, units, _) => { operators, functions, units }

end Catalogue

end Reckoner
