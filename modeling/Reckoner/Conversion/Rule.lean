import Reckoner.Conversion.Formula
import Reckoner.Decimal.Layout

/-!
# Conversion — units and rules

Each rule leads from one unit to another of the same quantity, in one direction; the way back is a
rule of its own, and nothing is chained.  A unit may be written in any of its spellings, in capital
or small ASCII letters.
-/

namespace Reckoner

/-- What units measure. -/
inductive Quantity where
  | temperature
  | length
  | mass
  deriving DecidableEq, Repr

/-- Every quantity, in the order in which they are listed to users. -/
def Quantity.all : List Quantity :=
  [.temperature, .length, .mass]

/-- The name of a quantity in labels and lists. -/
def Quantity.label : Quantity → String
  | .temperature => "Temperature"
  | .length      => "Length"
  | .mass        => "Weight"

/-- A unit: a short spelling, further spellings, and the symbol in labels. -/
structure MeasureUnit where
  short  : String
  others : List String
  symbol : String
  deriving DecidableEq, Repr

namespace MeasureUnit

/-- Every spelling of a unit, the short one first. -/
def spellings (u : MeasureUnit) : List String :=
  u.short :: u.others

/-- Equal but for the case of ASCII letters. -/
def sameLetters (a b : String) : Bool :=
  a.toList.map Char.toLower == b.toList.map Char.toLower

/-- Whether a text is a spelling of a unit. -/
def isWritten (u : MeasureUnit) (spelling : String) : Bool :=
  u.spellings.any (sameLetters · spelling)

/-- The degree of the Celsius scale. -/
def celsius : MeasureUnit := ⟨"C", ["celsius"], "°C"⟩

/-- The degree of the Fahrenheit scale. -/
def fahrenheit : MeasureUnit := ⟨"F", ["fahrenheit"], "°F"⟩

/-- The kelvin, the only temperature whose symbol has no degree sign. -/
def kelvin : MeasureUnit := ⟨"K", ["kelvin"], "K"⟩

/-- The meter. -/
def meter : MeasureUnit := ⟨"m", ["meters"], "m"⟩

/-- The international foot. -/
def foot : MeasureUnit := ⟨"ft", ["feet"], "ft"⟩

/-- A thousand meters. -/
def kilometer : MeasureUnit := ⟨"km", ["kilometers"], "km"⟩

/-- The international mile. -/
def mile : MeasureUnit := ⟨"mi", ["miles"], "mi"⟩

/-- The kilogram. -/
def kilogram : MeasureUnit := ⟨"kg", ["kilograms"], "kg"⟩

/-- The avoirdupois pound. -/
def pound : MeasureUnit := ⟨"lbs", ["pounds"], "lbs"⟩

end MeasureUnit

/-- The way from one unit to another. -/
structure ConversionRule where
  source   : MeasureUnit
  target   : MeasureUnit
  quantity : Quantity
  formula  : Formula
  deriving DecidableEq, Repr

namespace ConversionRule

open MeasureUnit

/-- Every rule. -/
def all : List ConversionRule :=
  [⟨celsius, fahrenheit, .temperature, [.times ⟨9, 0⟩, .over ⟨5, 0⟩, .plus ⟨32, 0⟩]⟩,
   ⟨fahrenheit, celsius, .temperature, [.minus ⟨32, 0⟩, .times ⟨5, 0⟩, .over ⟨9, 0⟩]⟩,
   ⟨celsius, kelvin, .temperature, [.plus ⟨27315, -2⟩]⟩,
   ⟨kelvin, celsius, .temperature, [.minus ⟨27315, -2⟩]⟩,
   ⟨meter, foot, .length, [.times ⟨328084, -5⟩]⟩,
   ⟨foot, meter, .length, [.over ⟨328084, -5⟩]⟩,
   ⟨kilometer, mile, .length, [.times ⟨621371, -6⟩]⟩,
   ⟨mile, kilometer, .length, [.over ⟨621371, -6⟩]⟩,
   ⟨kilogram, pound, .mass, [.times ⟨220462, -5⟩]⟩,
   ⟨pound, kilogram, .mass, [.over ⟨220462, -5⟩]⟩]

/-- Whether a rule leads from one spelling to another. -/
def leads (rule : ConversionRule) (source target : String) : Bool :=
  rule.source.isWritten source && rule.target.isWritten target

/-- The rule that leads from one spelling to another. -/
def find? (source target : String) : Option ConversionRule :=
  all.find? (·.leads source target)

/-- What a conversion of `x` by a rule is called, as in `Length conversion: 5km to mi`. -/
def describe (rule : ConversionRule) (x : Float) : String :=
  rule.quantity.label ++ " conversion: " ++ Layout.plain.text x ++ rule.source.symbol ++ " to " ++
    rule.target.symbol

end ConversionRule

namespace Quantity

/-- The short spellings of the units of a quantity, each once, in the order of the rules. -/
def shortUnits (q : Quantity) : List String :=
  ((ConversionRule.all.filter (·.quantity = q)).flatMap fun rule =>
    [rule.source.short, rule.target.short]).eraseDups

/-- A quantity with its units, as in `Length (m, ft, km, mi)`. -/
def summary (q : Quantity) : String :=
  q.label ++ " (" ++ ", ".intercalate q.shortUnits ++ ")"

end Quantity

/-- Decimal places that a converted value keeps. -/
def conversionPlaces : Nat := 6

/-- The value of a conversion by a rule. -/
def ConversionRule.convert {α : Type} [Arithmetic α] (rule : ConversionRule) (x : α) : α :=
  roundTo conversionPlaces (rule.formula.run x)

/-- A converted value and what the conversion is called. -/
structure Conversion where
  value : Float
  label : String
  deriving DecidableEq, Repr

/-- Converts a value between two units. -/
def convert (x : Float) (source target : String) : Except Failure Conversion :=
  match ConversionRule.find? source target with
  | none => .error (.unsupportedConversion source target)
  | some rule => .ok ⟨rule.convert x, rule.describe x⟩

end Reckoner
