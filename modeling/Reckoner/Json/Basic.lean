import Reckoner.Binary64.Basic
import Reckoner.NameMap

/-!
# Json — values

JSON values as they are exchanged with tools.  A number keeps the kind in which it was written: a
natural number or a negative integer that fits in 64 bits, or a double.  The members of an object
are a `NameMap`.
-/

namespace Reckoner

/-- A JSON number. -/
inductive JsonNumber where
  | natural (n : Nat)
  | negative (n : Int)
  | real (x : Float)
  deriving DecidableEq, Repr

/-- The double nearest to a number. -/
def JsonNumber.toFloat : JsonNumber → Float
  | natural n  => Binary64.ofNat n
  | negative n => Binary64.ofInt n
  | real x     => x

/-- A JSON value. -/
inductive Json where
  | null
  | bool (b : Bool)
  | number (n : JsonNumber)
  | string (s : String)
  | array (items : List Json)
  | object (members : List (String × Json))

namespace Json

/-- The object with these members, given in any order. -/
def ofMembers (members : List (String × Json)) : Json :=
  object (NameMap.ofList members)

/-- A natural number. -/
def ofNat (n : Nat) : Json :=
  number (.natural n)

/-- A double; what is not finite has no number in JSON and is null. -/
def ofFloat (x : Float) : Json :=
  if Binary64.isFinite x then number (.real x) else null

/-- A list of texts. -/
def ofTexts (texts : List String) : Json :=
  array (texts.map string)

/-- A value that may be missing: null if it is. -/
def ofOption {α : Type} (write : α → Json) : Option α → Json
  | none   => null
  | some a => write a

end Json

end Reckoner
