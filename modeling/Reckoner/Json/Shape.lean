import Reckoner.Json.Fault

/-!
# Json — objects of a fixed shape

A shape is a list of fields, each with a kind of value.  A value is read into a shape as an object,
by the names of the fields, or as a list, by their order.  What an object holds besides is passed
over.  **An object is faulty in the kind of its least faulty field** in byte order, **or else in the
first field that it lacks** in declared order.
-/

namespace Reckoner.Json

/-- A kind of value that a field holds. -/
inductive Kind where
  | text
  | number
  | boolean
  | texts
  /-- a value of a kind, or null -/
  | optional (kind : Kind)
  deriving DecidableEq, Repr

/-- The values of a kind. -/
abbrev Kind.Carrier : Kind → Type
  | .text          => String
  | .number        => Float
  | .boolean       => Bool
  | .texts         => List String
  | .optional kind => Option kind.Carrier

/-- What a kind is called where another was found. -/
def Kind.expected : Kind → String
  | .text          => "a string"
  | .number        => "f64"
  | .boolean       => "a boolean"
  | .texts         => "a sequence"
  | .optional kind => kind.expected

/-- The texts in a list of values. -/
def readTexts : List Json → Except Mismatch (List String) :=
  List.mapM fun
    | .string s => .ok s
    | j => .error (.wrongKind j Kind.text.expected)

/-- A value as one of a kind. -/
def Kind.read : (kind : Kind) → Json → Except Mismatch kind.Carrier
  | .text, .string s      => .ok s
  | .number, .number n    => .ok n.toFloat
  | .boolean, .bool b     => .ok b
  | .texts, .array items  => readTexts items
  | .optional _, .null    => .ok none
  | .optional kind, j     => (kind.read j).map some
  | kind, j               => .error (.wrongKind j kind.expected)

/-- A value of a kind as JSON. -/
def Kind.write : (kind : Kind) → kind.Carrier → Json
  | .text, s               => .string s
  | .number, x             => ofFloat x
  | .boolean, b            => .bool b
  | .texts, ts             => ofTexts ts
  | .optional _, none      => .null
  | .optional kind, some a => kind.write a

/-- A field: its name, its kind, and what stands for it where it is missing. -/
structure Field where
  name        : String
  kind        : Kind
  description : String := ""
  /-- what an object without the field is taken to hold -/
  absent      : Option kind.Carrier := none
  /-- whether a list may end before the field -/
  omittable   : Bool := false

/-- A list of fields under a name. -/
structure Shape where
  name        : String
  description : String := ""
  fields      : List Field

/-- One value for each of some fields. -/
abbrev Row : List Field → Type
  | []              => Unit
  | field :: fields => field.kind.Carrier × Row fields

/-- Some fields in byte order of their names. -/
def inNameOrder (fields : List Field) : List Field :=
  (NameMap.ofList (fields.map fun field => (field.name, field))).map (·.2)

/-- The least field that an object holds with a value of another kind, and how it fails. -/
def firstMismatch? (fields : List Field) (members : NameMap Json) : Option (String × Mismatch) :=
  (inNameOrder fields).findSome? fun field =>
    match members.get? field.name with
    | none => none
    | some j =>
      match field.kind.read j with
      | .error mismatch => some (field.name, mismatch)
      | .ok _ => none

/-- The values that an object holds for some fields, in their order. -/
def readRow (members : NameMap Json) : (fields : List Field) → Except Mismatch (Row fields)
  | [] => .ok ()
  | field :: fields => do
    let value ← match members.get? field.name, field.absent with
      | some j, _ => field.kind.read j
      | none, some value => .ok value
      | none, none => .error (.missing field.name)
    let row ← readRow members fields
    return (value, row)

/-- A mismatch and the field in which it is, if it is in one. -/
abbrev Misfit : Type := Option String × Mismatch

/-- The values of an object for some fields. -/
def readMembers (fields : List Field) (members : NameMap Json) : Except Misfit (Row fields) :=
  match firstMismatch? fields members with
  | some (name, mismatch) => .error (some name, mismatch)
  | none => (readRow members fields).mapError fun mismatch => (none, mismatch)

/-- The values of some fields, each under its name. -/
def writeRow : (fields : List Field) → Row fields → List (String × Json)
  | [], _                       => []
  | field :: fields, (value, row) => (field.name, field.kind.write value) :: writeRow fields row

namespace Shape

/-- The values of a shape as a JSON object. -/
def write (shape : Shape) (row : Row shape.fields) : Json :=
  .ofMembers (writeRow shape.fields row)

/-- What a shape is called where another value was found. -/
def expected (shape : Shape) : String :=
  "struct " ++ shape.name

/-- What is asked of a list that is to fill a shape. -/
def expectedLength (shape : Shape) : String :=
  shape.expected ++ " with " ++ toString shape.fields.length ++ " elements"

/-- The values of a list for some fields, the first of which is the field at `position`; and what
the list holds besides. -/
def readItems (shape : Shape) (position : Nat) :
    (fields : List Field) → List Json → Except Mismatch (Row fields × List Json)
  | [], items => .ok ((), items)
  | field :: fields, [] =>
    match field.omittable, field.absent with
    | true, some value => do
      let (row, rest) ← readItems shape (position + 1) fields []
      return ((value, row), rest)
    | _, _ => .error (.tooShort position shape.expectedLength)
  | field :: fields, item :: items => do
    let value ← field.kind.read item
    let (row, rest) ← readItems shape (position + 1) fields items
    return ((value, row), rest)

/-- The values that fill a shape. -/
def read (shape : Shape) (j : Json) : Except Mismatch (Row shape.fields) :=
  match j with
  | object members => (readMembers shape.fields members).mapError (·.2)
  | array items => do
    let (row, rest) ← shape.readItems 0 shape.fields items
    if rest.isEmpty then .ok row else .error (.tooLong items.length)
  | j => .error (.wrongKind j shape.expected)

end Shape

end Reckoner.Json
