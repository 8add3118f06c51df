import Reckoner.Json.Shape
import Reckoner.Tool.Basic

/-!
# Tool — parameters

The parameters of a tool are a shape.  The schema that is advertised and the validation of a call
are both made from it.
-/

namespace Reckoner.Json

/-- The schema of a kind of value. -/
def Kind.schemaMembers : Kind → List (String × Json)
  | .text          => [("type", .string "string")]
  | .number        => [("type", .string "number"), ("format", .string "double")]
  | .boolean       => [("type", .string "boolean")]
  | .texts         =>
    [("type", .string "array"), ("items", .ofMembers [("type", .string "string")])]
  | .optional kind => [("anyOf", .array [.ofMembers kind.schemaMembers,
      .ofMembers [("type", .string "null")]])]

/-- The schema of a field, with its description. -/
def Field.schema (field : Field) : Json :=
  .ofMembers (("description", .string field.description) :: field.kind.schemaMembers)

namespace Shape

/-- The schema of a shape: an object that has every field. -/
def schema (shape : Shape) : Json :=
  .ofMembers <|
    [("title", .string shape.name),
     ("description", .string shape.description),
     ("type", .string "object")] ++
    if shape.fields.isEmpty then []
    else
      [("properties", .ofMembers (shape.fields.map fun field => (field.name, field.schema))),
       ("required", .ofTexts ((inNameOrder shape.fields).map Field.name))]

end Shape

/-- What a value is called where an object was to be given. -/
def article : Json → String
  | null     => "null"
  | bool _   => "a boolean"
  | number _ => "a number"
  | string _ => "a string"
  | array _  => "an array"
  | object _ => "an object"

/-- How the arguments of a call fail to be those of a tool. -/
inductive BadArguments where
  | notObject (value : Json)
  | misfit (misfit : Misfit)

/-- The wording of bad arguments; a point stands for the arguments as a whole. -/
def BadArguments.message : BadArguments → String
  | notObject value => "Tool arguments must be a JSON object, got " ++ value.article
  | misfit (path, mismatch) =>
    "Parameter validation failed at " ++ path.getD "." ++ ": " ++ mismatch.message

namespace Shape

/-- The values that an object gives to the parameters of a shape. -/
def arguments (shape : Shape) (j : Json) : Except BadArguments (Row shape.fields) :=
  match j with
  | object members => (readMembers shape.fields members).mapError .misfit
  | j => .error (.notObject j)

/-- The values of the parameters of a shape, or the error of a call. -/
def validate (shape : Shape) (j : Json) : Except CallError (Row shape.fields) :=
  (shape.arguments j).mapError fun bad => .validation bad.message

end Shape

/-- The arguments of a call; null stands for none. -/
def orNone : Json → Json
  | null => object []
  | j    => j

end Reckoner.Json
