import Reckoner.Json.Fault

/-!
# Tool — what can be called

A tool has a name, a description, a schema of its arguments, and a way to run.  A call that cannot
be carried out ends in a `CallError`; what a tool computes, failures included, is its reply.
-/

namespace Reckoner

/-- A reason why a call has no reply. -/
inductive CallError where
  /-- the arguments are not JSON, or a value is not of its form -/
  | serialization (fault : Json.Fault)
  /-- the arguments are not those of the tool -/
  | validation (message : String)
  | toolNotFound (name : String)

namespace CallError

/-- The stable code of an error. -/
def code : CallError → String
  | serialization _ => "SERIALIZATION_ERROR"
  | validation _    => "VALIDATION_ERROR"
  | toolNotFound _  => "TOOL_NOT_FOUND"

/-- The sentence that tells an error. -/
def message : CallError → String
  | serialization fault => "Serialization error: " ++ fault.message
  | validation message  => "Validation error: " ++ message
  | toolNotFound name   => "Tool not found: " ++ name

/-- An error as it is sent to a caller. -/
def payload (e : CallError) : Json :=
  .ofMembers
    [("error", .ofMembers [("code", .string e.code), ("message", .string e.message)])]

end CallError

/-- Something that can be called by name. -/
structure Tool where
  name        : String
  description : String
  /-- the JSON schema of the arguments -/
  schema      : Json
  run         : Json → Except CallError Json

/-- A tool as it is advertised. -/
def Tool.definition (tool : Tool) : Json :=
  .ofMembers
    [("name", .string tool.name),
     ("description", .string tool.description),
     ("inputSchema", tool.schema)]

end Reckoner
