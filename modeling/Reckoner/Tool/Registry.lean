import Reckoner.Tool.Basic

/-!
# Tool — the registry

Tools under their names, in byte order.  Registering a tool replaces the one that had its name.  A
`Request` is what can be asked of a registry; a session is a list of requests, answered one after
another, each by the registry that the ones before have left.
-/

namespace Reckoner

/-- Tools under their names. -/
structure Registry where
  tools : NameMap Tool

namespace Registry

/-- No tools. -/
def empty : Registry := ⟨[]⟩

/-- Adds a tool under its name. -/
def register (r : Registry) (tool : Tool) : Registry :=
  ⟨r.tools.insert tool.name tool⟩

/-- Adds several tools, one after another. -/
def registerAll (r : Registry) (tools : List Tool) : Registry :=
  tools.foldl register r

/-- The tool with this name. -/
def find? (r : Registry) (name : String) : Option Tool :=
  r.tools.get? name

/-- The names of all tools, in byte order. -/
def names (r : Registry) : List String :=
  r.tools.names

/-- Whether there is a tool with this name. -/
def has (r : Registry) (name : String) : Bool :=
  (r.find? name).isSome

/-- What is advertised, in byte order of the names. -/
def definitions (r : Registry) : List Json :=
  r.tools.map fun (_, tool) => tool.definition

/-- Calls a tool by its name. -/
def execute (r : Registry) (name : String) (arguments : Json) : Except CallError Json :=
  match r.find? name with
  | none => .error (.toolNotFound name)
  | some tool => tool.run arguments

end Registry

/-- Something asked of a registry. -/
inductive Request where
  | register (tools : List Tool)
  | execute (name : String) (arguments : Json)
  | names
  | has (name : String)
  | definitions

/-- What a registry answers. -/
inductive Answer where
  | names (names : List String)
  | reply (reply : Except CallError Json)
  | has (has : Bool)
  | definitions (definitions : List Json)

namespace Registry

/-- The registry after a request; only registering changes it. -/
def after (r : Registry) : Request → Registry
  | .register tools => r.registerAll tools
  | _               => r

/-- The answer to a request.  Registering is answered with the names there are then. -/
def answer (r : Registry) : Request → Answer
  | .register tools         => .names (r.registerAll tools).names
  | .execute name arguments => .reply (r.execute name arguments)
  | .names                  => .names r.names
  | .has name               => .has (r.has name)
  | .definitions            => .definitions r.definitions

/-- The answers to a list of requests. -/
def session (r : Registry) : List Request → List Answer
  | []                  => []
  | request :: requests => r.answer request :: (r.after request).session requests

end Registry

end Reckoner
