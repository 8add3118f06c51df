import Mathlib.Data.List.Forall2
import Reckoner.Proofs.Tools.Calls

/-!
# Tools — what schemas ask for

The schema of a tool and the reading of its arguments are made from one list of fields, in two
ways.  Here the schema is taken by its own meaning, that of JSON Schema: `Json.accepts` goes
through the keywords of a schema and asks of a value what each of them says.  A keyword that is not
known is never met, so that nothing in a schema is passed over.

**A schema accepts what is validated, and nothing else** (`Json.accepts_schema_iff`).  **So what the
tools advertise is what they take** (`Tool.accepts_advertised_iff`).
-/

namespace Reckoner

open CommandLine (registry)

/-- Whether a number is a whole one. -/
def JsonNumber.isWhole : JsonNumber → Bool
  | natural _ | negative _ => true
  | real x                 => Binary64.toWhole .down x == x

namespace Json

/-! ### The meaning of schemas -/

/-- The types of a value, as they are called in schemas. -/
def typeNames : Json → List String
  | null     => ["null"]
  | bool _   => ["boolean"]
  | number n => if n.isWhole then ["number", "integer"] else ["number"]
  | string _ => ["string"]
  | array _  => ["array"]
  | object _ => ["object"]

/-- Whether a value has the type that is named. -/
def hasType (j : Json) : (name : Json) → Bool
  | string name => j.typeNames.contains name
  | _           => false

/-- Whether a value has a type, or one of several types. -/
def acceptsType : (value j : Json) → Bool
  | array names, j => names.any j.hasType
  | name, j        => j.hasType name

/-- Whether an object has the member that is named. -/
def hasMember (members : NameMap Json) : (name : Json) → Bool
  | string name => (members.get? name).isSome
  | _           => false

/-- Whether a value has certain members, if it is an object. -/
def acceptsRequired : (value j : Json) → Bool
  | array names, object members => names.all (hasMember members)
  | array _, _                  => true
  | _, _                        => false

/-- The keywords that ask for nothing. -/
def annotations : List String :=
  ["title", "description", "format"]

mutual

/-- Whether a value is as a schema asks.  A schema is a truth value or an object of keywords. -/
def accepts : (schema j : Json) → Bool
  | bool b, _          => b
  | object keywords, j => acceptsAll keywords j
  | _, _               => false
termination_by structural schema => schema

/-- Whether a value is as every keyword asks. -/
def acceptsAll : (keywords : List (String × Json)) → (j : Json) → Bool
  | [], _                => true
  | entry :: keywords, j => acceptsKeyword entry j && acceptsAll keywords j
termination_by structural keywords => keywords

/-- Whether a value is as a keyword asks. -/
def acceptsKeyword : (entry : String × Json) → (j : Json) → Bool
  | (keyword, value), j =>
    if keyword = "type" then acceptsType value j
    else if keyword = "required" then acceptsRequired value j
    else if keyword = "properties" then acceptsProperties value j
    else annotations.contains keyword
termination_by structural entry => entry

/-- Whether the members of a value are as their schemas ask, if it is an object. -/
def acceptsProperties : (value j : Json) → Bool
  | object schemas, object members => acceptsMembers schemas members
  | object _, _                    => true
  | _, _                           => false
termination_by structural value => value

/-- Whether members are as their schemas ask; none has to be there. -/
def acceptsMembers : (schemas : List (String × Json)) → (members : NameMap Json) → Bool
  | [], _ => true
  | (name, schema) :: schemas, members =>
    (match members.get? name with
      | some j => accepts schema j
      | none   => true) && acceptsMembers schemas members
termination_by structural schemas => schemas

end

/-! ### Keyword by keyword -/

theorem acceptsAll_iff {keywords : List (String × Json)} {j : Json} :
    acceptsAll keywords j = true ↔ ∀ entry ∈ keywords, acceptsKeyword entry j = true := by
  induction keywords with
  | nil => simp [acceptsAll]
  | cons entry keywords ih => rw [acceptsAll, Bool.and_eq_true, ih, List.forall_mem_cons]

theorem acceptsMembers_iff {schemas : List (String × Json)} {members : NameMap Json} :
    acceptsMembers schemas members = true ↔
      ∀ entry ∈ schemas, ∀ j, members.get? entry.1 = some j → accepts entry.2 j = true := by
  induction schemas with
  | nil => simp [acceptsMembers]
  | cons entry schemas ih =>
      rw [acceptsMembers, Bool.and_eq_true, ih, List.forall_mem_cons]
      cases members.get? entry.1 <;> simp

/-- The order in which keywords are given makes no difference. -/
theorem accepts_ofMembers_iff {keywords : List (String × Json)}
    (h : (keywords.map (·.1)).Nodup) {j : Json} :
    accepts (.ofMembers keywords) j = true ↔
      ∀ entry ∈ keywords, acceptsKeyword entry j = true := by
  rw [ofMembers, accepts, acceptsAll_iff]
  simp only [NameMap.mem_ofList_iff h]

theorem acceptsKeyword_of_annotation {keyword : String} (h : keyword ∈ annotations)
    (value j : Json) : acceptsKeyword (keyword, value) j = true := by
  simp only [annotations, List.mem_cons, List.not_mem_nil, or_false] at h
  rcases h with rfl | rfl | rfl <;> rfl

theorem acceptsKeyword_type (name : String) (j : Json) :
    acceptsKeyword ("type", .string name) j = true ↔ name ∈ j.typeNames :=
  List.contains_iff_mem

theorem acceptsKeyword_required (names : List String) (members : NameMap Json) :
    acceptsKeyword ("required", .ofTexts names) (.object members) = true ↔
      ∀ name ∈ names, ∃ j, members.get? name = some j := by
  change (names.map string).all (hasMember members) = true ↔ _
  simp [hasMember, Option.isSome_iff_exists]

theorem acceptsKeyword_properties {schemas : List (String × Json)}
    (h : (schemas.map (·.1)).Nodup) (members : NameMap Json) :
    acceptsKeyword ("properties", .ofMembers schemas) (.object members) = true ↔
      ∀ entry ∈ schemas, ∀ j, members.get? entry.1 = some j → accepts entry.2 j = true := by
  change acceptsMembers (NameMap.ofList schemas) members = true ↔ _
  rw [acceptsMembers_iff]
  simp only [NameMap.mem_ofList_iff h]

/-! ### Shapes -/

theorem object_mem_typeNames_iff (j : Json) :
    "object" ∈ j.typeNames ↔ ∃ members, j = .object members := by
  cases j with
  | number n => cases hn : n.isWhole <;> simp [typeNames, hn]
  | null | bool | string | array | object => simp [typeNames]

/-- Kinds that are a type. -/
def Kind.Plain (kind : Kind) : Prop :=
  kind = .text ∨ kind = .number ∨ kind = .boolean

/-- What schemas call the type of a kind, null aside. -/
def Kind.typeName : Kind → String
  | .text          => "string"
  | .number        => "number"
  | .boolean       => "boolean"
  | .texts         => "array"
  | .optional kind => kind.typeName

/-- A plain kind admits the values of its type. -/
theorem Kind.typeName_mem_iff {kind : Kind} (h : kind.Plain) (j : Json) :
    kind.typeName ∈ j.typeNames ↔ kind.Admits j := by
  rcases h with rfl | rfl | rfl <;> cases j with
  | number n => cases hn : n.isWhole <;> simp [typeNames, typeName, Admits, hn]
  | null | bool | string | array | object => simp [typeNames, typeName, Admits]

/-- **The schema of a field accepts the values of its kind.** -/
theorem Field.accepts_schema_iff {field : Field} (h : field.kind.Plain) (j : Json) :
    accepts field.schema j = true ↔ field.kind.Admits j := by
  have hdescription := acceptsKeyword_of_annotation (by decide : "description" ∈ annotations)
  have hformat := acceptsKeyword_of_annotation (by decide : "format" ∈ annotations)
  rw [← Kind.typeName_mem_iff h, Field.schema]
  rcases h with h | h | h <;>
    rw [h, accepts_ofMembers_iff (by simp [Kind.schemaMembers])] <;>
    simp [Kind.schemaMembers, Kind.typeName, hdescription, hformat, acceptsKeyword_type]

/-- The schema of a shape asks for an object that has every field, as the schema of the field
asks. -/
theorem accepts_schema_iff_members {shape : Shape}
    (hnames : (shape.fields.map Field.name).Nodup) (j : Json) :
    accepts shape.schema j = true ↔ ∃ members, j = .object members ∧
      ∀ field ∈ shape.fields, ∃ v, NameMap.get? field.name members = some v ∧
        accepts field.schema v = true := by
  have htitle := acceptsKeyword_of_annotation (by decide : "title" ∈ annotations)
  have hdescription := acceptsKeyword_of_annotation (by decide : "description" ∈ annotations)
  rw [Shape.schema]
  -- a shape without fields is described by its type alone
  by_cases hempty : shape.fields.isEmpty = true
  · rw [if_pos hempty, accepts_ofMembers_iff (by simp)]
    rw [List.isEmpty_iff] at hempty
    simp [hempty, htitle, hdescription, acceptsKeyword_type, object_mem_typeNames_iff]
  · rw [if_neg hempty, accepts_ofMembers_iff (by simp)]
    simp only [List.cons_append, List.nil_append, List.forall_mem_cons, htitle, hdescription,
      acceptsKeyword_type, object_mem_typeNames_iff]
    constructor
    · rintro ⟨-, -, ⟨members, rfl⟩, hproperties, hrequired, -⟩
      rw [acceptsKeyword_properties (by rwa [map_fst_map_name])] at hproperties
      rw [acceptsKeyword_required] at hrequired
      refine ⟨members, rfl, fun field hmem => ?_⟩
      obtain ⟨v, hv⟩ := hrequired field.name
        (List.mem_map_of_mem ((mem_inNameOrder_iff hnames).mpr hmem))
      exact ⟨v, hv, hproperties (field.name, field.schema) (List.mem_map_of_mem hmem) v hv⟩
    · rintro ⟨members, rfl, hmembers⟩
      rw [acceptsKeyword_properties (by rwa [map_fst_map_name]), acceptsKeyword_required]
      refine ⟨trivial, trivial, ⟨members, rfl⟩, fun entry hentry w hw => ?_,
        fun name hname => ?_, nofun⟩
      · obtain ⟨field, hmem, rfl⟩ := List.mem_map.mp hentry
        obtain ⟨v, hv, haccepts⟩ := hmembers field hmem
        rw [hv] at hw
        cases hw
        exact haccepts
      · obtain ⟨field, hmem, rfl⟩ := List.mem_map.mp hname
        obtain ⟨v, hv, -⟩ := hmembers field (mem_of_mem_inNameOrder hmem)
        exact ⟨v, hv⟩

/-- **The schema of a shape accepts what is valid**, if the fields are plain, have different names
and nothing stands for one that is missing. -/
theorem accepts_schema_iff {shape : Shape} (hnames : (shape.fields.map Field.name).Nodup)
    (hfields : ∀ field ∈ shape.fields, field.kind.Plain ∧ field.absent = none) (j : Json) :
    accepts shape.schema j = true ↔ ∃ row, shape.validate j = .ok row := by
  rw [accepts_schema_iff_members hnames, shape.exists_validate_iff]
  refine exists_congr fun members => and_congr_right fun _ => forall₂_congr fun field hmem => ?_
  obtain ⟨hplain, habsent⟩ := hfields field hmem
  simp only [field.filled_iff habsent, Field.accepts_schema_iff hplain]

/-- An integer is a number, and what is not known is passed over. -/
example : accepts Tool.functionShape.schema (.object
    [("function_name", .string "sqrt"), ("note", .null), ("value", .ofNat 4)]) = true := by
  decide +kernel

end Json

namespace Tool

open Json (Shape)

/-! ### What is advertised -/

/-- The tools of a calculator and the shapes of their arguments. -/
def shapes : NameMap Shape :=
  [("calculator_apply_scientific_function", functionShape),
   ("calculator_calculate_expression", expressionShape),
   ("calculator_convert_units", conversionShape),
   ("calculator_get_supported_calculator_functions", catalogueShape)]

/-- What is advertised under a name has a schema that accepts what is valid for a shape. -/
def Advertises (definition : Json) (name : String) (shape : Shape) : Prop :=
  ∃ members schema, definition = .object members ∧
    NameMap.get? "name" members = some (.string name) ∧
    NameMap.get? "inputSchema" members = some schema ∧
    ∀ j, Json.accepts schema j = true ↔ ∃ row, shape.validate j = .ok row

theorem advertises_definition {tool : Tool} {shape : Shape} (h : tool.schema = shape.schema)
    (hnames : (shape.fields.map Json.Field.name).Nodup)
    (hfields : ∀ field ∈ shape.fields, field.kind.Plain ∧ field.absent = none) :
    Advertises tool.definition tool.name shape := by
  refine ⟨_, tool.schema, rfl, rfl, rfl, fun j => ?_⟩
  rw [h, Json.accepts_schema_iff hnames hfields]

/-- Calls are answered exactly if their arguments are valid for a shape of the parameters. -/
theorem exists_execute_iff_validate (calculator : Calculator) {name : String}
    {parameters : List Parameter} {shape : Shape} (h : documented.get? name = some parameters)
    (hdemands : shape.Demands parameters) (arguments : Json) :
    (∃ reply, (registry calculator).execute name arguments = .ok reply) ↔
      ∃ row, shape.validate arguments.orNone = .ok row := by
  rw [exists_execute_eq_ok_iff calculator h, not_unfit_iff hdemands]

/-- **The tools advertise what they take.**  Each of them, in byte order of the names, has a schema
that accepts exactly the values that are valid for its shape; and its calls are answered exactly if
their arguments, or no arguments where they are null, are valid for that shape. -/
theorem accepts_advertised_iff (calculator : Calculator) :
    List.Forall₂ (fun definition (entry : String × Shape) =>
        Advertises definition entry.1 entry.2 ∧
        ∀ arguments, (∃ reply, (registry calculator).execute entry.1 arguments = .ok reply) ↔
          ∃ row, entry.2.validate arguments.orNone = .ok row)
      (registry calculator).definitions shapes := by
  rw [Registry.definitions, tools_registry]
  refine .cons ⟨advertises_definition rfl (by decide) ?_,
      exists_execute_iff_validate calculator rfl ⟨rfl, ?_⟩⟩
    (.cons ⟨advertises_definition rfl (by decide) ?_,
        exists_execute_iff_validate calculator rfl ⟨rfl, ?_⟩⟩
      (.cons ⟨advertises_definition rfl (by decide) ?_,
          exists_execute_iff_validate calculator rfl ⟨rfl, ?_⟩⟩
        (.cons ⟨advertises_definition rfl (by decide) ?_,
          exists_execute_iff_validate calculator rfl ⟨rfl, ?_⟩⟩ .nil)))
  · simp [functionShape, Json.Kind.Plain]
  · simp [functionShape]
  · simp [expressionShape, Json.Kind.Plain]
  · simp [expressionShape]
  · simp [conversionShape, Json.Kind.Plain]
  · simp [conversionShape]
  · simp [catalogueShape]
  · simp [catalogueShape]

end Tool

end Reckoner
