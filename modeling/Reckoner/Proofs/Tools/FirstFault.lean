import Reckoner.Proofs.Text.ByteOrder
import Reckoner.Proofs.NameMaps
import Reckoner.Proofs.Tools.Schema

/-!
# Tools — the fault that is reported

Arguments can be wrong in several ways at once, and one of them is told.  Members of another kind
come before members that are missing; among the first the least name counts, among the second the
order in which the fields are declared.  The search goes by the fields in byte order of their
names.  As objects hold their members in the same order, it finds what reading an object member by
member finds (`Json.firstMismatch?_eq_visit`), where members that no field names are passed over.

**The message names the least parameter that is given as another kind, or else the first that is
missing** (`Tool.execute_tells_first_fault`).
-/

namespace Reckoner

open CommandLine (registry)

/-! ### The first of a list in order -/

/-- In a list in order, what is found first is found at the least place where anything is. -/
theorem findSome?_of_ascending {α β : Type} {key : α → String} {f : α → Option β} {s : List α}
    (hs : s.Pairwise (key · < key ·)) {b : β} (h : s.findSome? f = some b) :
    ∃ a ∈ s, f a = some b ∧ ∀ a' ∈ s, f a' ≠ none → a' = a ∨ key a < key a' := by
  obtain ⟨front, a, behind, rfl, ha, hfront⟩ := List.findSome?_eq_some_iff.mp h
  refine ⟨a, by simp, ha, fun a' hmem hne => ?_⟩
  rcases List.mem_append.mp hmem with hmem | hmem
  · exact absurd (hfront a' hmem) hne
  · rcases List.mem_cons.mp hmem with rfl | hmem
    · exact .inl rfl
    · obtain ⟨-, hrest, -⟩ := List.pairwise_append.mp hs
      exact .inr ((List.pairwise_cons.mp hrest).1 a' hmem)

namespace Json

/-! ### Fields of another kind -/

/-- How a member of an object fails to be of its field's kind, under the name of the field. -/
def Field.mismatch? (field : Field) (members : NameMap Json) : Option (String × Mismatch) :=
  match members.get? field.name with
  | none => none
  | some j =>
    match field.kind.read j with
    | .error mismatch => some (field.name, mismatch)
    | .ok _ => none

theorem firstMismatch?_eq (fields : List Field) (members : NameMap Json) :
    firstMismatch? fields members = (inNameOrder fields).findSome? (·.mismatch? members) :=
  rfl

/-- An object holds a value of another kind for a field. -/
def Field.Mistaken (field : Field) (members : NameMap Json) : Prop :=
  ∃ j, members.get? field.name = some j ∧ ¬ field.kind.Admits j

theorem Field.mismatch?_eq_some_iff {field : Field} {members : NameMap Json} {name : String}
    {mismatch : Mismatch} : field.mismatch? members = some (name, mismatch) ↔
      name = field.name ∧
        ∃ j, members.get? field.name = some j ∧ field.kind.read j = .error mismatch := by
  unfold Field.mismatch?
  cases members.get? field.name with
  | none => simp
  | some j => cases hread : field.kind.read j <;> simp [hread, eq_comm]

/-- A value is not of a kind if reading it as one fails. -/
theorem Kind.not_admits_iff (kind : Kind) (j : Json) :
    ¬ kind.Admits j ↔ ∃ mismatch, kind.read j = .error mismatch := by
  rw [← kind.exists_read_iff]
  cases kind.read j <;> simp

theorem Field.mismatch?_ne_none_iff {field : Field} {members : NameMap Json} :
    field.mismatch? members ≠ none ↔ field.Mistaken members := by
  rw [Option.ne_none_iff_exists']
  constructor
  · rintro ⟨⟨name, mismatch⟩, h⟩
    obtain ⟨-, j, hget, hread⟩ := Field.mismatch?_eq_some_iff.mp h
    exact ⟨j, hget, (field.kind.not_admits_iff j).mpr ⟨mismatch, hread⟩⟩
  · rintro ⟨j, hget, hkind⟩
    obtain ⟨mismatch, hread⟩ := (field.kind.not_admits_iff j).mp hkind
    exact ⟨_, Field.mismatch?_eq_some_iff.mpr ⟨rfl, j, hget, hread⟩⟩

/-- Fields in byte order are in the order of their names. -/
theorem pairwise_inNameOrder (fields : List Field) :
    (inNameOrder fields).Pairwise (·.name < ·.name) := by
  have hname : ∀ pair ∈ NameMap.ofList (fields.map fun field => (field.name, field)),
      pair.1 = pair.2.name := by
    intro pair hpair
    obtain ⟨field, -, rfl⟩ := List.mem_map.mp (NameMap.mem_of_mem_ofList hpair)
    rfl
  have hascending := List.pairwise_map.mp (NameMap.ascending_ofList
    (fields.map fun field => (field.name, field)))
  refine List.pairwise_map.mpr (hascending.imp_of_mem fun hpair hpair' hlt => ?_)
  rwa [hname _ hpair, hname _ hpair'] at hlt

/-- The fault in kind of an object: in its least field of another kind. -/
structure FaultyIn (fields : List Field) (members : NameMap Json) (field : Field)
    (mismatch : Mismatch) : Prop where
  mem : field ∈ fields
  held : ∃ j, members.get? field.name = some j ∧ field.kind.read j = .error mismatch
  least : ∀ other ∈ fields, other.Mistaken members → other = field ∨ field.name < other.name

/-- **What the search finds is the least field of another kind.** -/
theorem exists_faultyIn {fields : List Field} (hnames : (fields.map Field.name).Nodup)
    {members : NameMap Json} {name : String} {mismatch : Mismatch}
    (h : firstMismatch? fields members = some (name, mismatch)) :
    ∃ field, FaultyIn fields members field mismatch ∧ name = field.name := by
  rw [firstMismatch?_eq] at h
  obtain ⟨field, hmem, hfield, hleast⟩ := findSome?_of_ascending (pairwise_inNameOrder fields) h
  obtain ⟨rfl, hheld⟩ := Field.mismatch?_eq_some_iff.mp hfield
  refine ⟨field, ⟨mem_of_mem_inNameOrder hmem, hheld, fun other hother hmistaken => ?_⟩, rfl⟩
  exact hleast other ((mem_inNameOrder_iff hnames).mpr hother)
    (Field.mismatch?_ne_none_iff.mpr hmistaken)

/-- Where a field is of another kind, something is found. -/
theorem exists_firstMismatch? {fields : List Field} (hnames : (fields.map Field.name).Nodup)
    {members : NameMap Json} {field : Field} (hmem : field ∈ fields)
    (hfield : field.Mistaken members) : ∃ found, firstMismatch? fields members = some found := by
  rw [firstMismatch?_eq, ← Option.ne_none_iff_exists', ne_eq, List.findSome?_eq_none_iff]
  intro hall
  exact Field.mismatch?_ne_none_iff.mpr hfield
    (hall field ((mem_inNameOrder_iff hnames).mpr hmem))

/-! ### Members in the order of the object -/

/-- How a member of an object fails to be of the kind of the field that it is for, if it is for
one. -/
def visitMember? (fields : List Field) (member : String × Json) : Option (String × Mismatch) :=
  match fields.find? (·.name = member.1) with
  | none => none
  | some field =>
    match field.kind.read member.2 with
    | .error mismatch => some (member.1, mismatch)
    | .ok _ => none

/-- How reading an object member by member fails, in the order in which it holds them. -/
def visit? (fields : List Field) (members : NameMap Json) : Option (String × Mismatch) :=
  members.findSome? (visitMember? fields)

/-- A field is found by its name if no other has it. -/
theorem find?_name {fields : List Field} (hnames : (fields.map Field.name).Nodup) {field : Field}
    (hmem : field ∈ fields) : fields.find? (·.name = field.name) = some field := by
  rw [← map_fst_map_name fields id] at hnames
  have hfound := NameMap.find?_eq_some_of_nodup hnames (List.mem_map_of_mem hmem)
  rw [List.find?_map, Option.map_eq_some_iff] at hfound
  obtain ⟨found, hfound, heq⟩ := hfound
  have hsame : found = field := congrArg Prod.snd heq
  rw [hsame] at hfound
  exact hfound

theorem visitMember?_eq_some_iff {fields : List Field} (hnames : (fields.map Field.name).Nodup)
    {member : String × Json} {name : String} {mismatch : Mismatch} :
    visitMember? fields member = some (name, mismatch) ↔ name = member.1 ∧
      ∃ field ∈ fields, field.name = member.1 ∧ field.kind.read member.2 = .error mismatch := by
  unfold visitMember?
  constructor
  · intro h
    split at h
    · cases h
    · rename_i field hfound
      split at h
      · rename_i hread
        cases h
        exact ⟨rfl, field, List.mem_of_find?_eq_some hfound,
          by simpa using List.find?_some hfound, hread⟩
      · cases h
  · rintro ⟨rfl, field, hmem, hname, hread⟩
    rw [← hname, find?_name hnames hmem]
    simp [hread]

/-- **The search finds what reading the object member by member finds.** -/
theorem firstMismatch?_eq_visit {fields : List Field} (hnames : (fields.map Field.name).Nodup)
    {members : NameMap Json} (hm : members.Ascending) :
    firstMismatch? fields members = visit? fields members := by
  have hvisited : ∀ {field : Field} {j : Json} {mismatch : Mismatch}, field ∈ fields →
      members.get? field.name = some j → field.kind.read j = .error mismatch →
        (field.name, j) ∈ members ∧
          visitMember? fields (field.name, j) = some (field.name, mismatch) := by
    intro field j mismatch hmem hget hread
    exact ⟨(NameMap.get?_eq_some_iff hm).mp hget,
      (visitMember?_eq_some_iff hnames).mpr ⟨rfl, field, hmem, rfl, hread⟩⟩
  cases hvisit : visit? fields members with
  | none =>
      have hnone := List.findSome?_eq_none_iff.mp hvisit
      by_contra hne
      obtain ⟨⟨name, mismatch⟩, hfound⟩ := Option.ne_none_iff_exists'.mp hne
      obtain ⟨field, ⟨hmem, ⟨j, hget, hread⟩, -⟩, -⟩ := exists_faultyIn hnames hfound
      obtain ⟨hheld, hsome⟩ := hvisited hmem hget hread
      rw [hnone _ hheld] at hsome
      cases hsome
  | some found =>
      obtain ⟨name, mismatch⟩ := found
      obtain ⟨⟨_, j⟩, hheld, hmember, hfirst⟩ :=
        findSome?_of_ascending (List.pairwise_map.mp hm) hvisit
      obtain ⟨rfl, field, hmem, rfl, hread⟩ := (visitMember?_eq_some_iff hnames).mp hmember
      have hget := (NameMap.get?_eq_some_iff hm).mpr hheld
      have hmistaken : field.Mistaken members :=
        ⟨j, hget, (field.kind.not_admits_iff j).mpr ⟨mismatch, hread⟩⟩
      obtain ⟨⟨name', mismatch'⟩, hfound⟩ := exists_firstMismatch? hnames hmem hmistaken
      obtain ⟨field', ⟨hmem', ⟨j', hget', hread'⟩, hleast⟩, rfl⟩ := exists_faultyIn hnames hfound
      obtain ⟨hheld', hmember'⟩ := hvisited hmem' hget' hread'
      -- each of the two is found first, so neither is before the other
      rcases hleast field hmem hmistaken with rfl | hlt
      · rw [hget] at hget'
        cases hget'
        rw [hread] at hread'
        cases hread'
        exact hfound
      · rcases hfirst _ hheld' (by simp [hmember']) with heq | hgt
        · rw [Prod.mk.injEq] at heq
          exact absurd (heq.1 ▸ hlt) (String.lt_irrefl _)
        · exact absurd hgt (String.lt_asymm hlt)

/-! ### Fields that are missing -/

/-- **Where no field is of another kind, a row fails for its first field that is missing.** -/
theorem exists_missing_of_readRow {fields : List Field} {members : NameMap Json}
    {mismatch : Mismatch} (habsent : ∀ field ∈ fields, field.absent = none)
    (hkinds : ∀ field ∈ fields, ¬ field.Mistaken members)
    (h : readRow members fields = .error mismatch) :
    ∃ front field behind, fields = front ++ field :: behind ∧
      (∀ f ∈ front, ∃ j, members.get? f.name = some j) ∧ members.get? field.name = none ∧
        mismatch = .missing field.name := by
  induction fields with
  | nil => cases h
  | cons field fields ih =>
      obtain ⟨hnone, habsent⟩ := List.forall_mem_cons.mp habsent
      obtain ⟨hkind, hkinds⟩ := List.forall_mem_cons.mp hkinds
      rw [readRow_cons, Field.value, hnone] at h
      cases hget : members.get? field.name with
      | none =>
          rw [hget] at h
          cases h
          exact ⟨[], field, fields, rfl, List.forall_mem_nil _, hget, rfl⟩
      | some j =>
          rw [hget] at h
          obtain ⟨value, hread⟩ := (field.kind.exists_read_iff j).mpr
            (Classical.not_not.mp fun hj => hkind ⟨j, hget, hj⟩)
          cases hrest : readRow members fields with
          | ok row => simp [hread, hrest, bind, Except.bind] at h
          | error mismatch' =>
              have heq : mismatch' = mismatch := by
                simpa [hread, hrest, bind, Except.bind] using h
              subst heq
              obtain ⟨front, missing, behind, rfl, hfront, hmissing, rfl⟩ := ih habsent hkinds hrest
              exact ⟨field :: front, missing, behind, rfl,
                List.forall_mem_cons.mpr ⟨⟨j, hget⟩, hfront⟩, hmissing, rfl⟩

/-! ### Arguments -/

/-- Kinds of which a value fails to be one only as a whole. -/
def Kind.Simple (kind : Kind) : Prop :=
  kind = .text ∨ kind = .number

theorem Kind.read_eq_error {kind : Kind} (hs : kind.Simple) {j : Json} {mismatch : Mismatch}
    (h : kind.read j = .error mismatch) : mismatch = .wrongKind j kind.expected := by
  rcases hs with rfl | rfl <;> cases j <;> cases h <;> rfl

theorem Shape.validate_object_of_misfit {shape : Shape} {members : NameMap Json} {misfit : Misfit}
    (h : readMembers shape.fields members = .error misfit) :
    shape.validate (.object members) =
      .error (.validation (BadArguments.misfit misfit).message) := by
  rw [validate, arguments, h]
  rfl

/-- A message names the least field in byte order that is given as another kind. -/
def TellsKind (fields : List Field) (members : NameMap Json) (message : String) : Prop :=
  ∃ field ∈ fields, ∃ j, members.get? field.name = some j ∧ ¬ field.kind.Admits j ∧
    (∀ other ∈ fields, other.Mistaken members → other ≠ field →
      Text.encoding field.name < Text.encoding other.name) ∧
    message = "Parameter validation failed at " ++ field.name ++ ": " ++
      ("invalid type: " ++ j.found ++ ", expected " ++ field.kind.expected)

/-- A message names the first field in declared order that is missing, and a point as the place. -/
def TellsMissing (fields : List Field) (members : NameMap Json) (message : String) : Prop :=
  ∃ front field behind, fields = front ++ field :: behind ∧
    (∀ f ∈ front, ∃ j, members.get? f.name = some j) ∧ members.get? field.name = none ∧
    message = "Parameter validation failed at .: " ++ ("missing field `" ++ field.name ++ "`")

/-- Members of another kind are told first, by the least of them. -/
theorem Shape.exists_tellsKind {shape : Shape} (hnames : (shape.fields.map Field.name).Nodup)
    (hkinds : ∀ field ∈ shape.fields, field.kind.Simple) {members : NameMap Json}
    (h : ∃ field ∈ shape.fields, field.Mistaken members) :
    ∃ message, shape.validate (.object members) = .error (.validation message) ∧
      TellsKind shape.fields members message := by
  obtain ⟨mistaken, hmem, hmistaken⟩ := h
  obtain ⟨⟨name, mismatch⟩, hfound⟩ := exists_firstMismatch? hnames hmem hmistaken
  obtain ⟨field, ⟨hfield, ⟨j, hget, hread⟩, hleast⟩, rfl⟩ := exists_faultyIn hnames hfound
  have hmisfit : readMembers shape.fields members = .error (some field.name, mismatch) := by
    rw [readMembers, hfound]
  refine ⟨_, validate_object_of_misfit hmisfit, field, hfield, j, hget,
    (field.kind.not_admits_iff j).mpr ⟨mismatch, hread⟩, fun other hother hwrong hne => ?_, ?_⟩
  · exact Text.encoding_lt ((hleast other hother hwrong).resolve_left hne)
  · rw [Kind.read_eq_error (hkinds field hfield) hread]
    rfl

/-- Otherwise the first field is told that is missing. -/
theorem Shape.exists_tellsMissing {shape : Shape} (hnames : (shape.fields.map Field.name).Nodup)
    (habsent : ∀ field ∈ shape.fields, field.absent = none) {members : NameMap Json}
    (hkinds : ∀ field ∈ shape.fields, ¬ field.Mistaken members)
    (h : ∀ row, shape.validate (.object members) ≠ .ok row) :
    ∃ message, shape.validate (.object members) = .error (.validation message) ∧
      TellsMissing shape.fields members message := by
  have hnone : firstMismatch? shape.fields members = none := by
    by_contra hne
    obtain ⟨⟨name, mismatch⟩, hfound⟩ := Option.ne_none_iff_exists'.mp hne
    obtain ⟨field, ⟨hmem, ⟨j, hget, hread⟩, -⟩, -⟩ := exists_faultyIn hnames hfound
    exact hkinds field hmem ⟨j, hget, (field.kind.not_admits_iff j).mpr ⟨mismatch, hread⟩⟩
  cases hrow : readRow members shape.fields with
  | ok row => exact absurd (validate_object_of_readRow hrow) (h row)
  | error mismatch =>
      obtain ⟨front, field, behind, hfields, hfront, hmissing, rfl⟩ :=
        exists_missing_of_readRow habsent hkinds hrow
      have hmisfit : readMembers shape.fields members = .error (none, .missing field.name) := by
        rw [readMembers, hnone, hrow]
        rfl
      exact ⟨_, validate_object_of_misfit hmisfit, front, field, behind, hfields, hfront,
        hmissing, rfl⟩

end Json

namespace Tool

open Json (Shape Row TellsKind TellsMissing)

/-- A call of a tool validates its arguments for the shape that the tool advertises. -/
theorem exists_execute_eq_map (calculator : Calculator) : ∀ entry ∈ shapes,
    ∃ perform : Row entry.2.fields → Json, ∀ j,
      (registry calculator).execute entry.1 j = (entry.2.validate j.orNone).map perform := by
  have hexecute : ∀ {name : String} {tool : Tool} (j : Json),
      (inNameOrder calculator).get? name = some tool →
        (registry calculator).execute name j = tool.run j := by
    intro name tool j hfind
    rw [Registry.execute, Registry.find?, tools_registry, hfind]
  rw [shapes, List.forall_mem_cons, List.forall_mem_cons, List.forall_mem_cons,
    List.forall_mem_singleton]
  exact ⟨⟨_, fun j => (hexecute j rfl).trans (run_applyFunction calculator j)⟩,
    ⟨_, fun j => (hexecute j rfl).trans (run_evaluateExpression calculator j)⟩,
    ⟨_, fun j => (hexecute j rfl).trans (run_convertUnits calculator j)⟩,
    ⟨_, fun j => (hexecute j rfl).trans (run_listCatalogue j)⟩⟩

/-- The parameters of each tool have different names and simple kinds, and nothing stands for one
that is missing. -/
theorem simple_of_mem_shapes : ∀ entry ∈ shapes, (entry.2.fields.map Json.Field.name).Nodup ∧
    (∀ field ∈ entry.2.fields, field.kind.Simple) ∧
    ∀ field ∈ entry.2.fields, field.absent = none := by
  simp [shapes, functionShape, expressionShape, conversionShape, catalogueShape, Json.Kind.Simple]

/-- **A call tells the first fault of its arguments.**  Whatever object a tool is called with, if
its members do not make up the tool's parameters, then the call ends in a message about them:

* if a parameter is given as another kind, the message names the least of these in byte order,
  whatever else is wrong or missing;
* otherwise every parameter that is given is of its kind, and the message names the first in
  declared order that is missing;
* members that are no parameters have no bearing on it. -/
theorem execute_tells_first_fault (calculator : Calculator) (name : String) (shape : Shape)
    (hshape : (name, shape) ∈ shapes) (members : NameMap Json)
    (h : ∀ row, shape.validate (.object members) ≠ .ok row) :
    ∃ message, shape.validate (.object members) = .error (.validation message) ∧
      (registry calculator).execute name (.object members) = .error (.validation message) ∧
      ((∃ field ∈ shape.fields, field.Mistaken members) →
        TellsKind shape.fields members message) ∧
      ((∀ field ∈ shape.fields, ¬ field.Mistaken members) →
        TellsMissing shape.fields members message) ∧
      ∀ members' : NameMap Json,
        (∀ field ∈ shape.fields, members'.get? field.name = members.get? field.name) →
          (registry calculator).execute name (.object members') = .error (.validation message) := by
  obtain ⟨hnames, hkinds, habsent⟩ := simple_of_mem_shapes (name, shape) hshape
  obtain ⟨perform, hexecute⟩ := exists_execute_eq_map calculator (name, shape) hshape
  have hcall : ∀ {message : String} {other : NameMap Json},
      shape.validate (.object other) = .error (.validation message) →
        (registry calculator).execute name (.object other) = .error (.validation message) := by
    intro message other hvalidate
    rw [hexecute, Json.orNone_object, hvalidate]
    rfl
  have hagree : ∀ {message : String} {other : NameMap Json},
      (∀ field ∈ shape.fields, other.get? field.name = members.get? field.name) →
        shape.validate (.object members) = .error (.validation message) →
          shape.validate (.object other) = .error (.validation message) := by
    intro message other hother hvalidate
    rwa [Shape.validate, Shape.arguments, Json.readMembers_congr hother]
  by_cases hmistaken : ∃ field ∈ shape.fields, field.Mistaken members
  · obtain ⟨message, hvalidate, htells⟩ := Shape.exists_tellsKind hnames hkinds hmistaken
    refine ⟨message, hvalidate, hcall hvalidate, fun _ => htells, fun hnone => ?_,
      fun other hother => hcall (hagree hother hvalidate)⟩
    obtain ⟨field, hmem, hfield⟩ := hmistaken
    exact absurd hfield (hnone field hmem)
  · have hnone : ∀ field ∈ shape.fields, ¬ field.Mistaken members :=
      fun field hmem hfield => hmistaken ⟨field, hmem, hfield⟩
    obtain ⟨message, hvalidate, htells⟩ := Shape.exists_tellsMissing hnames habsent hnone h
    exact ⟨message, hvalidate, hcall hvalidate, fun hsome => absurd hsome hmistaken,
      fun _ => htells, fun other hother => hcall (hagree hother hvalidate)⟩

/-- Two parameters of another kind and one that is missing: the one that is least is told, although
it is declared last. -/
theorem execute_tells_target_unit :
    (registry ⟨⟨2024, 6, 1, 12, 0, 0, 0⟩⟩).execute "calculator_convert_units"
        (.object [("amount", .null), ("to_unit", .null), ("value", .string "2")]) =
      .error (.validation
        "Parameter validation failed at to_unit: invalid type: null, expected a string") := by
  have hmistaken : Json.Field.Mistaken ⟨"to_unit", .text,
      "Target unit, e.g. \"F\", \"ft\", \"lbs\"", none, false⟩
      [("amount", .null), ("to_unit", .null), ("value", .string "2")] :=
    ⟨.null, rfl, nofun⟩
  have hinvalid : ∀ row, conversionShape.validate
      (.object [("amount", .null), ("to_unit", .null), ("value", .string "2")]) ≠ .ok row := by
    intro row h
    obtain ⟨-, ⟨⟩, hfilled⟩ := (conversionShape.exists_validate_iff _).mp ⟨row, h⟩
    obtain ⟨s, hs⟩ := hfilled _ (List.mem_of_getLast? rfl)
    cases hs
  obtain ⟨message, -, hexecute, htells, -, -⟩ := execute_tells_first_fault
    ⟨⟨2024, 6, 1, 12, 0, 0, 0⟩⟩ "calculator_convert_units" conversionShape
    (by simp [shapes]) _ hinvalid
  obtain ⟨field, hmem, j, hget, hkind, hleast, rfl⟩ :=
    htells ⟨_, List.mem_of_getLast? rfl, hmistaken⟩
  rw [hexecute]
  simp only [conversionShape, List.mem_cons, List.not_mem_nil, or_false] at hmem
  rcases hmem with rfl | rfl | rfl
  · exact absurd (hleast _ (List.mem_of_getLast? rfl) hmistaken (by simp)) (by decide +kernel)
  · cases hget
  · cases hget
    rfl

end Tool

end Reckoner
