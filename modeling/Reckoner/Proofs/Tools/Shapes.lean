import Reckoner.Tool.Parameters

/-!
# Tools — what fills a shape

Reading an object into a shape looks at the fields of the shape and at nothing else
(`Json.readMembers_congr`).  It succeeds exactly if every field is filled: by a value of its kind,
or by what stands for it where it is missing.  The search for the field to complain about never
decides whether an object is read (`Json.readMembers_eq_ok_iff`), and a number may be written in
any way that means the same double (`Json.readMembers_of_alike`).

**The arguments of a call are valid exactly if they are an object that fills every field**
(`Json.Shape.exists_validate_iff`).
-/

namespace Reckoner.Json

/-! ### Readings that succeed -/

theorem exists_map_ok_iff {ε α β : Type} {f : α → β} {x : Except ε α} :
    (∃ b, x.map f = .ok b) ↔ ∃ a, x = .ok a := by
  cases x <;> simp [Except.map]

theorem bind_ok_iff {ε α β : Type} {x : Except ε α} {f : α → Except ε β} {b : β} :
    (x >>= f) = .ok b ↔ ∃ a, x = .ok a ∧ f a = .ok b := by
  cases x <;> simp [bind, Except.bind]

theorem mapError_ok {ε ε' α : Type} (f : ε → ε') (a : α) :
    (Except.ok a).mapError f = .ok a :=
  rfl

theorem mapError_error {ε ε' α : Type} (f : ε → ε') (e : ε) :
    (Except.error e : Except ε α).mapError f = .error (f e) :=
  rfl

theorem mapError_ok_iff {ε ε' α : Type} {f : ε → ε'} {x : Except ε α} {a : α} :
    x.mapError f = .ok a ↔ x = .ok a := by
  cases x <;> simp [mapError_ok, mapError_error]

/-! ### Kinds -/

/-- The JSON values of a kind. -/
def Kind.Admits : Kind → Json → Prop
  | .text, j          => ∃ s, j = .string s
  | .number, j        => ∃ n, j = .number n
  | .boolean, j       => ∃ b, j = .bool b
  | .texts, j         => ∃ ts, j = .ofTexts ts
  | .optional kind, j => j = .null ∨ kind.Admits j

/-- A list is read as texts exactly if it is a list of texts. -/
theorem exists_readTexts_iff (items : List Json) :
    (∃ ts, readTexts items = .ok ts) ↔ ∃ ts : List String, items = ts.map .string := by
  induction items with
  | nil => exact iff_of_true ⟨[], rfl⟩ ⟨[], rfl⟩
  | cons j items ih =>
      rw [readTexts, List.mapM_cons, ← readTexts]
      constructor
      · rintro ⟨ts, h⟩
        obtain ⟨t, hj, hrest⟩ := bind_ok_iff.mp h
        obtain ⟨us, hus, -⟩ := bind_ok_iff.mp hrest
        obtain ⟨vs, rfl⟩ := ih.mp ⟨us, hus⟩
        cases j with
        | string s => exact ⟨s :: vs, rfl⟩
        | null | bool | number | array | object => cases hj
      · rintro ⟨ts, h⟩
        obtain ⟨t, us, rfl, rfl, hus⟩ := List.map_eq_cons_iff.mp h.symm
        obtain ⟨rest, hrest⟩ := ih.mpr ⟨us, hus.symm⟩
        exact ⟨t :: rest, bind_ok_iff.mpr ⟨t, rfl, bind_ok_iff.mpr ⟨rest, hrest, rfl⟩⟩⟩

/-- **A value is read as one of a kind exactly if the kind admits it.** -/
theorem Kind.exists_read_iff (kind : Kind) (j : Json) :
    (∃ a, kind.read j = .ok a) ↔ kind.Admits j := by
  induction kind with
  | text | number | boolean => cases j <;> simp [Kind.read, Kind.Admits]
  | texts =>
      cases j with
      | array items => simp [Kind.read, Kind.Admits, ofTexts, exists_readTexts_iff]
      | null | bool | number | string | object => simp [Kind.read, Kind.Admits, ofTexts]
  | optional kind ih =>
      cases j with
      | null => simp [Kind.read, Kind.Admits]
      | bool | number | string | array | object =>
          rw [Kind.Admits, ← ih, Kind.read, exists_map_ok_iff] <;> simp

/-! ### Fields -/

/-- The value of a field in an object, or what stands for it where it is missing. -/
def Field.value (field : Field) (members : NameMap Json) : Except Mismatch field.kind.Carrier :=
  match members.get? field.name, field.absent with
  | some j, _          => field.kind.read j
  | none, some value   => .ok value
  | none, none         => .error (.missing field.name)

theorem readRow_cons (members : NameMap Json) (field : Field) (fields : List Field) :
    readRow members (field :: fields) =
      field.value members >>= fun value =>
        readRow members fields >>= fun row => .ok (value, row) := by
  rw [readRow]
  unfold Field.value
  cases members.get? field.name <;> cases field.absent <;> rfl

/-- A row is read if a value is read for each of its fields. -/
theorem readRow_cons_eq_ok_iff {members : NameMap Json} {field : Field} {fields : List Field}
    {row : Row (field :: fields)} : readRow members (field :: fields) = .ok row ↔
      field.value members = .ok row.1 ∧ readRow members fields = .ok row.2 := by
  rw [readRow_cons, bind_ok_iff]
  simp only [bind_ok_iff]
  constructor
  · rintro ⟨value, hvalue, rest, hrest, ⟨⟩⟩
    exact ⟨hvalue, hrest⟩
  · rintro ⟨hvalue, hrest⟩
    exact ⟨row.1, hvalue, row.2, hrest, rfl⟩

/-- A row is read value by value. -/
theorem readRow_cons_of_get? {members : NameMap Json} {field : Field} {fields : List Field}
    {j : Json} {value : field.kind.Carrier} {row : Row fields}
    (hget : members.get? field.name = some j) (hread : field.kind.read j = .ok value)
    (hrow : readRow members fields = .ok row) :
    readRow members (field :: fields) = .ok (value, row) := by
  refine readRow_cons_eq_ok_iff.mpr ⟨?_, hrow⟩
  rw [Field.value, hget]
  exact hread

/-- An object holds a value of the field's kind, or lacks the field where something stands for
it. -/
def Field.Filled (field : Field) (members : NameMap Json) : Prop :=
  match members.get? field.name with
  | some j => field.kind.Admits j
  | none   => field.absent.isSome = true

theorem Field.exists_value_iff (field : Field) (members : NameMap Json) :
    (∃ value, field.value members = .ok value) ↔ field.Filled members := by
  unfold Field.value Field.Filled
  cases members.get? field.name with
  | some j => exact field.kind.exists_read_iff j
  | none => cases field.absent <;> simp

/-- A field without anything to stand for it is filled by a value of its kind alone. -/
theorem Field.filled_iff {field : Field} (h : field.absent = none) (members : NameMap Json) :
    field.Filled members ↔ ∃ j, members.get? field.name = some j ∧ field.kind.Admits j := by
  unfold Field.Filled
  cases members.get? field.name <;> simp [h]

/-- **A row is read from an object exactly if the object fills every field.** -/
theorem exists_readRow_iff (members : NameMap Json) (fields : List Field) :
    (∃ row, readRow members fields = .ok row) ↔ ∀ field ∈ fields, field.Filled members := by
  induction fields with
  | nil => exact iff_of_true ⟨(), rfl⟩ nofun
  | cons field fields ih =>
      rw [List.forall_mem_cons, ← ih, ← field.exists_value_iff]
      constructor
      · rintro ⟨row, h⟩
        obtain ⟨hvalue, hrest⟩ := readRow_cons_eq_ok_iff.mp h
        exact ⟨⟨row.1, hvalue⟩, ⟨row.2, hrest⟩⟩
      · rintro ⟨⟨value, hvalue⟩, ⟨rest, hrest⟩⟩
        exact ⟨(value, rest), readRow_cons_eq_ok_iff.mpr ⟨hvalue, hrest⟩⟩

/-! ### Objects -/

theorem mem_of_mem_inNameOrder {fields : List Field} {field : Field}
    (h : field ∈ inNameOrder fields) : field ∈ fields := by
  obtain ⟨pair, hpair, rfl⟩ := List.mem_map.mp h
  obtain ⟨field, hfield, rfl⟩ := List.mem_map.mp (NameMap.mem_of_mem_ofList hpair)
  exact hfield

theorem map_fst_map_name {α : Type} (fields : List Field) (f : Field → α) :
    (fields.map fun field => (field.name, f field)).map (·.1) = fields.map Field.name := by
  rw [List.map_map]
  rfl

/-- Fields with different names are all in byte order. -/
theorem mem_inNameOrder_iff {fields : List Field} (h : (fields.map Field.name).Nodup)
    {field : Field} : field ∈ inNameOrder fields ↔ field ∈ fields := by
  refine ⟨mem_of_mem_inNameOrder, fun hmem => ?_⟩
  rw [← map_fst_map_name fields id] at h
  exact List.mem_map.mpr ⟨(field.name, field),
    (NameMap.mem_ofList_iff h).mpr (List.mem_map_of_mem hmem), rfl⟩

/-- An object that fills every field has no mismatch. -/
theorem firstMismatch?_eq_none {fields : List Field} {members : NameMap Json}
    (h : ∀ field ∈ fields, field.Filled members) : firstMismatch? fields members = none := by
  refine List.findSome?_eq_none_iff.mpr fun field hmem => ?_
  have hfilled := h field (mem_of_mem_inNameOrder hmem)
  unfold Field.Filled at hfilled
  cases hget : members.get? field.name with
  | none => rfl
  | some j =>
      rw [hget] at hfilled
      obtain ⟨a, ha⟩ := (field.kind.exists_read_iff j).mpr hfilled
      simp [ha]

/-- **Which field is complained about has no bearing on what is read.** -/
theorem readMembers_eq_ok_iff {fields : List Field} {members : NameMap Json} {row : Row fields} :
    readMembers fields members = .ok row ↔ readRow members fields = .ok row := by
  unfold readMembers
  constructor
  · intro h
    split at h
    · cases h
    · exact mapError_ok_iff.mp h
  · intro h
    rw [firstMismatch?_eq_none ((exists_readRow_iff members fields).mp ⟨row, h⟩), h]
    rfl

theorem findSome?_congr {α β : Type} {f g : α → Option β} {s : List α} (h : ∀ a ∈ s, f a = g a) :
    s.findSome? f = s.findSome? g := by
  induction s with
  | nil => rfl
  | cons a s ih =>
      obtain ⟨ha, hs⟩ := List.forall_mem_cons.mp h
      rw [List.findSome?_cons, List.findSome?_cons, ha, ih hs]

/-- **Only the fields of a shape are looked at**, also where reading fails. -/
theorem readMembers_congr {fields : List Field} {members members' : NameMap Json}
    (h : ∀ field ∈ fields, members.get? field.name = members'.get? field.name) :
    readMembers fields members = readMembers fields members' := by
  have hmismatch : firstMismatch? fields members = firstMismatch? fields members' := by
    unfold firstMismatch?
    refine findSome?_congr fun field hmem => ?_
    rw [h field (mem_of_mem_inNameOrder hmem)]
  have hrow : readRow members fields = readRow members' fields := by
    clear hmismatch
    induction fields with
    | nil => rfl
    | cons field fields ih =>
        obtain ⟨hfield, hfields⟩ := List.forall_mem_cons.mp h
        rw [readRow_cons, readRow_cons, ih hfields, Field.value, Field.value, hfield]
  rw [readMembers, readMembers, hmismatch, hrow]

/-! ### Numbers that mean the same double -/

/-- The same value, or two numbers that mean the same double. -/
inductive Alike : Json → Json → Prop where
  | refl (j : Json) : Alike j j
  | number {n n' : JsonNumber} (h : n.toFloat = n'.toFloat) : Alike (.number n) (.number n')

/-- Values that are alike are read alike. -/
theorem Kind.read_of_alike {kind : Kind} {j j' : Json} (h : Alike j j') {a : kind.Carrier}
    (ha : kind.read j = .ok a) : kind.read j' = .ok a := by
  cases h with
  | refl => exact ha
  | @number n n' h =>
      induction kind with
      | text | boolean | texts => cases ha
      | number => rwa [Kind.read, ← h]
      | optional kind ih =>
          simp only [Kind.read] at ha ⊢
          cases hread : kind.read (.number n) with
          | error mismatch => simp [hread, Except.map] at ha
          | ok b =>
              rw [hread] at ha
              rw [ih hread, ha]

/-- **What is read from an object is read from every one whose fields are alike.** -/
theorem readMembers_of_alike {fields : List Field} {members members' : NameMap Json}
    (h : ∀ field ∈ fields,
      Option.Rel Alike (members.get? field.name) (members'.get? field.name))
    {row : Row fields} (hrow : readMembers fields members = .ok row) :
    readMembers fields members' = .ok row := by
  rw [readMembers_eq_ok_iff] at hrow ⊢
  induction fields with
  | nil => rfl
  | cons field fields ih =>
      obtain ⟨hfield, hfields⟩ := List.forall_mem_cons.mp h
      obtain ⟨hvalue, hrest⟩ := readRow_cons_eq_ok_iff.mp hrow
      refine readRow_cons_eq_ok_iff.mpr ⟨?_, ih hfields hrest⟩
      unfold Field.value at hvalue ⊢
      generalize members.get? field.name = held at hfield hvalue
      generalize members'.get? field.name = held' at hfield ⊢
      cases hfield with
      | none => exact hvalue
      | some halike => exact field.kind.read_of_alike halike hvalue

/-! ### Arguments -/

theorem orNone_object (members : NameMap Json) : (object members).orNone = .object members :=
  rfl

namespace Shape

theorem validate_object_eq_ok_iff {shape : Shape} {members : NameMap Json}
    {row : Row shape.fields} :
    shape.validate (.object members) = .ok row ↔ readMembers shape.fields members = .ok row := by
  rw [validate, mapError_ok_iff, arguments, mapError_ok_iff]

theorem validate_object_of_readRow {shape : Shape} {members : NameMap Json}
    {row : Row shape.fields} (h : readRow members shape.fields = .ok row) :
    shape.validate (.object members) = .ok row :=
  validate_object_eq_ok_iff.mpr (readMembers_eq_ok_iff.mpr h)

/-- **Arguments are valid exactly if they are an object that fills every field.** -/
theorem exists_validate_iff (shape : Shape) (j : Json) :
    (∃ row, shape.validate j = .ok row) ↔
      ∃ members, j = .object members ∧ ∀ field ∈ shape.fields, field.Filled members := by
  cases j with
  | object members =>
      simp [validate_object_eq_ok_iff, readMembers_eq_ok_iff, exists_readRow_iff]
  | null | bool | number | string | array => simp [validate, arguments, mapError_error]

/-- Arguments that are not valid end a call in one way. -/
theorem validation_of_validate {shape : Shape} {j : Json} {failure : CallError}
    (h : shape.validate j = .error failure) : ∃ message, failure = .validation message := by
  unfold validate at h
  cases hj : shape.arguments j with
  | ok row => simp [hj, mapError_ok] at h
  | error bad =>
      rw [hj] at h
      cases h
      exact ⟨_, rfl⟩

end Shape

end Reckoner.Json
