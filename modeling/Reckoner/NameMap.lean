/-!
# NameMap — values under names in byte order

A list of pairs whose names ascend in byte order, which is the order of `String`.  Inserting under
a name that is there already replaces its value.  **An insertion is seen under its own name and
under no other** (`get?_insert`), **and keeps the order** (`ascending_insert`).  Of several pairs
with one name the last one counts (`get?_ofList`).
-/

namespace Reckoner

/-- Values under names. -/
abbrev NameMap (α : Type) : Type := List (String × α)

namespace NameMap

variable {α : Type}

/-- The names, in order. -/
def names (m : NameMap α) : List String :=
  m.map (·.1)

/-- The value under a name. -/
def get? (name : String) : NameMap α → Option α
  | [] => none
  | (other, held) :: rest => if name = other then some held else get? name rest

/-- Puts a value under a name. -/
def insert (name : String) (value : α) : NameMap α → NameMap α
  | [] => [(name, value)]
  | (other, held) :: rest =>
    if name < other then (name, value) :: (other, held) :: rest
    else if name = other then (name, value) :: rest
    else (other, held) :: insert name value rest

/-- The map of a list of pairs, of which later ones replace earlier ones. -/
def ofList (pairs : List (String × α)) : NameMap α :=
  pairs.foldl (fun m (name, value) => m.insert name value) []

/-- The names ascend strictly. -/
def Ascending (m : NameMap α) : Prop :=
  m.names.Pairwise (· < ·)

theorem insert_nil (name : String) (value : α) : insert name value [] = [(name, value)] :=
  rfl

theorem insert_of_lt {name other : String} (h : name < other) (value held : α)
    (rest : NameMap α) :
    insert name value ((other, held) :: rest) = (name, value) :: (other, held) :: rest :=
  if_pos h

theorem insert_of_gt {name other : String} (h : other < name) (value held : α)
    (rest : NameMap α) :
    insert name value ((other, held) :: rest) = (other, held) :: insert name value rest := by
  have hne : name ≠ other := fun he => String.lt_irrefl other (he ▸ h)
  rw [insert, if_neg (String.lt_asymm h), if_neg hne]

theorem mem_names_insert {name other : String} {value : α} {m : NameMap α} :
    other ∈ (m.insert name value).names ↔ other = name ∨ other ∈ m.names := by
  induction m with
  | nil => simp [insert, names]
  | cons entry rest ih => grind [insert, names]

theorem ascending_insert {name : String} {value : α} {m : NameMap α} (h : m.Ascending) :
    (m.insert name value).Ascending := by
  induction m with
  | nil => simp [insert, Ascending, names]
  | cons entry rest ih =>
    have hmem := @mem_names_insert α name
    unfold Ascending names at *
    grind [insert, List.pairwise_cons, names]

theorem ascending_ofList (pairs : List (String × α)) : (ofList pairs).Ascending := by
  suffices ∀ m : NameMap α, m.Ascending →
      (pairs.foldl (fun m (name, value) => m.insert name value) m).Ascending from
    this [] List.Pairwise.nil
  induction pairs with
  | nil => exact fun _ h => h
  | cons pair pairs ih => exact fun m h => ih _ (ascending_insert h)

theorem get?_insert {name other : String} {value : α} {m : NameMap α} (h : m.Ascending) :
    (m.insert name value).get? other = if other = name then some value else m.get? other := by
  induction m with
  | nil => grind [insert, get?]
  | cons entry rest ih =>
    unfold Ascending names at h
    grind [insert, get?, Ascending, names, List.pairwise_cons]

theorem ascending_nil : Ascending ([] : NameMap α) :=
  List.Pairwise.nil

/-- Looking a name up finds what stands under it. -/
theorem get?_eq_some_iff {name : String} {value : α} {m : NameMap α} (h : m.Ascending) :
    m.get? name = some value ↔ (name, value) ∈ m := by
  induction m with
  | nil => simp [get?]
  | cons entry rest ih =>
    unfold Ascending names at *
    grind [get?, List.pairwise_cons]

theorem get?_eq_none_iff {name : String} {m : NameMap α} :
    m.get? name = none ↔ name ∉ m.names := by
  induction m with
  | nil => simp [get?, names]
  | cons entry rest ih => grind [get?, names]

/-- The value of the last pair with a name, if there is one; else what a map held before. -/
theorem get?_foldl_insert (pairs : List (String × α)) (name : String) {m : NameMap α}
    (h : m.Ascending) :
    get? name (pairs.foldl (fun m (name, value) => m.insert name value) m) =
      ((pairs.reverse.find? (·.1 = name)).map (·.2)).or (m.get? name) := by
  induction pairs generalizing m with
  | nil => simp
  | cons pair pairs ih =>
    rw [List.foldl_cons, ih (ascending_insert h), get?_insert h, List.reverse_cons,
      List.find?_append]
    by_cases hname : name = pair.1
    · cases pairs.reverse.find? (·.1 = name) <;> simp [hname]
    · cases pairs.reverse.find? (·.1 = name) <;> simp [hname, Ne.symm hname]

/-- Of several pairs with one name the last one counts. -/
theorem get?_ofList (pairs : List (String × α)) (name : String) :
    (ofList pairs).get? name = (pairs.reverse.find? (·.1 = name)).map (·.2) := by
  have h := get?_foldl_insert pairs name ascending_nil
  rwa [show get? name ([] : NameMap α) = none from rfl, Option.or_none] at h

theorem mem_of_mem_ofList {pairs : List (String × α)} {pair : String × α}
    (h : pair ∈ ofList pairs) : pair ∈ pairs := by
  rw [← get?_eq_some_iff (ascending_ofList pairs), get?_ofList, Option.map_eq_some_iff] at h
  obtain ⟨found, hfound, hvalue⟩ := h
  have hname : found.1 = pair.1 := by simpa using List.find?_some hfound
  rw [← Prod.ext hname hvalue]
  simpa using List.mem_of_find?_eq_some hfound

/-- A pair is found by its name if no other has it. -/
theorem find?_eq_some_of_nodup {pairs : List (String × α)} (h : (pairs.map (·.1)).Nodup)
    {pair : String × α} (hmem : pair ∈ pairs) : pairs.find? (·.1 = pair.1) = some pair := by
  induction pairs with
  | nil => cases hmem
  | cons first pairs ih =>
    rw [List.map_cons, List.nodup_cons] at h
    rcases List.mem_cons.mp hmem with rfl | hmem
    · simp
    · have hne : first.1 ≠ pair.1 := fun he => h.1 (he ▸ List.mem_map_of_mem hmem)
      simpa [hne] using ih h.2 hmem

/-- Pairs with different names all stand in their map. -/
theorem mem_ofList_iff {pairs : List (String × α)} (h : (pairs.map (·.1)).Nodup)
    {pair : String × α} : pair ∈ ofList pairs ↔ pair ∈ pairs := by
  refine ⟨mem_of_mem_ofList, fun hmem => ?_⟩
  have hnodup : (pairs.reverse.map (·.1)).Nodup := by
    rw [List.map_reverse]
    exact (List.reverse_perm _).nodup_iff.mpr h
  rw [← get?_eq_some_iff (ascending_ofList pairs), get?_ofList,
    find?_eq_some_of_nodup hnodup (List.mem_reverse.mpr hmem), Option.map_some]

end NameMap

end Reckoner
