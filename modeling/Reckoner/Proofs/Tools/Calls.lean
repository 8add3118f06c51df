import Mathlib.Data.List.Forall2
import Reckoner.CommandLine
import Reckoner.Proofs.Tools.Shapes

/-!
# Tools — which calls are answered

What is documented of a tool is its name and its parameters.  A call goes wrong in two ways only:
no tool has the name, or the arguments are `Unfit` for the parameters, being no object, or lacking
a parameter, or giving one a value of another kind.

**This decides every call, and nothing in the arguments but the parameters bears on the answer**
(`Tool.execute_by_parameters`).
-/

namespace Reckoner

open CommandLine (registry)

/-! ### Parameters -/

/-- What a parameter of a tool is called, and the kind of value that it takes. -/
structure Parameter where
  name : String
  kind : Json.Kind

/-- How arguments fail to be those of a tool. -/
inductive Unfit (parameters : List Parameter) : Json → Prop where
  | notObject {j : Json} (h : ∀ members, j ≠ .object members) : Unfit parameters j
  | lacking {p : Parameter} {members : NameMap Json} (hp : p ∈ parameters)
      (h : members.get? p.name = none) : Unfit parameters (.object members)
  | wrongKind {p : Parameter} {members : NameMap Json} {j : Json} (hp : p ∈ parameters)
      (h : members.get? p.name = some j) (hj : ¬ p.kind.Admits j) :
      Unfit parameters (.object members)

/-- The parameter that a field reads. -/
def Json.Field.parameter (field : Json.Field) : Parameter :=
  ⟨field.name, field.kind⟩

/-- A shape reads these parameters, and nothing stands for one that is missing. -/
def Json.Shape.Demands (shape : Json.Shape) (parameters : List Parameter) : Prop :=
  shape.fields.map Json.Field.parameter = parameters ∧
    ∀ field ∈ shape.fields, field.absent = none

/-- **Arguments are valid exactly if they are not unfit.** -/
theorem not_unfit_iff {shape : Json.Shape} {parameters : List Parameter}
    (h : shape.Demands parameters) (j : Json) :
    ¬ Unfit parameters j ↔ ∃ row, shape.validate j = .ok row := by
  obtain ⟨rfl, habsent⟩ := h
  rw [shape.exists_validate_iff]
  constructor
  · intro hfit
    cases j with
    | object members =>
        refine ⟨members, rfl, fun field hmem => ?_⟩
        have hp : field.parameter ∈ shape.fields.map Json.Field.parameter :=
          List.mem_map_of_mem hmem
        rw [field.filled_iff (habsent field hmem)]
        cases hget : NameMap.get? field.name members with
        | none => exact absurd (.lacking hp hget) hfit
        | some j =>
            refine ⟨j, rfl, Classical.byContradiction fun hj => ?_⟩
            exact hfit (.wrongKind hp hget hj)
    | null | bool | number | string | array => exact absurd (.notObject nofun) hfit
  · rintro ⟨members, rfl, hfilled⟩ hunfit
    have hheld : ∀ p ∈ shape.fields.map Json.Field.parameter,
        ∃ j, NameMap.get? p.name members = some j ∧ p.kind.Admits j := by
      intro p hp
      obtain ⟨field, hmem, rfl⟩ := List.mem_map.mp hp
      exact (field.filled_iff (habsent field hmem) members).mp (hfilled field hmem)
    cases hunfit with
    | notObject hne => exact hne members rfl
    | lacking hp hnone =>
        obtain ⟨j, hj, -⟩ := hheld _ hp
        rw [hnone] at hj
        cases hj
    | wrongKind hp hsome hkind =>
        obtain ⟨j, hj, hadmits⟩ := hheld _ hp
        rw [hsome] at hj
        cases hj
        exact hkind hadmits

/-- Maps with the same names, and related values under them, hold related values under every
name. -/
theorem NameMap.rel_get? {α β : Type} {R : α → β → Prop} {m : NameMap α} {m' : NameMap β}
    (h : List.Forall₂ (fun entry entry' => entry.1 = entry'.1 ∧ R entry.2 entry'.2) m m')
    (name : String) : Option.Rel R (m.get? name) (m'.get? name) := by
  induction h with
  | nil => exact .none
  | cons hentry _ ih =>
      obtain ⟨hname, hvalue⟩ := hentry
      unfold NameMap.get?
      rw [← hname]
      split
      · exact .some hvalue
      · exact ih

namespace Tool

open Json (Shape Row)

theorem run_evaluateExpression (calculator : Calculator) (j : Json) :
    (evaluateExpression calculator).run j = (expressionShape.validate j.orNone).map
      fun (expression, _) => reply "expression" (calculator.evaluate expression) := by
  cases h : expressionShape.validate j.orNone <;> simp [evaluateExpression, h] <;> rfl

theorem run_applyFunction (calculator : Calculator) (j : Json) :
    (applyFunction calculator).run j = (functionShape.validate j.orNone).map
      fun (name, x, _) => reply "function" (calculator.applyFunction name x) := by
  cases h : functionShape.validate j.orNone <;> simp [applyFunction, h] <;> rfl

theorem run_convertUnits (calculator : Calculator) (j : Json) :
    (convertUnits calculator).run j = (conversionShape.validate j.orNone).map
      fun (x, source, target, _) =>
        reply "conversion" (calculator.convertUnits x source target) := by
  cases h : conversionShape.validate j.orNone <;> simp [convertUnits, h] <;> rfl

theorem run_listCatalogue (j : Json) :
    listCatalogue.run j = (catalogueShape.validate j.orNone).map
      fun _ => .ofMembers [("success", .bool true), ("data", Catalogue.all.summary)] := by
  cases h : catalogueShape.validate j.orNone <;> simp [listCatalogue, h] <;> rfl

/-- A tool takes these parameters: it validates its arguments by them, with null for none, and
replies by their values. -/
def Takes (tool : Tool) (parameters : List Parameter) : Prop :=
  ∃ (shape : Shape) (perform : Row shape.fields → Json), shape.Demands parameters ∧
    ∀ j, tool.run j = (shape.validate j.orNone).map perform

theorem takes_evaluateExpression (calculator : Calculator) :
    (evaluateExpression calculator).Takes [⟨"expression", .text⟩] :=
  ⟨expressionShape, _, ⟨rfl, by simp [expressionShape]⟩, run_evaluateExpression calculator⟩

theorem takes_applyFunction (calculator : Calculator) :
    (applyFunction calculator).Takes [⟨"function_name", .text⟩, ⟨"value", .number⟩] :=
  ⟨functionShape, _, ⟨rfl, by simp [functionShape]⟩, run_applyFunction calculator⟩

theorem takes_convertUnits (calculator : Calculator) :
    (convertUnits calculator).Takes
      [⟨"value", .number⟩, ⟨"from_unit", .text⟩, ⟨"to_unit", .text⟩] :=
  ⟨conversionShape, _, ⟨rfl, by simp [conversionShape]⟩, run_convertUnits calculator⟩

theorem takes_listCatalogue : listCatalogue.Takes [] :=
  ⟨catalogueShape, _, ⟨rfl, by simp [catalogueShape]⟩, run_listCatalogue⟩

/-! ### The tools there are -/

/-- The tools of a calculator and their parameters, as they are documented. -/
def documented : NameMap (List Parameter) :=
  [("calculator_apply_scientific_function", [⟨"function_name", .text⟩, ⟨"value", .number⟩]),
   ("calculator_calculate_expression", [⟨"expression", .text⟩]),
   ("calculator_convert_units",
    [⟨"value", .number⟩, ⟨"from_unit", .text⟩, ⟨"to_unit", .text⟩]),
   ("calculator_get_supported_calculator_functions", [])]

/-- The parameters of the tool that has a name; none where there is no such tool. -/
def parametersOf (name : String) : List Parameter :=
  (documented.get? name).getD []

/-- The tools of a calculator under their names, in byte order. -/
def inNameOrder (calculator : Calculator) : NameMap Tool :=
  [("calculator_apply_scientific_function", applyFunction calculator),
   ("calculator_calculate_expression", evaluateExpression calculator),
   ("calculator_convert_units", convertUnits calculator),
   ("calculator_get_supported_calculator_functions", listCatalogue)]

/-- **Registering the tools puts them in order.** -/
theorem tools_registry (calculator : Calculator) :
    (registry calculator).tools = inNameOrder calculator := by
  have hfunction : (applyFunction calculator).name < (evaluateExpression calculator).name :=
    (by decide +kernel :
      "calculator_apply_scientific_function" < "calculator_calculate_expression")
  have hexpression : (evaluateExpression calculator).name < (convertUnits calculator).name :=
    (by decide +kernel : "calculator_calculate_expression" < "calculator_convert_units")
  have hconversion : (convertUnits calculator).name < listCatalogue.name :=
    (by decide +kernel :
      "calculator_convert_units" < "calculator_get_supported_calculator_functions")
  have hskip := String.lt_trans hfunction hexpression
  -- only the tool for functions is registered behind one that comes after it
  simp only [registry, Registry.registerAll, Registry.register, Registry.empty, allOf,
    List.foldl_cons, List.foldl_nil]
  rw [NameMap.insert_nil, NameMap.insert_of_lt hfunction,
    NameMap.insert_of_gt hskip, NameMap.insert_of_gt hexpression, NameMap.insert_nil,
    NameMap.insert_of_gt (String.lt_trans hskip hconversion),
    NameMap.insert_of_gt (String.lt_trans hexpression hconversion),
    NameMap.insert_of_gt hconversion, NameMap.insert_nil]
  rfl

/-- **There is a tool under each documented name, which takes the parameters that are documented,
and under no other.** -/
theorem find?_registry (calculator : Calculator) (name : String) :
    Option.Rel Takes ((registry calculator).find? name) (documented.get? name) := by
  unfold Registry.find?
  rw [tools_registry]
  exact NameMap.rel_get? (R := Takes)
    (.cons ⟨rfl, takes_applyFunction calculator⟩
      (.cons ⟨rfl, takes_evaluateExpression calculator⟩
        (.cons ⟨rfl, takes_convertUnits calculator⟩
          (.cons ⟨rfl, takes_listCatalogue⟩ .nil)))) name

/-! ### Calls -/

variable (calculator : Calculator) {name : String} {parameters : List Parameter}

theorem execute_of_undocumented (h : documented.get? name = none) (arguments : Json) :
    (registry calculator).execute name arguments = .error (.toolNotFound name) := by
  have hrel := find?_registry calculator name
  rw [h] at hrel
  unfold Registry.execute
  cases hfind : (registry calculator).find? name with
  | none => rfl
  | some tool =>
      rw [hfind] at hrel
      cases hrel

/-- A call under a documented name validates its arguments and computes the reply from their
values. -/
theorem execute_of_documented (h : documented.get? name = some parameters) :
    ∃ (shape : Shape) (perform : Row shape.fields → Json), shape.Demands parameters ∧
      ∀ arguments, (registry calculator).execute name arguments =
        (shape.validate arguments.orNone).map perform := by
  have hrel := find?_registry calculator name
  rw [h] at hrel
  unfold Registry.execute
  cases hfind : (registry calculator).find? name with
  | none =>
      rw [hfind] at hrel
      cases hrel
  | some tool =>
      rw [hfind] at hrel
      cases hrel with
      | some htakes => exact htakes

/-- **A call under a documented name is answered exactly if its arguments are not unfit.** -/
theorem exists_execute_eq_ok_iff (h : documented.get? name = some parameters) (arguments : Json) :
    (∃ reply, (registry calculator).execute name arguments = .ok reply) ↔
      ¬ Unfit parameters arguments.orNone := by
  obtain ⟨shape, perform, hdemands, hexecute⟩ := execute_of_documented calculator h
  rw [hexecute, Json.exists_map_ok_iff, ← not_unfit_iff hdemands]

/-- Such a call goes wrong in one way only. -/
theorem validation_of_execute (h : documented.get? name = some parameters) {arguments : Json}
    {failure : CallError} (hexecute : (registry calculator).execute name arguments =
      .error failure) : ∃ message, failure = .validation message := by
  obtain ⟨shape, perform, -, hrun⟩ := execute_of_documented calculator h
  rw [hrun] at hexecute
  cases hvalid : shape.validate arguments.orNone with
  | ok row => simp [hvalid, Except.map] at hexecute
  | error bad =>
      rw [hvalid] at hexecute
      cases hexecute
      exact Shape.validation_of_validate hvalid

/-- **Nothing but the parameters is looked at.** -/
theorem execute_congr (h : documented.get? name = some parameters) {members members' : NameMap Json}
    (hmembers : ∀ p ∈ parameters, members.get? p.name = members'.get? p.name) :
    (registry calculator).execute name (.object members) =
      (registry calculator).execute name (.object members') := by
  obtain ⟨shape, perform, ⟨rfl, -⟩, hexecute⟩ := execute_of_documented calculator h
  rw [List.forall_mem_map] at hmembers
  rw [hexecute, hexecute]
  simp only [Json.orNone_object, Shape.validate, Shape.arguments]
  rw [Json.readMembers_congr hmembers]

/-- **An answer depends on the doubles that its numbers mean, and not on how they are
written.** -/
theorem execute_of_alike (h : documented.get? name = some parameters)
    {members members' : NameMap Json} {reply : Json}
    (hmembers : ∀ p ∈ parameters,
      Option.Rel Json.Alike (members.get? p.name) (members'.get? p.name))
    (hreply : (registry calculator).execute name (.object members) = .ok reply) :
    (registry calculator).execute name (.object members') = .ok reply := by
  obtain ⟨shape, perform, ⟨rfl, -⟩, hexecute⟩ := execute_of_documented calculator h
  rw [List.forall_mem_map] at hmembers
  rw [hexecute] at hreply ⊢
  cases hvalid : shape.validate (Json.object members).orNone with
  | error bad => simp [hvalid, Except.map] at hreply
  | ok row =>
      have hread := Shape.validate_object_eq_ok_iff.mp hvalid
      have hvalid' := Shape.validate_object_eq_ok_iff.mpr (Json.readMembers_of_alike hmembers hread)
      rw [hvalid] at hreply
      rw [Json.orNone_object, hvalid', ← hreply]

/-- **Calls fail in the documented ways, and look at the documented parameters.**  Whatever is
called, with whatever arguments:

* the tool is not found exactly if its name is not documented;
* the arguments are not valid exactly if the name is documented and they, or no arguments where
  they are null, are unfit for its parameters;
* there is a reply in all other cases, and a call never ends otherwise;
* objects that agree on the parameters, also in lacking one, have the same outcome;
* a reply is the same where numbers are written in another way that means the same double. -/
theorem execute_by_parameters (calculator : Calculator) (name : String) :
    (∀ arguments other,
      (registry calculator).execute name arguments = .error (.toolNotFound other) ↔
        other = name ∧ name ∉ documented.names) ∧
    (∀ arguments,
      (∃ message, (registry calculator).execute name arguments = .error (.validation message)) ↔
        name ∈ documented.names ∧ Unfit (parametersOf name) arguments.orNone) ∧
    (∀ arguments,
      (∃ reply, (registry calculator).execute name arguments = .ok reply) ↔
        name ∈ documented.names ∧ ¬ Unfit (parametersOf name) arguments.orNone) ∧
    (∀ arguments fault,
      (registry calculator).execute name arguments ≠ .error (.serialization fault)) ∧
    (∀ members members' : NameMap Json,
      (∀ p ∈ parametersOf name, members.get? p.name = members'.get? p.name) →
        (registry calculator).execute name (.object members) =
          (registry calculator).execute name (.object members')) ∧
    ∀ (members members' : NameMap Json) (reply : Json),
      (∀ p ∈ parametersOf name,
        Option.Rel Json.Alike (members.get? p.name) (members'.get? p.name)) →
        (registry calculator).execute name (.object members) = .ok reply →
          (registry calculator).execute name (.object members') = .ok reply := by
  cases h : documented.get? name with
  | none =>
      have hexecute := execute_of_undocumented calculator h
      have hname : name ∉ documented.names := NameMap.get?_eq_none_iff.mp h
      simp [hexecute, hname, eq_comm]
  | some parameters =>
      have hname : name ∈ documented.names := by
        by_contra hname
        rw [NameMap.get?_eq_none_iff.mpr hname] at h
        cases h
      have hparameters : parametersOf name = parameters := by rw [parametersOf, h]; rfl
      have hok := exists_execute_eq_ok_iff calculator h
      rw [hparameters]
      refine ⟨fun arguments other => ⟨fun hfails => ?_, fun hother => absurd hname hother.2⟩,
        fun arguments => ⟨?_, ?_⟩, fun arguments => ?_, fun arguments fault hfails => ?_,
        fun members members' => execute_congr calculator h,
        fun members members' reply => execute_of_alike calculator h⟩
      · obtain ⟨message, hmessage⟩ := validation_of_execute calculator h hfails
        cases hmessage
      · rintro ⟨message, hfails⟩
        refine ⟨hname, ?_⟩
        by_contra hfit
        obtain ⟨reply, hreply⟩ := (hok arguments).mpr hfit
        rw [hfails] at hreply
        cases hreply
      · rintro ⟨-, hunfit⟩
        cases hexecute : (registry calculator).execute name arguments with
        | ok reply => exact absurd hunfit ((hok arguments).mp ⟨reply, hexecute⟩)
        | error failure =>
            obtain ⟨message, rfl⟩ := validation_of_execute calculator h hexecute
            exact ⟨message, rfl⟩
      · rw [hok arguments, and_iff_right hname]
      · obtain ⟨message, hmessage⟩ := validation_of_execute calculator h hfails
        cases hmessage

/-- Two is the same value in either of its writings, with a member that no tool knows or
without. -/
theorem execute_two_writings :
    ∃ reply,
      (registry ⟨⟨2024, 6, 1, 12, 0, 0, 0⟩⟩).execute "calculator_apply_scientific_function"
        (.object [("function_name", .string "abs"), ("value", .number (.natural 2))]) = .ok reply ∧
      (registry ⟨⟨2024, 6, 1, 12, 0, 0, 0⟩⟩).execute "calculator_apply_scientific_function"
        (.object [("extra", .null), ("function_name", .string "abs"),
          ("value", .number (.real 2.0))]) = .ok reply := by
  obtain ⟨-, -, hok, -, -, halike⟩ :=
    execute_by_parameters ⟨⟨2024, 6, 1, 12, 0, 0, 0⟩⟩ "calculator_apply_scientific_function"
  have hfit : ¬ Unfit (parametersOf "calculator_apply_scientific_function")
      (.object [("function_name", .string "abs"), ("value", .number (.natural 2))]) :=
    (@not_unfit_iff functionShape _ ⟨rfl, by simp [functionShape]⟩ _).mpr ⟨_, rfl⟩
  obtain ⟨reply, hreply⟩ := (hok (.object _)).mpr ⟨by decide, hfit⟩
  refine ⟨reply, hreply, halike _ _ reply ?_ hreply⟩
  rw [show parametersOf "calculator_apply_scientific_function" =
    [⟨"function_name", .text⟩, ⟨"value", .number⟩] from rfl]
  rw [List.forall_mem_cons, List.forall_mem_singleton]
  exact ⟨.some (.refl _), .some (.number (by decide +kernel))⟩

end Tool

end Reckoner
