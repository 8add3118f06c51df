import Reckoner.Proofs.Evaluation.Stages
import Reckoner.Proofs.Tools.Calls

/-!
# Tools — replies carry what was computed

Between what an engine computes and what a caller is told there are two records, the `Outcome` of
the calculator and the reply of the tool.  Both have their fields for results and their fields for
failures, and which of them count is told apart by one flag.  The flag and the fields agree
(`Outcome.Coherent`): that nothing fails without a message is where the engines come in
(`message_ne_empty_of_evaluateExpression`, `message_ne_empty_of_apply`).

**A reply is the result that was computed, or else the failure, and only results are dated**
(`execute_carries_computation`).
-/

namespace Reckoner

open CommandLine (registry)

/-! ### Failures have messages -/

theorem append_ne_empty {s : String} (h : s ≠ "") (t : String) : s ++ t ≠ "" := by
  simp [h]

/-- A failure has a message, unless it is one whose message is left to a function. -/
theorem Failure.message_ne_empty {failure : Failure}
    (h : ∀ function message, failure = .outsideDomain function message → message ≠ "") :
    failure.message ≠ "" := by
  cases failure with
  | outsideDomain function message => exact h function message rfl
  | unbalancedParentheses => exact (by decide : "Unbalanced parentheses" ≠ "")
  | divisionByZero | unknownFunction => exact append_ne_empty (by decide) _
  | consecutiveOperators => exact append_ne_empty (by decide) _
  | invalidCharacter | malformed | unsupportedConversion =>
      exact append_ne_empty (append_ne_empty (append_ne_empty (by decide) _) _) _

/-- An expression fails with a message, wherever it fails. -/
theorem message_ne_empty_of_evaluateExpression {expression : String} {failure : Failure}
    (h : evaluateExpression expression = .error failure) : failure.message ≠ "" := by
  refine Failure.message_ne_empty ?_
  rintro function message rfl
  obtain ⟨stage, hfails⟩ := evaluateExpression_eq_error_iff.mp h
  -- no stage of an evaluation leaves the message to a function
  cases hfails.arisesIn

theorem ScientificFunction.guard_message_ne_empty {f : ScientificFunction} (hf : f ∈ all)
    {guard : Guard} (h : f.guard = some guard) : guard.message ≠ "" := by
  have hall : ∀ f ∈ all, ∀ guard, f.guard = some guard → guard.message ≠ "" := by simp [all]
  exact hall f hf guard h

/-- A function fails with a message, its guard's or that there is no such function. -/
theorem message_ne_empty_of_apply {name : String} {x : Float} {failure : Failure}
    (h : ScientificFunction.apply name x = .error failure) : failure.message ≠ "" := by
  refine Failure.message_ne_empty ?_
  rintro function message rfl
  unfold ScientificFunction.apply at h
  cases hfind : ScientificFunction.find? name with
  | none =>
      rw [hfind] at h
      cases h
  | some f =>
      simp only [hfind, ScientificFunction.call] at h
      cases hguard : f.guard with
      | none =>
          rw [hguard] at h
          cases h
      | some guard =>
          simp only [hguard] at h
          split at h <;> cases h
          exact ScientificFunction.guard_message_ne_empty (List.mem_of_find?_eq_some hfind) hguard

/-- A conversion that there is goes by its rule and is called by it. -/
theorem convert_eq_ok_iff {x : Float} {source target : String} {conversion : Conversion} :
    convert x source target = .ok conversion ↔ ∃ rule,
      ConversionRule.find? source target = some rule ∧
        conversion = ⟨rule.convert x, rule.describe x⟩ := by
  unfold convert
  cases ConversionRule.find? source target <;> simp [eq_comm]

/-- A conversion fails with a message. -/
theorem message_ne_empty_of_convert {x : Float} {source target : String} {failure : Failure}
    (h : convert x source target = .error failure) : failure.message ≠ "" := by
  refine Failure.message_ne_empty ?_
  rintro function message rfl
  unfold convert at h
  split at h <;> cases h

/-! ### Outcomes -/

/-- The flag of an outcome and its fields for results and failures agree. -/
structure Outcome.Coherent (o : Outcome) : Prop where
  result       : o.success = true ↔ o.result ≠ none
  errorMessage : o.success = true ↔ o.errorMessage = ""
  errorCode    : o.success = true ↔ o.errorCode = none

/-- What an engine computed: a value and what was done, or a failure. -/
abbrev Computation : Type := Except Failure (Float × String)

/-- An outcome records a computation that `input` asked for, at some time. -/
inductive Outcome.Records (input stamp : String) : Computation → Outcome → Prop
  | result (x : Float) (operation : String) :
      Records input stamp (.ok (x, operation)) (.ofResult input operation stamp x)
  | failure {failure : Failure} (operation : String) (h : failure.message ≠ "") :
      Records input stamp (.error failure) (.ofFailure input operation stamp failure)

/-- The computation that an expression asks for. -/
def expressionComputation (expression : String) : Computation :=
  (evaluateExpression expression).map fun x => (x, "calculation")

/-- The computation that a call of a function asks for. -/
def functionComputation (name : String) (x : Float) : Computation :=
  (ScientificFunction.apply name x).map fun y => (y, "scientific_function")

/-- The computation that a conversion asks for. -/
def conversionComputation (x : Float) (source target : String) : Computation :=
  (convert x source target).map fun conversion => (conversion.value, conversion.label)

namespace Calculator

variable (calculator : Calculator)

theorem evaluate_records (expression : String) :
    (calculator.evaluate expression).Records expression calculator.now.stamp
      (expressionComputation expression) := by
  unfold evaluate expressionComputation
  cases h : evaluateExpression expression with
  | ok x => exact .result x "calculation"
  | error failure => exact .failure _ (message_ne_empty_of_evaluateExpression h)

theorem applyFunction_records (name : String) (x : Float) :
    (calculator.applyFunction name x).Records (name ++ "(" ++ Layout.plain.text x ++ ")")
      calculator.now.stamp (functionComputation name x) := by
  unfold applyFunction functionComputation
  cases h : ScientificFunction.apply name x with
  | ok y => exact .result y "scientific_function"
  | error failure => exact .failure _ (message_ne_empty_of_apply h)

theorem convertUnits_records (x : Float) (source target : String) :
    (calculator.convertUnits x source target).Records
      (Layout.plain.text x ++ " " ++ source ++ " to " ++ target) calculator.now.stamp
      (conversionComputation x source target) := by
  unfold convertUnits conversionComputation
  cases h : convert x source target with
  | ok conversion => exact .result conversion.value conversion.label
  | error failure => exact .failure _ (message_ne_empty_of_convert h)

end Calculator

/-- **A record of a computation is coherent.** -/
theorem Outcome.Records.coherent {input stamp : String} {computation : Computation} {o : Outcome}
    (h : o.Records input stamp computation) : o.Coherent := by
  cases h with
  | result x operation => exact ⟨by simp [ofResult], by simp [ofResult], by simp [ofResult]⟩
  | failure operation hmessage =>
      exact ⟨by simp [ofFailure], by simp [ofFailure, hmessage], by simp [ofFailure]⟩

theorem Outcome.Records.eq_ofResult {input stamp operation : String} {x : Float} {o : Outcome}
    (h : o.Records input stamp (.ok (x, operation))) :
    o = .ofResult input operation stamp x := by
  cases h
  rfl

theorem Outcome.Records.exists_eq_ofFailure {input stamp : String} {failure : Failure}
    {o : Outcome} (h : o.Records input stamp (.error failure)) :
    failure.message ≠ "" ∧ ∃ operation, o = .ofFailure input operation stamp failure := by
  cases h with
  | failure operation hmessage => exact ⟨hmessage, operation, rfl⟩

/-! ### Replies -/

/-- The reply that gives a result, in byte order of the names.  Its input is named by the kind of
tool, and there is no number for what is not finite. -/
def resultReply (inputName input operation stamp : String) (x : Float) : Json :=
  .object
    [("data", .object
      [(inputName, .string input),
       ("operation", .string operation),
       ("result", if Binary64.isFinite x then .number (.real x) else .null),
       ("timestamp", .string stamp)]),
     ("success", .bool true)]

/-- The reply that tells a failure, in byte order of the names. -/
def failureReply (failure : Failure) : Json :=
  .object
    [("code", .string failure.code),
     ("error", .string failure.message),
     ("success", .bool false)]

/-- The calls of a tool, one for each calculator, tell what was computed. -/
structure Carries (call : Calculator → Except CallError Json) (inputName input : String)
    (computation : Computation) : Prop where
  /-- there is a reply -/
  replies : ∀ calculator, ∃ reply, call calculator = .ok reply
  /-- and it has data exactly if there is a result, -/
  succeeds_iff : ∀ calculator,
    (∃ data, call calculator = .ok (.object [("data", data), ("success", .bool true)])) ↔
      ∃ result, computation = .ok result
  /-- which is the one that was computed. -/
  of_result : ∀ x operation, computation = .ok (x, operation) → ∀ calculator,
    call calculator = .ok (resultReply inputName input operation calculator.now.stamp x)
  /-- A failure is told by its message, and in the same way at any time. -/
  of_failure : ∀ failure, computation = .error failure → ∀ calculator,
    call calculator = .ok (failureReply failure) ∧ failure.message ≠ ""

/-- The names that tools have for their inputs. -/
def inputNames : List String :=
  ["expression", "function", "conversion"]

theorem reply_ofResult {inputName : String} (h : inputName ∈ inputNames)
    (input operation stamp : String) (x : Float) :
    Tool.reply inputName (.ofResult input operation stamp x) =
      resultReply inputName input operation stamp x := by
  simp only [inputNames, List.mem_cons, List.not_mem_nil, or_false] at h
  rcases h with rfl | rfl | rfl <;> rfl

theorem reply_ofFailure (inputName input operation stamp : String) (failure : Failure) :
    Tool.reply inputName (.ofFailure input operation stamp failure) = failureReply failure :=
  rfl

/-- **A tool that replies with the record of a computation carries it.** -/
theorem carries_of_records {call : Calculator → Except CallError Json} {inputName input : String}
    {computation : Computation} {outcome : Calculator → Outcome} (hname : inputName ∈ inputNames)
    (hcall : ∀ calculator, call calculator = .ok (Tool.reply inputName (outcome calculator)))
    (hrecords : ∀ calculator : Calculator,
      (outcome calculator).Records input calculator.now.stamp computation) :
    Carries call inputName input computation := by
  cases computation with
  | ok result =>
      obtain ⟨x, operation⟩ := result
      have hresult : ∀ calculator : Calculator,
          call calculator = .ok (resultReply inputName input operation calculator.now.stamp x) := by
        intro calculator
        rw [hcall, (hrecords calculator).eq_ofResult, reply_ofResult hname]
      refine ⟨fun calculator => ⟨_, hcall calculator⟩, fun calculator => ?_, ?_, nofun⟩
      · exact iff_of_true ⟨_, hresult calculator⟩ ⟨_, rfl⟩
      · rintro _ _ ⟨⟩
        exact hresult
  | error failure =>
      have hfailure : ∀ calculator,
          call calculator = .ok (failureReply failure) ∧ failure.message ≠ "" := by
        intro calculator
        obtain ⟨hmessage, operation, ho⟩ := (hrecords calculator).exists_eq_ofFailure
        rw [hcall, ho, reply_ofFailure]
        exact ⟨rfl, hmessage⟩
      refine ⟨fun calculator => ⟨_, hcall calculator⟩, fun calculator => ?_, nofun, ?_⟩
      · rw [(hfailure calculator).1]
        simp [failureReply]
      · rintro _ ⟨⟩
        exact hfailure

/-! ### Calls -/

section

variable (calculator : Calculator) {members : NameMap Json}

/-- A call of a tool by its name gives the reply that is computed from the values it reads. -/
theorem execute_of_readRow {name : String} {tool : Tool} {shape : Json.Shape}
    {perform : Json.Row shape.fields → Json} {row : Json.Row shape.fields}
    (hfind : (Tool.inNameOrder calculator).get? name = some tool)
    (hrun : ∀ j, tool.run j = (shape.validate j.orNone).map perform)
    (hrow : Json.readRow members shape.fields = .ok row) :
    (registry calculator).execute name (.object members) = .ok (perform row) := by
  rw [Registry.execute, Registry.find?, Tool.tools_registry, hfind]
  dsimp only
  rw [hrun, Json.orNone_object, Json.Shape.validate_object_of_readRow hrow]
  rfl

theorem execute_expression {expression : String}
    (h : members.get? "expression" = some (.string expression)) :
    (registry calculator).execute "calculator_calculate_expression" (.object members) =
      .ok (Tool.reply "expression" (calculator.evaluate expression)) := by
  have hrow : Json.readRow members Tool.expressionShape.fields = .ok (expression, ()) :=
    Json.readRow_cons_of_get? h rfl rfl
  rw [execute_of_readRow calculator rfl (Tool.run_evaluateExpression calculator) hrow]

theorem execute_function {name : String} {n : JsonNumber}
    (hname : members.get? "function_name" = some (.string name))
    (hvalue : members.get? "value" = some (.number n)) :
    (registry calculator).execute "calculator_apply_scientific_function" (.object members) =
      .ok (Tool.reply "function" (calculator.applyFunction name n.toFloat)) := by
  have hrow : Json.readRow members Tool.functionShape.fields = .ok (name, n.toFloat, ()) :=
    Json.readRow_cons_of_get? hname rfl (Json.readRow_cons_of_get? hvalue rfl rfl)
  rw [execute_of_readRow calculator rfl (Tool.run_applyFunction calculator) hrow]

theorem execute_conversion {n : JsonNumber} {source target : String}
    (hvalue : members.get? "value" = some (.number n))
    (hsource : members.get? "from_unit" = some (.string source))
    (htarget : members.get? "to_unit" = some (.string target)) :
    (registry calculator).execute "calculator_convert_units" (.object members) =
      .ok (Tool.reply "conversion" (calculator.convertUnits n.toFloat source target)) := by
  have hrow : Json.readRow members Tool.conversionShape.fields =
      .ok (n.toFloat, source, target, ()) :=
    Json.readRow_cons_of_get? hvalue rfl
      (Json.readRow_cons_of_get? hsource rfl (Json.readRow_cons_of_get? htarget rfl rfl))
  rw [execute_of_readRow calculator rfl (Tool.run_convertUnits calculator) hrow]

end

/-- **Replies carry exactly what was computed.**  With arguments of the right kinds there is always
a reply.  It has data exactly if the expression, the function or the conversion has a result: the
input as it was asked for, the result, what was done and the time of the calculator; and what is
done in a conversion is what its rule says.  Else it has the message of the failure, which is not
empty, and its code, and does not depend on the calculator.  What the calculator itself records is
coherent. -/
theorem execute_carries_computation :
    (∀ (members : NameMap Json) (expression : String),
      members.get? "expression" = some (.string expression) →
        Carries (fun calculator => (registry calculator).execute
            "calculator_calculate_expression" (.object members))
          "expression" expression (expressionComputation expression)) ∧
    (∀ (members : NameMap Json) (name : String) (n : JsonNumber),
      members.get? "function_name" = some (.string name) →
      members.get? "value" = some (.number n) →
        Carries (fun calculator => (registry calculator).execute
            "calculator_apply_scientific_function" (.object members))
          "function" (name ++ "(" ++ Layout.plain.text n.toFloat ++ ")")
          (functionComputation name n.toFloat)) ∧
    (∀ (members : NameMap Json) (n : JsonNumber) (source target : String),
      members.get? "value" = some (.number n) →
      members.get? "from_unit" = some (.string source) →
      members.get? "to_unit" = some (.string target) →
        Carries (fun calculator => (registry calculator).execute
            "calculator_convert_units" (.object members))
          "conversion" (Layout.plain.text n.toFloat ++ " " ++ source ++ " to " ++ target)
          (conversionComputation n.toFloat source target)) ∧
    (∀ (x : Float) (source target operation : String) (y : Float),
      conversionComputation x source target = .ok (y, operation) → ∃ rule,
        ConversionRule.find? source target = some rule ∧ operation = rule.describe x) ∧
    ∀ calculator : Calculator,
      (∀ expression, (calculator.evaluate expression).Coherent) ∧
      (∀ name x, (calculator.applyFunction name x).Coherent) ∧
      ∀ x source target, (calculator.convertUnits x source target).Coherent := by
  refine ⟨fun members expression h => ?_, fun members name n hname hvalue => ?_,
    fun members n source target hvalue hsource htarget => ?_,
    fun x source target operation y h => ?_, fun calculator => ⟨fun expression => ?_,
      fun name x => ?_, fun x source target => ?_⟩⟩
  · exact carries_of_records (by decide) (fun calculator => execute_expression calculator h)
      fun calculator => calculator.evaluate_records expression
  · exact carries_of_records (by decide)
      (fun calculator => execute_function calculator hname hvalue)
      fun calculator => calculator.applyFunction_records name n.toFloat
  · exact carries_of_records (by decide)
      (fun calculator => execute_conversion calculator hvalue hsource htarget)
      fun calculator => calculator.convertUnits_records n.toFloat source target
  · unfold conversionComputation at h
    cases hconvert : convert x source target with
    | error failure =>
        rw [hconvert] at h
        cases h
    | ok conversion =>
        obtain ⟨rule, hrule, rfl⟩ := convert_eq_ok_iff.mp hconvert
        rw [hconvert] at h
        cases h
        exact ⟨rule, hrule, rfl⟩
  · exact (calculator.evaluate_records expression).coherent
  · exact (calculator.applyFunction_records name x).coherent
  · exact (calculator.convertUnits_records x source target).coherent

/-- A function with a result, and one that there is not. -/
theorem execute_abs_and_unknown :
    (registry ⟨⟨2024, 6, 1, 12, 0, 0, 0⟩⟩).execute "calculator_apply_scientific_function"
        (.object [("function_name", .string "abs"), ("value", .number (.natural 4))]) =
      .ok (.object
        [("data", .object
          [("function", .string "abs(4)"),
           ("operation", .string "scientific_function"),
           ("result", .number (.real 4.0)),
           ("timestamp", .string "2024-06-01 12:00:00")]),
         ("success", .bool true)]) ∧
    (registry ⟨⟨2024, 6, 1, 12, 0, 0, 0⟩⟩).execute "calculator_apply_scientific_function"
        (.object [("function_name", .string "gamma"), ("value", .number (.natural 4))]) =
      .ok (.object
        [("code", .string "UNKNOWN_FUNCTION"),
         ("error", .string "Unknown function: gamma"),
         ("success", .bool false)]) := by
  obtain ⟨-, hfunction, -⟩ := execute_carries_computation
  have habs := (hfunction [("function_name", .string "abs"), ("value", .number (.natural 4))]
    "abs" (.natural 4) rfl rfl).of_result 4.0 "scientific_function" (by decide +kernel)
  have hgamma := (hfunction [("function_name", .string "gamma"), ("value", .number (.natural 4))]
    "gamma" (.natural 4) rfl rfl).of_failure (.unknownFunction "gamma") rfl
  have hinput : "abs" ++ "(" ++ Layout.plain.text (JsonNumber.natural 4).toFloat ++ ")" =
      "abs(4)" := by decide +kernel
  have hfinite : Binary64.isFinite 4.0 = true := by decide +kernel
  rw [hinput] at habs
  refine ⟨(habs _).trans ?_, (hgamma _).1⟩
  rw [resultReply, if_pos hfinite]
  rfl

end Reckoner
