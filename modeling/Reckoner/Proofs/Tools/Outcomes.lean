import Reckoner.Proofs.Json.ReadBack
import Reckoner.Proofs.NameMaps
import Reckoner.Proofs.Tools.Replies

/-!
# Outcomes — what is read back

An outcome is written as an object of its members, without a code where there is no failure and with
null for a result that is not finite.  The code is supplied again where it was left out, but the
null is read as no result: `Outcome.finite` is what is read back of any outcome
(`Outcome.ofJson_toJson`), and a text of the outcome comes to the same object however its members
are ordered and spaced (`Outcome.Text.read`).

A function can have an infinite value and an expression one that is not a number, both of them
results.  So **what a calculator gives is read back as it was exactly if its result, if it has one,
is finite** (`Calculator.Gives.reads_back`).
-/

namespace Reckoner

theorem Json.Shape.read_object_of_readRow {shape : Shape} {members : NameMap Json}
    {row : Row shape.fields} (h : readRow members shape.fields = .ok row) :
    shape.read (.object members) = .ok row := by
  rw [Shape.read, readMembers_eq_ok_iff.mpr h, mapError_ok]

namespace Outcome

/-- The members of an outcome as they are declared; the code of a failure only where there is
one. -/
def members (o : Outcome) : List (String × Json) :=
  [("expression", .string o.expression),
   ("result", .ofOption .ofFloat o.result),
   ("operation", .string o.operation),
   ("timestamp", .string o.timestamp),
   ("success", .bool o.success),
   ("error_message", .string o.errorMessage)] ++
  (o.errorCode.map fun code => ("error_code", Json.string code)).toList

/-- An outcome without its result, if that is not finite. -/
def finite (o : Outcome) : Outcome :=
  { o with result := o.result.filter Binary64.isFinite }

variable (o : Outcome)

theorem toJson_eq_ofMembers : o.toJson = .ofMembers o.members := by
  unfold toJson members
  cases o.errorCode <;> rfl

theorem finite_eq_self_iff :
    o.finite = o ↔ ∀ x, o.result = some x → Binary64.isFinite x = true := by
  obtain ⟨_, result, _⟩ := o
  cases result with
  | none => simp [finite]
  | some x => simp [finite, Option.filter]

/-- A result is read back if it is finite. -/
theorem read_result (result : Option Float) :
    (Json.Kind.optional .number).read (.ofOption .ofFloat result) =
      .ok (result.filter Binary64.isFinite) := by
  cases result with
  | none => rfl
  | some x =>
      rw [Json.ofOption, Json.ofFloat, Option.filter]
      split <;> rfl

theorem nodup_names_members : (o.members.map (·.1)).Nodup := by
  unfold members
  cases o.errorCode <;> simp

/-- The members of an outcome give back its parts, the result if it is finite. -/
theorem readRow_members : Json.readRow (NameMap.ofList o.members) shape.fields =
    .ok (o.expression, o.finite.result, o.operation, o.timestamp, o.success, o.errorMessage,
      o.errorCode, ()) := by
  obtain ⟨expression, result, operation, timestamp, success, errorMessage, errorCode⟩ := o
  cases errorCode
  all_goals
    refine Json.readRow_cons_of_get? rfl rfl ?_
    refine Json.readRow_cons_of_get? rfl (read_result result) ?_
    refine Json.readRow_cons_of_get? rfl rfl (Json.readRow_cons_of_get? rfl rfl ?_)
    refine Json.readRow_cons_of_get? rfl rfl (Json.readRow_cons_of_get? rfl rfl ?_)
    exact Json.readRow_cons_eq_ok_iff.mpr ⟨rfl, rfl⟩

/-- **An outcome is read back from its JSON object**, but for a result that is not finite. -/
theorem ofJson_toJson : ofJson o.toJson = .ok o.finite := by
  rw [ofJson, toJson_eq_ofMembers, Json.ofMembers,
    Json.Shape.read_object_of_readRow o.readRow_members]
  rfl

/-! ### Texts -/

/-- A text of an outcome: the object of its members, in any order and with any blanks between
them. -/
inductive Text : String → Prop where
  | intro {members : List (String × Json)} {style : Json.Style} (hperm : members.Perm o.members)
      (hstyle : ∀ depth, (style depth).Blank) : Text ((Json.object members).write style 0 "")

/-- A finite result is read back from its own text. -/
def Survives : Prop :=
  ∀ x, o.result = some x → Binary64.isFinite x = true →
    Json.read (JsonNumber.real x).text = .ok (.number (.real x))

/-- What the members of an outcome can be: none has parts, and the result is the only number. -/
theorem member_cases {member : String × Json} (h : member ∈ o.members) :
    (∃ s, member.2 = .string s) ∨ (∃ b, member.2 = .bool b) ∨ member.2 = .null ∨
      ∃ x, o.result = some x ∧ Binary64.isFinite x = true ∧ member.2 = .number (.real x) := by
  have hresult : Json.ofOption .ofFloat o.result = .null ∨
      ∃ x, o.result = some x ∧ Binary64.isFinite x = true ∧
        Json.ofOption .ofFloat o.result = .number (.real x) := by
    cases o.result with
    | none => exact .inl rfl
    | some x =>
        rw [Json.ofOption, Json.ofFloat]
        split
        · exact .inr ⟨x, rfl, ‹_›, rfl⟩
        · exact .inl rfl
  rcases List.mem_append.mp h with h | h
  · simp only [List.mem_cons, List.not_mem_nil, or_false] at h
    rcases h with rfl | rfl | rfl | rfl | rfl | rfl
    case inr.inl => exact .inr (.inr hresult)
    case inr.inr.inr.inr.inl => exact .inr (.inl ⟨_, rfl⟩)
    all_goals exact .inl ⟨_, rfl⟩
  · obtain ⟨code, -, rfl⟩ := Option.map_eq_some_iff.mp (Option.mem_toList.mp h)
    exact .inl ⟨code, rfl⟩

theorem normal_member {member : String × Json} (h : member ∈ o.members) :
    member.2.normal = member.2 := by
  obtain ⟨s, h⟩ | ⟨b, h⟩ | h | ⟨x, -, -, h⟩ := o.member_cases h <;> rw [h] <;> rfl

theorem faithful_member (hsurvives : o.Survives) {room : Nat} {member : String × Json}
    (h : member ∈ o.members) : member.2.Faithful room := by
  obtain ⟨s, h⟩ | ⟨b, h⟩ | h | ⟨x, hx, hfinite, h⟩ := o.member_cases h <;> rw [h]
  · exact .string s
  · exact .bool b
  · exact .null
  · exact .number (hsurvives x hx hfinite)

/-- **A text of an outcome is read as its JSON object.** -/
theorem Text.read {o : Outcome} {text : String} (h : o.Text text) (hsurvives : o.Survives) :
    Json.read text = .ok o.toJson := by
  obtain ⟨hperm, hstyle⟩ := h
  rename_i members style
  have hmem : ∀ member ∈ members, member ∈ o.members := fun _ => hperm.mem_iff.mp
  have hfaithful : (Json.object members).Faithful Json.nestingRoom :=
    .object fun member h => o.faithful_member hsurvives (hmem member h)
  have hnormal : members.map (fun member => (member.1, member.2.normal)) = members := by
    refine (List.map_congr_left fun member h => ?_).trans (List.map_id members)
    rw [o.normal_member (hmem member h)]
    rfl
  rw [Json.read_write hstyle hfaithful, Json.normal_object, hnormal, toJson_eq_ofMembers,
    Json.ofMembers, Json.ofMembers,
    NameMap.ofList_eq_of_perm hperm ((hperm.map _).nodup_iff.mpr o.nodup_names_members)]

theorem text_write {style : Json.Style} (hstyle : ∀ depth, (style depth).Blank) :
    o.Text (o.toJson.write style 0 "") := by
  rw [toJson_eq_ofMembers]
  exact .intro (NameMap.ofList_perm o.nodup_names_members) hstyle

end Outcome

/-! ### What a calculator gives -/

/-- The outcomes of a calculator, of any computation with any input. -/
inductive Calculator.Gives (calculator : Calculator) : Outcome → Prop where
  | evaluate (expression : String) : Gives calculator (calculator.evaluate expression)
  | applyFunction (name : String) (x : Float) :
      Gives calculator (calculator.applyFunction name x)
  | convertUnits (x : Float) (source target : String) :
      Gives calculator (calculator.convertUnits x source target)

theorem Calculator.Gives.coherent {calculator : Calculator} {o : Outcome}
    (h : calculator.Gives o) : o.Coherent := by
  cases h with
  | evaluate expression => exact (calculator.evaluate_records expression).coherent
  | applyFunction name x => exact (calculator.applyFunction_records name x).coherent
  | convertUnits x source target => exact (calculator.convertUnits_records x source target).coherent

/-- **What a calculator gives is read back, but for results that are not finite.**  Such a result
is taken for none, and nothing else changes; so an outcome is read back as it was exactly if its
result, if it has one, is finite.  A success is read back with a result exactly if that is finite,
and a failure is always read back.  The outcome may be handed on as a text, with its members in any
order and any blanks between them, if the text of its number is read as that number. -/
theorem Calculator.Gives.reads_back {calculator : Calculator} {o : Outcome}
    (h : calculator.Gives o) :
    Outcome.ofJson o.toJson = .ok o.finite ∧
    (Outcome.ofJson o.toJson = .ok o ↔ ∀ x, o.result = some x → Binary64.isFinite x = true) ∧
    (o.success = true → ∃ x, o.result = some x ∧ ∀ back, Outcome.ofJson o.toJson = .ok back →
      (back.result.isSome = true ↔ Binary64.isFinite x = true)) ∧
    (o.success = false → Outcome.ofJson o.toJson = .ok o) ∧
    ∀ text, o.Text text → o.Survives → Json.read text = .ok o.toJson := by
  have hself : Outcome.ofJson o.toJson = .ok o ↔
      ∀ x, o.result = some x → Binary64.isFinite x = true := by
    rw [o.ofJson_toJson, Except.ok.injEq, o.finite_eq_self_iff]
  refine ⟨o.ofJson_toJson, hself, fun hsuccess => ?_, fun hfailure => ?_,
    fun text htext => htext.read⟩
  · obtain ⟨x, hx⟩ := Option.ne_none_iff_exists'.mp (h.coherent.result.mp hsuccess)
    refine ⟨x, hx, fun back hback => ?_⟩
    rw [o.ofJson_toJson] at hback
    cases hback
    simp [Outcome.finite, hx]
  · refine hself.mpr fun x hx => ?_
    have hsuccess : o.success = true := h.coherent.result.mpr (by simp [hx])
    rw [hfailure] at hsuccess
    cases hsuccess

/-- An outcome that is read back, also from its text. -/
theorem Calculator.reads_back_abs :
    let o := (⟨⟨2024, 6, 1, 12, 0, 0, 0⟩⟩ : Calculator).applyFunction "abs" 4
    Outcome.ofJson o.toJson = .ok o ∧ Json.read o.toJson.compact = .ok o.toJson := by
  intro o
  have hresult : o.result = some 4.0 := by decide +kernel
  obtain ⟨-, hself, -, -, htext⟩ := (Calculator.Gives.applyFunction "abs" 4).reads_back
  have hread : Json.read (JsonNumber.real 4.0).text = .ok (.number (.real 4.0)) := by
    have hnumber : Json.unsigned false ['4', '.', '0'] = .ok (.real 4.0, []) := by
      have hscaled : Json.Scaled.toFloat? false ⟨40, -1⟩ = some 4.0 := by decide +kernel
      show Json.real false ⟨40, -1⟩ [] = _
      rw [Json.real, hscaled]
    exact Json.read_of_unsigned (by decide +kernel) rfl hnumber
  refine ⟨hself.mpr fun x hx => ?_, htext _ (o.text_write Json.compactStyle_blank) ?_⟩
  · cases hresult.symm.trans hx
    decide +kernel
  · intro x hx _
    cases hresult.symm.trans hx
    exact hread

/-- An outcome that is not read back: a factorial so large that it is infinite. -/
theorem Calculator.not_reads_back_infinity :
    let calculator : Calculator := ⟨⟨2024, 6, 1, 12, 0, 0, 0⟩⟩
    let o := calculator.applyFunction "factorial" 171
    calculator.Gives o ∧ o.success = true ∧ o.result = some Binary64.infinity ∧
      Outcome.ofJson o.toJson = .ok { o with result := none } ∧
      Outcome.ofJson o.toJson ≠ .ok o := by
  intro calculator o
  have hresult : o.result = some Binary64.infinity := by decide +kernel
  have hfinite : Binary64.isFinite Binary64.infinity = false := by decide +kernel
  have hback : Outcome.ofJson o.toJson = .ok { o with result := none } := by
    rw [o.ofJson_toJson, Outcome.finite, hresult, Option.filter, if_neg (by simp [hfinite])]
  refine ⟨.applyFunction "factorial" 171, by decide +kernel, hresult, hback, ?_⟩
  rw [hback]
  intro h
  rw [← Except.ok.inj h] at hresult
  cases hresult

end Reckoner
