import Mathlib.Logic.Relation
import Reckoner.Expr.Value

/-!
# Lexing — spellings of one expression

An expression may be written with blanks anywhere, and with three signs in place of their ASCII
spellings.  One `Edit` puts in a blank or such a sign, at any place, be it within a literal or
between two stars; texts are respellings of each other if edits, made and unmade, lead from one to
the other.

**Two texts are respellings of each other exactly if they have one normal form**
(`Text.respelling_iff`): what `normalize` forgets is the spelling and nothing else.  All that is
done to an expression is done to its normal form (`Token.tokenize_congr`,
`evaluateExpression_congr`).
**So respelling changes neither the tokens, nor their places, nor the value or the failure**
(`respelling_invariant`).
-/

namespace Reckoner

open Relation (EqvGen)

namespace Text

/-! ### The normal form -/

theorem normalize_cons (c : Char) (s : List Char) :
    normalize (c :: s) = plainSpelling c ++ normalize s :=
  List.flatMap_cons

/-- A character is left out, or stands for itself, or is one of the three signs. -/
theorem plainSpelling_cases (c : Char) :
    (isBlank c = true ∧ plainSpelling c = []) ∨ plainSpelling c = [c] ∨
      (c = '×' ∧ plainSpelling c = ['*']) ∨ (c = '÷' ∧ plainSpelling c = ['/']) ∨
      (c = '^' ∧ plainSpelling c = ['*', '*']) := by
  unfold plainSpelling
  split
  · rename_i hblank
    exact .inl ⟨hblank, rfl⟩
  · split <;> simp

/-- What stands for a character stands for itself. -/
theorem normalize_plainSpelling (c : Char) : normalize (plainSpelling c) = plainSpelling c := by
  rcases plainSpelling_cases c with ⟨-, h⟩ | h | ⟨-, h⟩ | ⟨-, h⟩ | ⟨-, h⟩
  · rw [h, normalize_nil]
  · rw [h, normalize_cons, h, normalize_nil, List.append_nil]
  all_goals
    rw [h]
    decide

/-- A normal form is in normal form. -/
theorem normalize_normalize (s : List Char) : normalize (normalize s) = normalize s := by
  induction s with
  | nil => rfl
  | cons c s ih => rw [normalize_cons, normalize_append, normalize_plainSpelling, ih]

/-! ### Edits -/

/-- Putting in a blank, or a sign for its ASCII spelling. -/
inductive Edit : List Char → List Char → Prop where
  | blank (front : List Char) {c : Char} (h : isBlank c = true) (behind : List Char) :
      Edit (front ++ behind) (front ++ c :: behind)
  | times (front behind : List Char) : Edit (front ++ '*' :: behind) (front ++ '×' :: behind)
  | divide (front behind : List Char) : Edit (front ++ '/' :: behind) (front ++ '÷' :: behind)
  | power (front behind : List Char) :
      Edit (front ++ '*' :: '*' :: behind) (front ++ '^' :: behind)

/-- An edit keeps the normal form. -/
theorem Edit.normalize_eq {s t : List Char} (h : Edit s t) : normalize s = normalize t := by
  have hspellings : plainSpelling '*' = ['*'] ∧ plainSpelling '/' = ['/'] ∧
      plainSpelling '×' = ['*'] ∧ plainSpelling '÷' = ['/'] ∧ plainSpelling '^' = ['*', '*'] := by
    decide
  obtain ⟨hstar, hslash, htimes, hdivide, hcaret⟩ := hspellings
  cases h with
  | blank front h behind => simp [normalize_cons, plainSpelling, h]
  | times front behind => simp [normalize_cons, hstar, htimes]
  | divide front behind => simp [normalize_cons, hslash, hdivide]
  | power front behind => simp [normalize_cons, hstar, hcaret]

/-- An edit may be made behind any text. -/
theorem Edit.append_left (front : List Char) {s t : List Char} (h : Edit s t) :
    Edit (front ++ s) (front ++ t) := by
  cases h with
  | blank between h behind =>
      rw [← List.append_assoc, ← List.append_assoc]
      exact .blank _ h behind
  | times between behind =>
      rw [← List.append_assoc, ← List.append_assoc]
      exact .times _ behind
  | divide between behind =>
      rw [← List.append_assoc, ← List.append_assoc]
      exact .divide _ behind
  | power between behind =>
      rw [← List.append_assoc, ← List.append_assoc]
      exact .power _ behind

/-! ### Respellings -/

theorem respelling_append_left (front : List Char) {s t : List Char} (h : EqvGen Edit s t) :
    EqvGen Edit (front ++ s) (front ++ t) := by
  induction h with
  | rel s t h => exact .rel _ _ (h.append_left front)
  | refl s => exact .refl _
  | symm s t _ ih => exact ih.symm
  | trans s t u _ _ ih ih' => exact ih.trans _ _ _ ih'

/-- The first character of a text may be spelled out. -/
theorem respelling_plainSpelling (c : Char) (s : List Char) :
    EqvGen Edit (plainSpelling c ++ s) (c :: s) := by
  rcases plainSpelling_cases c with ⟨hblank, h⟩ | h | ⟨rfl, h⟩ | ⟨rfl, h⟩ | ⟨rfl, h⟩ <;> rw [h]
  · exact .rel _ _ (.blank [] hblank s)
  · exact .refl _
  · exact .rel _ _ (.times [] s)
  · exact .rel _ _ (.divide [] s)
  · exact .rel _ _ (.power [] s)

/-- A text is a respelling of its normal form. -/
theorem respelling_normalize (s : List Char) : EqvGen Edit (normalize s) s := by
  induction s with
  | nil => exact .refl _
  | cons c s ih =>
      rw [normalize_cons]
      exact (respelling_append_left (plainSpelling c) ih).trans _ _ _ (respelling_plainSpelling c s)

/-- **Texts are respellings of each other exactly if they have one normal form.** -/
theorem respelling_iff {s t : List Char} : EqvGen Edit s t ↔ normalize s = normalize t := by
  constructor
  · intro h
    induction h with
    | rel s t h => exact h.normalize_eq
    | refl s => rfl
    | symm s t _ ih => exact ih.symm
    | trans s t u _ _ ih ih' => exact ih.trans ih'
  · intro h
    have ht := respelling_normalize t
    rw [← h] at ht
    exact (respelling_normalize s).symm.trans _ _ _ ht

end Text

/-! ### What is done to a text -/

/-- Tokens come from the normal form. -/
theorem Token.tokenize_congr {expression other : String}
    (h : Text.normalize expression.toList = Text.normalize other.toList) :
    tokenize expression = tokenize other := by
  unfold tokenize tokenizeChars
  rw [h]

/-- The value comes from the tokens. -/
theorem evaluateExpression_congr {expression other : String}
    (h : Token.tokenize expression = Token.tokenize other) :
    evaluateExpression expression = evaluateExpression other := by
  unfold evaluateExpression
  rw [h]

/-- **The spelling of an expression does not matter.**  Normalizing goes part by part and is done
once for all; texts with one normal form are those that blanks and signs lead from one to the
other; and then they have the same tokens at the same places, or the same fault in splitting them,
and the same value or failure. -/
theorem respelling_invariant :
    (∀ a b : String, Text.normalize (a ++ b).toList =
      Text.normalize a.toList ++ Text.normalize b.toList) ∧
    (∀ s, Text.normalize (Text.normalize s) = Text.normalize s) ∧
    (∀ s t, EqvGen Text.Edit s t ↔ Text.normalize s = Text.normalize t) ∧
    ∀ expression other : String, EqvGen Text.Edit expression.toList other.toList →
      Token.tokenize expression = Token.tokenize other ∧
        evaluateExpression expression = evaluateExpression other := by
  refine ⟨fun a b => ?_, Text.normalize_normalize, fun _ _ => Text.respelling_iff,
    fun expression other h => ?_⟩
  · rw [String.toList_append, Text.normalize_append]
  · have htokens := Token.tokenize_congr (Text.respelling_iff.mp h)
    exact ⟨htokens, evaluateExpression_congr htokens⟩

/-- A blank within a literal and one within the sign of the power, and the power by its other sign:
`2 5* *3÷0` and `25^3/0` have the same tokens, and fail alike. -/
theorem respelling_within_lexemes :
    EqvGen Text.Edit "2 5* *3÷0".toList "25^3/0".toList ∧
    Token.tokenize "2 5* *3÷0" = Token.tokenize "25^3/0" ∧
      evaluateExpression "2 5* *3÷0" = evaluateExpression "25^3/0" := by
  have hblank : EqvGen Text.Edit "25* *3÷0".toList "2 5* *3÷0".toList :=
    .rel _ _ (.blank ['2'] (c := ' ') (by decide) "5* *3÷0".toList)
  have hstars : EqvGen Text.Edit "25**3÷0".toList "25* *3÷0".toList :=
    .rel _ _ (.blank "25*".toList (c := ' ') (by decide) "*3÷0".toList)
  have hpower : EqvGen Text.Edit "25**3÷0".toList "25^3÷0".toList :=
    .rel _ _ (.power "25".toList "3÷0".toList)
  have hdivide : EqvGen Text.Edit "25^3/0".toList "25^3÷0".toList :=
    .rel _ _ (.divide "25^3".toList ['0'])
  have h := ((hstars.trans _ _ _ hblank).symm.trans _ _ _ hpower).trans _ _ _ hdivide.symm
  exact ⟨h, respelling_invariant.2.2.2 _ _ h⟩

end Reckoner
