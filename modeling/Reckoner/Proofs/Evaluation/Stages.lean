import Reckoner.Calculator
import Reckoner.Proofs.Evaluation.ZeroDivision
import Reckoner.Proofs.Grammar.Faults
import Reckoner.Proofs.Lexing.Outcome

/-!
# Evaluation — the stage in which an expression fails

An expression is split into tokens, these are read as a tree, and the tree is computed; the first
stage that fails decides the failure (`evaluateExpression_eq_error_iff`).  Each stage has failures
of its own: complaints are shared by two of them, but that of a bare point is made of texts alone,
and no other complaint is (`FailsIn.arisesIn`, `Failure.ArisesIn.unique`).  So a failure tells in
which stage it arose.

What `Failure.isValidation` counts among the failures of the first stage is all of them but one.
**An outcome is labelled a validation exactly if its text is not split into tokens for another
reason than a bare point** (`operation_eq_validation_iff`): `1 + .` fails in the first stage, and is
labelled a calculation (`operation_of_bare_point`).
-/

namespace Reckoner

/-! ### Stages -/

/-- The stages of an evaluation. -/
inductive Stage where
  | splitting
  | reading
  | computing
  deriving DecidableEq

/-- An expression passes the stages before one of them, and fails there. -/
inductive FailsIn (expression : String) : Stage → Failure → Prop where
  | splitting {failure : Failure} (h : Token.tokenize expression = .error failure) :
      FailsIn expression .splitting failure
  | reading {tokens : List PlacedToken} {failure : Failure}
      (htokens : Token.tokenize expression = .ok tokens)
      (h : Expr.ofTokens tokens = .error failure) : FailsIn expression .reading failure
  | computing {tokens : List PlacedToken} {e : Expr} {failure : Failure}
      (htokens : Token.tokenize expression = .ok tokens) (he : Expr.ofTokens tokens = .ok e)
      (h : e.evaluate = .error failure) : FailsIn expression .computing failure

/-- **An evaluation fails as the stage in which it fails.** -/
theorem evaluateExpression_eq_error_iff {expression : String} {failure : Failure} :
    evaluateExpression expression = .error failure ↔ ∃ stage, FailsIn expression stage failure := by
  rw [evaluateExpression]
  constructor
  · intro h
    cases htokens : Token.tokenize expression with
    | error failure' =>
        rw [htokens] at h
        cases h
        exact ⟨_, .splitting htokens⟩
    | ok tokens =>
        cases he : Expr.ofTokens tokens with
        | error failure' =>
            simp only [htokens, he, bind, Except.bind] at h
            cases h
            exact ⟨_, .reading htokens he⟩
        | ok e =>
            simp only [htokens, he, bind, Except.bind] at h
            exact ⟨_, .computing htokens he h⟩
  · rintro ⟨stage, h⟩
    cases h with
    | splitting h => rw [h]; rfl
    | reading htokens h => rw [htokens]; simp [bind, Except.bind, h]
    | computing htokens he h => rw [htokens]; simp [bind, Except.bind, he, h]

/-! ### The failures of a stage -/

/-- What an expression can fail for in a stage. -/
inductive Failure.ArisesIn : Stage → Failure → Prop where
  | unbalanced : ArisesIn .splitting .unbalancedParentheses
  | stray {c : Char} (hc : c ≠ '.') (position : Nat) :
      ArisesIn .splitting (.invalidCharacter c position)
  | barePoint (position : Nat) : ArisesIn .splitting (.malformed .barePoint position)
  | operators (position : Nat) : ArisesIn .splitting (.consecutiveOperators position)
  | complaint {complaint : Complaint} (h : complaint ≠ .barePoint) (position : Nat) :
      ArisesIn .reading (.malformed complaint position)
  | zero {operation : String} (h : ∃ op : Operator, op.divides = true ∧ op.name = operation) :
      ArisesIn .computing (.divisionByZero operation)

/-- A failure arises in one stage only. -/
theorem Failure.ArisesIn.unique {failure : Failure} {stage stage' : Stage}
    (h : failure.ArisesIn stage) (h' : failure.ArisesIn stage') : stage = stage' := by
  cases h with
  | unbalanced | stray | operators | zero =>
      cases h'
      rfl
  | barePoint =>
      cases h' with
      | barePoint => rfl
      | complaint hne => exact absurd rfl hne
  | complaint hne =>
      cases h' with
      | barePoint => exact absurd rfl hne
      | complaint => rfl

/-- The outcome of splitting a text shows its faults. -/
theorem Token.arisesIn_of_tokenize {expression : String} {failure : Failure}
    (h : tokenize expression = .error failure) : failure.ArisesIn .splitting := by
  have houtcome := outcome_tokenizeChars expression.toList
  rw [← tokenize, h] at houtcome
  cases houtcome with
  | unbalanced => exact .unbalanced
  | stray _ _ _ _ hc => exact .stray hc _
  | barePoint => exact .barePoint _
  | operators => exact .operators _

/-- No reader of tokens complains of a point. -/
theorem Objection.ne_barePoint {stop position : Nat} {o : Outlook} {tokens : List PlacedToken}
    {complaint : Complaint} (h : Objection stop o tokens complaint position) :
    complaint ≠ .barePoint := by
  cases h <;> exact Complaint.noConfusion

theorem Expr.arisesIn_of_ofTokens {tokens : List PlacedToken} {failure : Failure}
    (h : ofTokens tokens = .error failure) : failure.ArisesIn .reading := by
  obtain ⟨complaint, position, rfl⟩ := malformed_of_ofTokens h
  refine .complaint ?_ position
  rcases eq_or_ne tokens [] with rfl | hne
  · cases h
    exact Complaint.noConfusion
  · obtain ⟨_, _, _, -, -, hobjection⟩ := objects_of_ofTokens hne h
    exact hobjection.ne_barePoint

/-- A node that divides by zero divides. -/
theorem Expr.divides_of_dividesByZero {op : Operator} {left right : Expr}
    (h : (binary op left right).dividesByZero = true) : op.divides = true := by
  rw [dividesByZero] at h
  cases hx : left.evaluate with
  | error failure => simp [hx] at h
  | ok x =>
      cases hy : right.evaluate with
      | error failure => simp [hx, hy] at h
      | ok y =>
          simp only [hx, hy, Bool.and_eq_true] at h
          exact h.1

theorem Expr.arisesIn_of_evaluate {e : Expr} {failure : Failure}
    (h : e.evaluate = .error failure) : failure.ArisesIn .computing := by
  rw [evaluate_eq_value, failsAsFirstNode] at h
  obtain ⟨op, left, right, hfind, rfl⟩ := h
  exact .zero ⟨op, divides_of_dividesByZero (List.find?_some hfind), rfl⟩

/-- **A failure is one of the stage in which the expression fails.** -/
theorem FailsIn.arisesIn {expression : String} {stage : Stage} {failure : Failure}
    (h : FailsIn expression stage failure) : failure.ArisesIn stage := by
  cases h with
  | splitting h => exact Token.arisesIn_of_tokenize h
  | reading _ h => exact Expr.arisesIn_of_ofTokens h
  | computing _ _ h => exact Expr.arisesIn_of_evaluate h

/-! ### Labels -/

/-- The complaint of a point without digits, at whatever place. -/
def Failure.IsBarePoint (failure : Failure) : Prop :=
  ∃ position, failure = .malformed .barePoint position

/-- What counts as a validation: all failures of the first stage but that of a bare point. -/
theorem Failure.ArisesIn.isValidation_iff {stage : Stage} {failure : Failure}
    (h : failure.ArisesIn stage) :
    failure.isValidation = true ↔ stage = .splitting ∧ ¬ failure.IsBarePoint := by
  cases h with
  | unbalanced | stray | operators => simp [isValidation, IsBarePoint]
  | barePoint position => simp [isValidation, IsBarePoint]
  | complaint | zero => simp [isValidation]

/-- A text is not split into tokens, and not for a bare point. -/
def Token.Refuses (expression : String) : Prop :=
  ∃ failure, tokenize expression = .error failure ∧ ¬ failure.IsBarePoint

/-- An evaluation fails for a validation exactly if its text is refused. -/
theorem exists_isValidation_iff (expression : String) :
    (∃ failure, evaluateExpression expression = .error failure ∧ failure.isValidation = true) ↔
      Token.Refuses expression := by
  constructor
  · rintro ⟨failure, h, hvalidation⟩
    obtain ⟨stage, hfails⟩ := evaluateExpression_eq_error_iff.mp h
    obtain ⟨rfl, hpoint⟩ := hfails.arisesIn.isValidation_iff.mp hvalidation
    cases hfails with
    | splitting htokens => exact ⟨failure, htokens, hpoint⟩
  · rintro ⟨failure, htokens, hpoint⟩
    have hfails : FailsIn expression .splitting failure := .splitting htokens
    exact ⟨failure, evaluateExpression_eq_error_iff.mpr ⟨_, hfails⟩,
      hfails.arisesIn.isValidation_iff.mpr ⟨rfl, hpoint⟩⟩

/-- An outcome has one of two labels, by whether its text is refused. -/
theorem Calculator.operation_cases (calculator : Calculator) (expression : String) :
    ((calculator.evaluate expression).operation = "validation" ∧ Token.Refuses expression) ∨
      ((calculator.evaluate expression).operation = "calculation" ∧ ¬ Token.Refuses expression) := by
  rw [← exists_isValidation_iff]
  cases h : evaluateExpression expression with
  | ok x => exact .inr ⟨by simp [evaluate, h, Outcome.ofResult], by simp⟩
  | error failure =>
      by_cases hvalidation : failure.isValidation = true
      · exact .inl ⟨by simp [evaluate, h, hvalidation, Outcome.ofFailure], by simp [hvalidation]⟩
      · exact .inr ⟨by simp [evaluate, h, hvalidation, Outcome.ofFailure], by simp [hvalidation]⟩

/-- A bare point is objected to where the lexemes lead to it. -/
theorem Token.tokenize_eq_barePoint_iff (expression : String) (position : Nat) :
    let s := Text.normalize expression.toList
    tokenize expression = .error (.malformed .barePoint position) ↔
      Balanced s ∧ ∃ front rest tokens, front ++ '.' :: rest = s ∧
        Lexeme.bytes front = position ∧ Cuts 0 s tokens (Lexeme.bytes front) ('.' :: rest) ∧
        Lexeme.NoneStarts ('.' :: rest) := by
  intro s
  constructor
  · intro h
    have houtcome := outcome_tokenizeChars expression.toList
    rw [← tokenize, h] at houtcome
    cases houtcome with
    | barePoint balanced place cuts fault =>
        exact ⟨balanced, _, _, _, place, rfl, cuts, fault⟩
  · rintro ⟨balanced, front, rest, tokens, place, rfl, cuts, fault⟩
    exact Outcome.tokenizeChars_eq rfl (.barePoint balanced place cuts fault)

/-- **What is labelled a validation.**  An outcome is labelled so exactly if its text is not split
into tokens, for another reason than a bare point, and is labelled a calculation otherwise.
Wherever an expression fails, its failure counts as a validation exactly if it fails in being
split, and not for a bare point; and a bare point is objected to exactly where the parentheses are
balanced and the longest lexemes from the first byte on lead to a point with which none starts. -/
theorem operation_eq_validation_iff (calculator : Calculator) (expression : String) :
    ((calculator.evaluate expression).operation = "validation" ↔ Token.Refuses expression) ∧
    ((calculator.evaluate expression).operation = "calculation" ↔ ¬ Token.Refuses expression) ∧
    (∀ stage failure, FailsIn expression stage failure →
      (failure.isValidation = true ↔ stage = .splitting ∧ ¬ failure.IsBarePoint)) ∧
    let s := Text.normalize expression.toList
    ∀ position, Token.tokenize expression = .error (.malformed .barePoint position) ↔
      Balanced s ∧ ∃ front rest tokens, front ++ '.' :: rest = s ∧
        Lexeme.bytes front = position ∧
        Token.Cuts 0 s tokens (Lexeme.bytes front) ('.' :: rest) ∧
        Lexeme.NoneStarts ('.' :: rest) := by
  have hne : "validation" ≠ "calculation" := by decide
  refine ⟨?_, ?_, fun _ _ h => h.arisesIn.isValidation_iff,
    Token.tokenize_eq_barePoint_iff expression⟩
  · rcases calculator.operation_cases expression with ⟨h, hrefuses⟩ | ⟨h, hrefuses⟩
    · exact iff_of_true h hrefuses
    · exact iff_of_false (h ▸ hne.symm) hrefuses
  · rcases calculator.operation_cases expression with ⟨h, hrefuses⟩ | ⟨h, hrefuses⟩
    · exact iff_of_false (h ▸ hne) (not_not_intro hrefuses)
    · exact iff_of_true h hrefuses

/-- `1 + .` is not split into tokens, and is labelled a calculation: not all that is turned down in
the first stage is labelled a validation. -/
theorem operation_of_bare_point :
    ¬ ∀ (calculator : Calculator) (expression : String),
      (calculator.evaluate expression).operation = "validation" ↔
        ∃ failure, Token.tokenize expression = .error failure := by
  intro h
  have htokens : Token.tokenize "1 + ." = .error (.malformed .barePoint 2) := by decide +kernel
  have hlabel : ((Calculator.mk ⟨2024, 6, 1, 12, 0, 0, 0⟩).evaluate "1 + .").operation =
      "calculation" := by
    decide +kernel
  have hvalidation := (h ⟨⟨2024, 6, 1, 12, 0, 0, 0⟩⟩ "1 + .").mpr ⟨_, htokens⟩
  rw [hlabel] at hvalidation
  exact absurd hvalidation (by decide)

end Reckoner
