import Reckoner.Proofs.Evaluation.ZeroDivision
import Reckoner.Proofs.Grammar.Acceptance
import Reckoner.Proofs.Grammar.Flat

/-!
# Language — which texts are expressions

A text is in the language if its longest lexemes, one after another, make up a word of the flat
grammar whose parentheses nest no deeper than the limit (`InLanguage`).

**The texts that are read as a tree are those in the language**, once blanks and signs have their
one spelling, **and they are those whose value fails to exist only by a division by zero**
(`read_iff_inLanguage`).  Balance, lexemes, neighbouring operators and levels of strength are
checked one after another, and none of the four checks states the language.
-/

namespace Reckoner

/-! ### The language -/

/-- A text in its one spelling is an expression: its longest lexemes make up a word of the flat
grammar, with parentheses no deeper than the limit. -/
def InLanguage (s : List Char) : Prop :=
  ∃ tokens stop, Token.Cuts 0 s tokens stop [] ∧
    Flat .word nestingLimit (tokens.map (·.token))

/-- Tokens of a text with a tree are a word. -/
theorem Flat.of_read {expression : String} {tokens : List PlacedToken} {e : Expr}
    (ht : Token.tokenize expression = .ok tokens) (he : Expr.ofTokens tokens = .ok e) :
    Flat .word nestingLimit (tokens.map (·.token)) := by
  obtain ⟨-, -, hspaced⟩ := Token.tokenizeChars_eq_ok_iff.mp ht
  obtain ⟨d, hd, hn, -⟩ := Expr.ofTokens_eq_ok_iff.mp he
  exact flat_iff_derivation.mpr ⟨hspaced, d, hd, hn⟩

/-- A text that is cut into the tokens of a derivation is split into them if no two operators meet:
their parentheses are balanced already. -/
theorem Derivation.tokenize_eq {expression : String} {tokens : List PlacedToken} {stop : Nat}
    (d : Derivation .sum) (hd : d.tokens = tokens.map (·.token))
    (hcuts : Token.Cuts 0 (Text.normalize expression.toList) tokens stop [])
    (hspaced : Token.Spaced (tokens.map (·.token))) : Token.tokenize expression = .ok tokens := by
  have hopen := d.openAfter_tokens 0 []
  rw [List.append_nil, hd] at hopen
  exact Token.tokenizeChars_eq_ok_iff.mpr
    ⟨hcuts.balanced_iff.mpr hopen, ⟨stop, hcuts⟩, hspaced⟩

/-- A text in the language is split into tokens and read as a tree. -/
theorem InLanguage.exists_read {expression : String}
    (h : InLanguage (Text.normalize expression.toList)) :
    ∃ tokens e, Token.tokenize expression = .ok tokens ∧ Expr.ofTokens tokens = .ok e := by
  obtain ⟨tokens, stop, hcuts, hword⟩ := h
  obtain ⟨hspaced, d, hd, hn⟩ := flat_iff_derivation.mp hword
  exact ⟨tokens, d.tree, d.tokenize_eq hd hcuts hspaced,
    Expr.ofTokens_eq_ok_iff.mpr ⟨d, hd, hn, rfl⟩⟩

/-- **The texts that are read are those in the language.** -/
theorem exists_read_iff (expression : String) :
    (∃ tokens e, Token.tokenize expression = .ok tokens ∧ Expr.ofTokens tokens = .ok e) ↔
      InLanguage (Text.normalize expression.toList) := by
  constructor
  · rintro ⟨tokens, e, ht, he⟩
    obtain ⟨-, ⟨stop, hcuts⟩, -⟩ := Token.tokenizeChars_eq_ok_iff.mp ht
    exact ⟨tokens, stop, hcuts, .of_read ht he⟩
  · exact InLanguage.exists_read

/-- A value is sought, and missed only by a division by zero, exactly where a tree is read. -/
theorem evaluateExpression_iff (expression : String) :
    ((∃ x, evaluateExpression expression = .ok x) ∨
      ∃ name, evaluateExpression expression = .error (.divisionByZero name)) ↔
    ∃ tokens e, Token.tokenize expression = .ok tokens ∧ Expr.ofTokens tokens = .ok e := by
  unfold evaluateExpression
  cases ht : Token.tokenize expression with
  | error failure =>
      have hne : ∀ name, failure ≠ .divisionByZero name := by
        rintro name rfl
        rcases Token.failure_of_tokenizeChars ht with h | ⟨c, position, h⟩ | ⟨position, h⟩
        · cases h
        · unfold Token.strayCharacter at h
          split at h <;> cases h
        · cases h
      simp [bind, Except.bind, hne]
  | ok tokens =>
      cases he : Expr.ofTokens tokens with
      | error failure =>
          obtain ⟨complaint, position, rfl⟩ := Expr.malformed_of_ofTokens he
          simp [bind, Except.bind, he]
      | ok e =>
          refine ⟨fun _ => ⟨tokens, e, rfl, he⟩, fun _ => ?_⟩
          cases hv : e.value with
          | ok x => simp [bind, Except.bind, he, Expr.evaluate_eq_value, hv]
          | error failure =>
              obtain ⟨op, left, right, -, rfl⟩ := (e.failsAsFirstNode failure).mp hv
              simp [bind, Except.bind, he, Expr.evaluate_eq_value, hv]

/-- Where an operator stands in a word: behind an operand, or else it is a minus sign in front of
everything or behind an opening parenthesis. -/
theorem Flat.operator_placed {n : Nat} {front behind : List Token} {op : Operator}
    (h : Flat .word n (front ++ .operator op :: behind)) :
    (∃ value, front.getLast? = some (.number value)) ∨ front.getLast? = some .closing ∨
      op = .sub ∧ (front = [] ∨ front.getLast? = some .opening) := by
  have hchain := h.placed [] (.singleton _)
  rw [List.append_nil] at hchain
  -- the token in front of the operator, or the parenthesis that `h.placed` puts before a word
  rcases List.eq_nil_or_concat front with rfl | ⟨front, t, rfl⟩
  · have hfirst := (List.isChain_cons_cons.mp hchain).1
    simp [Token.MayPrecede, Token.leavesDue] at hfirst
    simp [hfirst]
  · rw [List.concat_eq_append, List.append_assoc, List.singleton_append] at hchain
    have hnext := List.isChain_iff_forall_rel_of_append_cons_cons.mp hchain.tail rfl
    cases t <;> simp_all [Token.MayPrecede, Token.leavesDue]

/-- **The texts that are expressions.**  A text is split into tokens and read as a tree exactly if
it is in the language once it is normalized, and exactly then evaluating it comes to a value or to
a division by zero.  An operator in it follows a number or a closing parenthesis, except for a
minus sign at the very start or directly behind an opening parenthesis. -/
theorem read_iff_inLanguage (expression : String) :
    ((∃ tokens e, Token.tokenize expression = .ok tokens ∧ Expr.ofTokens tokens = .ok e) ↔
      InLanguage (Text.normalize expression.toList)) ∧
    (((∃ x, evaluateExpression expression = .ok x) ∨
        ∃ name, evaluateExpression expression = .error (.divisionByZero name)) ↔
      InLanguage (Text.normalize expression.toList)) ∧
    ∀ tokens e, Token.tokenize expression = .ok tokens → Expr.ofTokens tokens = .ok e →
      ∀ front op behind, tokens.map (·.token) = front ++ .operator op :: behind →
        (∃ value, front.getLast? = some (.number value)) ∨ front.getLast? = some .closing ∨
          op = .sub ∧ (front = [] ∨ front.getLast? = some .opening) := by
  refine ⟨exists_read_iff expression,
    (evaluateExpression_iff expression).trans (exists_read_iff expression), ?_⟩
  intro tokens e ht he front op behind hsplit
  have hword := Flat.of_read ht he
  rw [hsplit] at hword
  exact hword.operator_placed

end Reckoner
