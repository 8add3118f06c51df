import Reckoner.Proofs.Language.Membership
import Reckoner.Proofs.Lexing.Balance
import Reckoner.Proofs.Lexing.Placing

/-!
# Language — expressions put together

Two expressions in parentheses with an operator's symbol between them are an expression, and
nothing of either changes on the way.  No lexeme reaches across a parenthesis, so the text is cut
into the tokens of its parts (`Token.CutsInto.group`), and a derivation nests as deep as its
parentheses do (`Derivation.nestsWithin_iff`).

**The whole is read as the operator over the trees of its parts, and has the value that the
operator makes of theirs** (`reads_binary_of_reads`); it fails as its first part does, or else as
its second one does.
-/

namespace Reckoner

/-! ### How deep a derivation nests -/

theorem NestsWithin.cons_operator_iff {n : Nat} {op : Operator} {ts : List Token} :
    NestsWithin .opening .closing n (.operator op :: ts) ↔ NestsWithin .opening .closing n ts := by
  rw [← List.singleton_append, NestsWithin.append_iff (by simp)]

mutual
/-- **A derivation nests as deep as its parentheses do.** -/
theorem Derivation.nestsWithin_iff : ∀ {level : Level} (d : Derivation level) {n : Nat}
    (rest : List Token), NestsWithin .opening .closing n (d.tokens ++ rest) ↔
      d.nesting ≤ n ∧ NestsWithin .opening .closing n rest
  | _, .number value, n, rest => by
      rw [NestsWithin.append_iff (by simp [Derivation.tokens]), Derivation.nesting]
      simp
  | _, .group inner, n, rest => by
      rw [Derivation.tokens, List.cons_append, List.append_assoc, List.singleton_append,
        NestsWithin.cons_opening_iff (by decide), Derivation.nesting]
      constructor
      · rintro ⟨m, rfl, h⟩
        obtain ⟨hn, hrest⟩ := (inner.nestsWithin_iff _).mp h
        exact ⟨Nat.succ_le_succ hn, (NestsWithin.cons_closing_iff (by decide)).mp hrest⟩
      · rintro ⟨hn, hrest⟩
        obtain ⟨m, rfl⟩ := Nat.exists_eq_add_of_le' (Nat.le_trans (Nat.le_add_left 1 _) hn)
        exact ⟨m, rfl, (inner.nestsWithin_iff _).mpr
          ⟨Nat.le_of_succ_le_succ hn, (NestsWithin.cons_closing_iff (by decide)).mpr hrest⟩⟩
  | _, .plain operand, n, rest => operand.nestsWithin_iff rest
  | _, .minus operand, n, rest => by
      rw [Derivation.tokens, List.cons_append, NestsWithin.cons_operator_iff,
        operand.nestsWithin_iff, Derivation.nesting]
  | _, .base operand, n, rest => operand.nestsWithin_iff rest
  | _, .raised operand exponent, n, rest => by
      rw [Derivation.tokens, List.append_assoc, operand.nestsWithin_iff, List.cons_append,
        NestsWithin.cons_operator_iff, exponent.nestsWithin_iff, Derivation.nesting, Nat.max_le,
        and_assoc]
  | _, .product first tail, n, rest => by
      rw [Derivation.tokens, List.append_assoc, first.nestsWithin_iff, tail.nestsWithin_iff,
        Derivation.nesting, Nat.max_le, and_assoc]
  | _, .sum first tail, n, rest => by
      rw [Derivation.tokens, List.append_assoc, first.nestsWithin_iff, tail.nestsWithin_iff,
        Derivation.nesting, Nat.max_le, and_assoc]

theorem Tail.nestsWithin_iff : ∀ {level : Level} (tail : Tail level) {n : Nat}
    (rest : List Token), NestsWithin .opening .closing n (tail.tokens ++ rest) ↔
      tail.nesting ≤ n ∧ NestsWithin .opening .closing n rest
  | _, .done, n, rest => by simp [Tail.tokens, Tail.nesting]
  | _, .link op mem operand tail, n, rest => by
      rw [Tail.tokens, List.cons_append, NestsWithin.cons_operator_iff, List.append_assoc,
        operand.nestsWithin_iff, tail.nestsWithin_iff, Tail.nesting, Nat.max_le, and_assoc]
end

/-! ### Cuts across a parenthesis -/

/-- A lexeme with a closing parenthesis in it is that parenthesis. -/
theorem Lexeme.Spells.eq_closing {text : List Char} {token : Token} (h : Spells text token)
    (hc : ')' ∈ text) : text = [')'] := by
  rcases h.mem_cases hc with hd | hm | ⟨-, hc'⟩ | ⟨htoken, -⟩
  · exact absurd hd (by decide)
  · exact absurd hm (by unfold IsMark; decide)
  · exact absurd hc' (by decide)
  · cases h with
    | closing => rfl
    | operator | opening | whole | pointed => cases htoken

/-- A closing parenthesis behind a text makes no lexeme in it longer. -/
theorem Lexeme.Longest.append_closing {s text behind : List Char} {token : Token}
    (h : Longest s text token behind) (rest : List Char) :
    Longest (s ++ ')' :: rest) text token (behind ++ ')' :: rest) := by
  obtain ⟨rfl, hspells, hlongest⟩ := h
  refine ⟨(List.append_assoc ..).symm, hspells, ?_⟩
  intro text' token' rest' happend hspells'
  rcases List.append_eq_append_iff.mp happend with ⟨back, hfront, -⟩ | ⟨back, htext', hback⟩
  · exact hlongest text' token' back hfront.symm hspells'
  · cases back with
    | nil => exact hlongest text' token' [] (by simpa using htext') hspells'
    | cons c back =>
        -- it would have the parenthesis in it, and so be no longer than that
        obtain ⟨rfl, -⟩ := List.cons.inj hback
        obtain rfl := hspells'.eq_closing (by simp [htext'])
        exact List.length_pos_iff.mpr hspells.ne_nil

namespace Token

/-- **A closing parenthesis behind a text changes no cut of it.** -/
theorem Cuts.append_closing {position stop : Nat} {s rest : List Char} {placed : List PlacedToken}
    (h : Cuts position s placed stop rest) (behind : List Char) :
    Cuts position (s ++ ')' :: behind) placed stop (rest ++ ')' :: behind) := by
  induction h with
  | done => exact .done
  | more longest _ ih => exact .more (longest.append_closing behind) ih

/-- A text is cut into these tokens up to `rest`, wherever it starts. -/
def CutsInto (s : List Char) (ts : List Token) (rest : List Char) : Prop :=
  ∀ position, ∃ placed stop, Cuts position s placed stop rest ∧ placed.map (·.token) = ts

namespace CutsInto

variable {s mid rest : List Char} {ts us : List Token}

theorem of_cuts {position stop : Nat} {placed : List PlacedToken}
    (h : Cuts position s placed stop rest) : CutsInto s (placed.map (·.token)) rest := by
  induction h with
  | done => exact fun position => ⟨[], position, .done, rfl⟩
  | more longest _ ih =>
      intro position
      obtain ⟨placed, stop, htail, htokens⟩ := ih (position + Lexeme.bytes _)
      exact ⟨_, stop, .more longest htail, by rw [List.map_cons, List.map_cons, htokens]⟩

theorem lexeme {text : List Char} {token : Token} (h : Lexeme.Longest s text token rest) :
    CutsInto s [token] rest :=
  fun position => ⟨[⟨token, position⟩], _, .more h .done, rfl⟩

theorem append (h : CutsInto s ts mid) (h' : CutsInto mid us rest) : CutsInto s (ts ++ us) rest := by
  intro position
  obtain ⟨placed, stop, hcuts, rfl⟩ := h position
  obtain ⟨placed', stop', hcuts', rfl⟩ := h' stop
  refine ⟨placed ++ placed', stop', ?_, List.map_append⟩
  clear h h'
  induction hcuts with
  | done => exact hcuts'
  | more longest _ ih => exact .more longest (ih hcuts')

/-- A text that is cut to its end is cut as far in front of a closing parenthesis. -/
theorem append_closing (h : CutsInto s ts []) (behind : List Char) :
    CutsInto (s ++ ')' :: behind) ts (')' :: behind) := by
  obtain ⟨placed, stop, hcuts, rfl⟩ := h 0
  exact of_cuts (hcuts.append_closing behind)

/-- **A text in parentheses is cut into its tokens in parentheses.** -/
theorem group (h : CutsInto s ts []) (behind : List Char) :
    CutsInto ('(' :: (s ++ ')' :: behind)) (.opening :: (ts ++ [.closing])) behind := by
  have hopening : CutsInto ('(' :: (s ++ ')' :: behind)) [.opening] (s ++ ')' :: behind) :=
    lexeme (Lexeme.next?_eq_some_iff (l := ⟨.opening, ['(']⟩).mp rfl)
  have hclosing : CutsInto (')' :: behind) [.closing] behind :=
    lexeme (Lexeme.next?_eq_some_iff (l := ⟨.closing, [')']⟩).mp rfl)
  exact hopening.append ((h.append_closing behind).append hclosing)

/-- A symbol in front of a parenthesis is cut off as its operator. -/
theorem symbol (op : Operator) (behind : List Char) :
    CutsInto (op.symbol.toList ++ '(' :: behind) [.operator op] ('(' :: behind) := by
  have hends : Lexeme.EndsBefore ('(' :: behind) (.operator op) :=
    Lexeme.endsBefore_operator (by decide) (by decide)
  exact lexeme (Lexeme.next?_eq_some_iff.mp ((Lexeme.Spells.operator op).next?_append hends))

/-- The tokens of a derivation nest as the text does that is cut into them. -/
theorem nesting_le {s : List Char} {level : Level} {d : Derivation level} {n : Nat}
    (h : CutsInto (Text.normalize s) d.tokens []) (hn : NestsWithin '(' ')' n s) :
    d.nesting ≤ n := by
  obtain ⟨placed, stop, hcuts, htokens⟩ := h 0
  have hnests := hcuts.nestsWithin hn.normalize
  rw [htokens, ← List.append_nil d.tokens, d.nestsWithin_iff] at hnests
  exact hnests.1

end CutsInto

end Token

/-! ### Texts with a tree -/

/-- `expression` is split into tokens, and these are read as `e`. -/
def Reads (expression : String) (e : Expr) : Prop :=
  ∃ tokens, Token.tokenize expression = .ok tokens ∧ Expr.ofTokens tokens = .ok e

/-- **A text is read as the tree of a derivation of its lexemes.** -/
theorem reads_iff {expression : String} {e : Expr} :
    Reads expression e ↔ ∃ d : Derivation .sum,
      Token.CutsInto (Text.normalize expression.toList) d.tokens [] ∧ Token.Spaced d.tokens ∧
        d.nesting ≤ nestingLimit ∧ d.tree = e := by
  constructor
  · rintro ⟨tokens, ht, he⟩
    obtain ⟨-, ⟨stop, hcuts⟩, hspaced⟩ := Token.tokenizeChars_eq_ok_iff.mp ht
    obtain ⟨d, hd, hn, rfl⟩ := Expr.ofTokens_eq_ok_iff.mp he
    rw [← hd] at hspaced
    exact ⟨d, hd ▸ .of_cuts hcuts, hspaced, hn, rfl⟩
  · rintro ⟨d, hcuts, hspaced, hn, rfl⟩
    obtain ⟨tokens, stop, hcuts, htokens⟩ := hcuts 0
    rw [← htokens] at hspaced
    exact ⟨tokens, d.tokenize_eq htokens.symm hcuts hspaced,
      Expr.ofTokens_eq_ok_iff.mpr ⟨d, htokens.symm, hn, rfl⟩⟩

/-- The value of a text that is read is that of its tree. -/
theorem Reads.evaluateExpression_eq {expression : String} {e : Expr} (h : Reads expression e) :
    evaluateExpression expression = e.value := by
  obtain ⟨tokens, ht, he⟩ := h
  rw [evaluateExpression, ht, ← e.evaluate_eq_value]
  simp [bind, Except.bind, he]

/-! ### Putting expressions together -/

/-- Parentheses stand for themselves, whatever is between them. -/
theorem Text.normalize_group (s behind : List Char) :
    normalize ('(' :: (s ++ ')' :: behind)) = '(' :: (normalize s ++ ')' :: normalize behind) := by
  have hopening : normalize ['('] = ['('] := by decide
  have hclosing : normalize [')'] = [')'] := by decide
  rw [← List.singleton_append, normalize_append, normalize_append, hopening,
    ← List.singleton_append (l := behind), normalize_append, hclosing]
  rfl

/-- A sum in parentheses. -/
def Derivation.bracketed (d : Derivation .sum) : Derivation .unary :=
  .plain (.group d)

/-- Two sums in parentheses with an operator between them have a derivation. -/
theorem Derivation.exists_binary (op : Operator) (d e : Derivation .sum) :
    ∃ c : Derivation .sum, c.tokens = d.bracketed.tokens ++ .operator op :: e.bracketed.tokens ∧
      c.nesting = max (d.nesting + 1) (e.nesting + 1) ∧ c.tree = .binary op d.tree e.tree := by
  obtain ⟨c, htokens, hnesting, htree⟩ := d.bracketed.exists_prepend op (.ofUnary e.bracketed)
  rw [tokens_ofUnary] at htokens
  rw [nesting_ofUnary] at hnesting
  exact ⟨c, htokens, hnesting, htree e.bracketed rfl⟩

/-- A sum in parentheses is an operand of the flat grammar. -/
theorem Derivation.flat_bracketed {d : Derivation .sum} (h : Token.Spaced d.tokens) :
    Flat .operand (d.nesting + 1) d.bracketed.tokens :=
  .group (d.flat h)

/-- Parentheses keep an operator apart from those in its operands. -/
theorem Derivation.spaced_binary {d e : Derivation .sum} (hd : Token.Spaced d.tokens)
    (he : Token.Spaced e.tokens) (op : Operator) :
    Token.Spaced (d.bracketed.tokens ++ .operator op :: e.bracketed.tokens) := by
  have left := (flat_bracketed hd).mono (Nat.le_max_left _ (e.nesting + 1))
  have right := (flat_bracketed he).mono (Nat.le_max_right (d.nesting + 1) _)
  exact (Flat.positive (.link left op (.single right))).spaced

/-- **An expression in parentheses is read as itself.** -/
theorem Reads.group {a : String} {e : Expr} (h : Reads a e)
    (hn : NestsWithin '(' ')' (nestingLimit - 1) a.toList) : Reads ("(" ++ a ++ ")") e := by
  obtain ⟨d, hcuts, hspaced, -, rfl⟩ := reads_iff.mp h
  have htext : Text.normalize ("(" ++ a ++ ")").toList =
      '(' :: (Text.normalize a.toList ++ [')']) := by
    simpa using Text.normalize_group a.toList []
  refine reads_iff.mpr ⟨.ofUnary d.bracketed, ?_, ?_, ?_, ?_⟩
  · rw [htext, Derivation.tokens_ofUnary]
    exact hcuts.group []
  · rw [Derivation.tokens_ofUnary]
    exact (Flat.positive (.single (Derivation.flat_bracketed hspaced))).spaced
  · rw [Derivation.nesting_ofUnary]
    exact Nat.succ_le_succ (hcuts.nesting_le hn)
  · rw [Derivation.tree_ofUnary]
    rfl

/-- **Two expressions in parentheses with an operator between them are read as the operator over
their trees.** -/
theorem Reads.binary {a b : String} {left right : Expr} (ha : Reads a left) (hb : Reads b right)
    (hna : NestsWithin '(' ')' (nestingLimit - 1) a.toList)
    (hnb : NestsWithin '(' ')' (nestingLimit - 1) b.toList) (op : Operator) :
    Reads ("(" ++ a ++ ")" ++ op.symbol ++ "(" ++ b ++ ")") (.binary op left right) := by
  obtain ⟨d, hcutsLeft, hspacedLeft, -, rfl⟩ := reads_iff.mp ha
  obtain ⟨e, hcutsRight, hspacedRight, -, rfl⟩ := reads_iff.mp hb
  obtain ⟨c, htokens, hnesting, htree⟩ := Derivation.exists_binary op d e
  have htext : Text.normalize ("(" ++ a ++ ")" ++ op.symbol ++ "(" ++ b ++ ")").toList =
      '(' :: (Text.normalize a.toList ++ ')' :: (op.symbol.toList ++
        '(' :: (Text.normalize b.toList ++ [')']))) := by
    have hright : Text.normalize ('(' :: (b.toList ++ [')'])) =
        '(' :: (Text.normalize b.toList ++ [')']) := Text.normalize_group b.toList []
    have hleft := Text.normalize_group a.toList (op.symbol.toList ++ '(' :: (b.toList ++ [')']))
    rw [Text.normalize_append, (Lexeme.Spells.operator op).normalize_eq, hright] at hleft
    simpa using hleft
  refine reads_iff.mpr ⟨c, ?_, ?_, ?_, htree⟩
  · rw [htext, htokens]
    exact (hcutsLeft.group _).append ((Token.CutsInto.symbol op _).append (hcutsRight.group []))
  · rw [htokens]
    exact Derivation.spaced_binary hspacedLeft hspacedRight op
  · rw [hnesting]
    exact Nat.max_le.mpr ⟨Nat.succ_le_succ (hcutsLeft.nesting_le hna),
      Nat.succ_le_succ (hcutsRight.nesting_le hnb)⟩

/-- **Expressions put together.**  If two texts are read as trees and leave no more parentheses
open anywhere than the limit less one, then in parentheses each is read as its tree, and with the
symbol of an operator between them they are read as the operator over their trees.  Evaluating the
whole fails as the first does, or else as the second does, and otherwise applies the operator to
their two values. -/
theorem reads_binary_of_reads (a b : String) (left right : Expr) (op : Operator)
    (ha : Reads a left) (hb : Reads b right)
    (hna : NestsWithin '(' ')' (nestingLimit - 1) a.toList)
    (hnb : NestsWithin '(' ')' (nestingLimit - 1) b.toList) :
    Reads ("(" ++ a ++ ")" ++ op.symbol ++ "(" ++ b ++ ")") (.binary op left right) ∧
    Reads ("(" ++ a ++ ")") left ∧
    evaluateExpression ("(" ++ a ++ ")" ++ op.symbol ++ "(" ++ b ++ ")") = (do
      let x ← evaluateExpression a
      let y ← evaluateExpression b
      op.apply x y) := by
  have hwhole := ha.binary hb hna hnb op
  refine ⟨hwhole, ha.group hna, ?_⟩
  rw [hwhole.evaluateExpression_eq, ha.evaluateExpression_eq, hb.evaluateExpression_eq, Expr.value]
  cases left.value with
  | error failure => rfl
  | ok x =>
      cases right.value with
      | error failure => rfl
      | ok y => rfl

/-- A power over a number with a sign, which only parentheses let stand behind the symbol. -/
theorem reads_power_floorDiv_negative :
    Reads "3 ^ 2" (.binary .pow (.literal 3) (.literal 2)) ∧
      Reads "-(4)" (.negate (.literal 4)) ∧
      Reads "(3 ^ 2)//(-(4))" (.binary .floorDiv (.binary .pow (.literal 3) (.literal 2))
        (.negate (.literal 4))) := by
  have hpower : Reads "3 ^ 2" (.binary .pow (.literal 3) (.literal 2)) :=
    ⟨[⟨.number 3, 0⟩, ⟨.operator .pow, 1⟩, ⟨.number 2, 3⟩], by decide +kernel,
      Expr.ofTokens_eq_ok_iff.mpr ⟨.sum (.product (.raised (.plain (.number 3))
        (.base (.plain (.number 2)))) .done) .done, rfl, by decide, rfl⟩⟩
  have hnegative : Reads "-(4)" (.negate (.literal 4)) :=
    ⟨[⟨.operator .sub, 0⟩, ⟨.opening, 1⟩, ⟨.number 4, 2⟩, ⟨.closing, 3⟩], by decide +kernel,
      Expr.ofTokens_eq_ok_iff.mpr ⟨.ofUnary (.minus (.group (.ofUnary (.plain (.number 4))))),
        rfl, by decide, rfl⟩⟩
  have hwhole := (reads_binary_of_reads "3 ^ 2" "-(4)" _ _ .floorDiv hpower hnegative
    (.of_count_le (by decide)) (.of_count_le (by decide))).1
  exact ⟨hpower, hnegative, hwhole⟩

end Reckoner
