import Reckoner.Proofs.Lexing.Tiling
import Reckoner.Proofs.Numbers.ReadBack

/-!
# Lexing — written tokens

Tokens written one after another, without anything between them, run together where two numbers or
two operators meet; elsewhere they stay `Apart`.  A number is written as a literal if it is finite
and its sign is clear (`Token.Spellable`).

**Written tokens that stay apart are cut into the same tokens again** (`Token.cuts_texts`), each at
the place where its text starts (`Token.place`), and their text is in its one spelling already
(`Token.normalize_texts`).
-/

namespace Reckoner

/-! ### Lexemes in their one spelling -/

namespace Lexeme

theorem plainSpelling_of_isDigit {c : Char} (h : c.isDigit = true) :
    Text.plainSpelling c = [c] := by
  have hrange : 48 ≤ c.toNat ∧ c.toNat ≤ 57 := Char.isDigit_iff_toNat.mp h
  have hblank : ¬ Text.isBlank c = true := by
    -- no range of blanks meets that of the digits
    have houtside : ∀ r ∈ Text.blankRanges, r.2 < 48 ∨ 57 < r.1 := by decide
    intro hc
    obtain ⟨r, hmem, hr⟩ := List.any_eq_true.mp hc
    have := houtside r hmem
    simp only [Bool.and_eq_true, decide_eq_true_eq] at hr
    omega
  unfold Text.plainSpelling
  rw [if_neg hblank]
  split
  case h_4 => rfl
  all_goals exact absurd h (by decide)

/-- Every character of a lexeme stands for itself. -/
theorem Spells.plainSpelling_eq {text : List Char} {token : Token} (h : Spells text token) :
    ∀ c ∈ text, Text.plainSpelling c = [c] := by
  intro c hc
  rcases h.mem_cases hc with hd | hm | ⟨-, rfl⟩ | ⟨-, rfl⟩
  · exact plainSpelling_of_isDigit hd
  · rcases hm with rfl | rfl | rfl | rfl | rfl | rfl <;> decide
  · decide
  · decide

/-- A lexeme is in its one spelling. -/
theorem Spells.normalize_eq {text : List Char} {token : Token} (h : Spells text token) :
    Text.normalize text = text := by
  have hplain := h.plainSpelling_eq
  clear h
  induction text with
  | nil => rfl
  | cons c text ih =>
      have htext := ih fun d hd => hplain d (by simp [hd])
      rw [Text.normalize] at htext ⊢
      rw [List.flatMap_cons, hplain c (by simp), htext, List.singleton_append]

theorem endsBefore_number {c : Char} {rest : List Char} {value : Float} (hd : c.isDigit = false)
    (hp : c ≠ '.') : EndsBefore (c :: rest) (.number value) := by
  refine ⟨?_, ?_⟩
  · rintro _ _ ⟨⟩
    exact hd
  · rintro _ ⟨⟩
    exact hp rfl

theorem endsBefore_operator {c : Char} {rest : List Char} {op : Operator} (hstar : c ≠ '*')
    (hslash : c ≠ '/') : EndsBefore (c :: rest) (.operator op) := by
  refine ⟨?_, ?_⟩
  · rintro _ ⟨⟩
    exact hstar rfl
  · rintro _ ⟨⟩
    exact hslash rfl

end Lexeme

namespace Token

/-! ### Tokens apart -/

/-- Tokens whose text spells them: a number has to be finite, with a clear sign. -/
def Spellable : Token → Prop
  | .number value => Binary64.isFinite value = true ∧ Binary64.isNegative value = false
  | _             => True

/-- Whether tokens stay two when they are written one behind the other. -/
def Apart : Token → Token → Prop
  | .number _, .number _     => False
  | .operator _, .operator _ => False
  | _, _                     => True

/-- Whether a token is a number. -/
def IsNumber : Token → Prop
  | .number _ => True
  | _         => False

/-- No two numbers meet. -/
def NumbersApart (ts : List Token) : Prop :=
  ts.IsChain fun a b => ¬ (a.IsNumber ∧ b.IsNumber)

/-- Tokens stay apart if neither operators nor numbers meet. -/
theorem isChain_apart_iff (ts : List Token) :
    ts.IsChain Apart ↔ Spaced ts ∧ NumbersApart ts := by
  have hpair : ∀ a b : Token, Apart a b ↔
      ¬ (a.isOperator = true ∧ b.isOperator = true) ∧ ¬ (a.IsNumber ∧ b.IsNumber) := by
    intro a b
    cases a <;> cases b <;> simp [Apart, isOperator, IsNumber]
  simp only [Spaced, NumbersApart, List.isChain_iff_getElem, hpair, ← forall_and]

theorem toList_text_number (value : Float) :
    (number value).text.toList = Layout.plain.spell value := by
  rw [text, Layout.text, String.toList_ofList]

/-- **The text of a token spells it.** -/
theorem Spellable.spells {t : Token} (h : t.Spellable) : Lexeme.Spells t.text.toList t := by
  cases t with
  | number value =>
      rw [toList_text_number]
      exact Layout.spells_spell h.1 h.2
  | operator op => exact .operator op
  | opening => exact .opening
  | closing => exact .closing

/-- The text of a token ends in front of the text of another one that stays apart. -/
theorem Apart.endsBefore {a b : Token} (h : Apart a b) (hb : b.Spellable) (rest : List Char) :
    Lexeme.EndsBefore (b.text.toList ++ rest) a := by
  cases a with
  | opening | closing => trivial
  | number value =>
      cases b with
      | number => exact h.elim
      | operator op => cases op <;> exact Lexeme.endsBefore_number (by decide) (by decide)
      | opening | closing => exact Lexeme.endsBefore_number (by decide) (by decide)
  | operator op =>
      cases b with
      | operator => exact h.elim
      | opening | closing => exact Lexeme.endsBefore_operator (by decide) (by decide)
      | number value =>
          obtain ⟨c, behind, htext, hc⟩ := hb.spells.number_head
          rw [htext]
          refine Lexeme.endsBefore_operator ?_ ?_ <;> rintro rfl <;> exact absurd hc (by decide)

/-- Tokens placed one behind the other, from `position` on. -/
def place (position : Nat) : List Token → List PlacedToken
  | []      => []
  | t :: ts => ⟨t, position⟩ :: place (position + t.text.utf8ByteSize) ts

theorem map_token_place (position : Nat) (ts : List Token) :
    (place position ts).map (·.token) = ts := by
  induction ts generalizing position with
  | nil => rfl
  | cons t ts ih => rw [place, List.map_cons, ih]

/-- The characters of tokens written one behind the other. -/
def texts (ts : List Token) : List Char :=
  ts.flatMap fun t => t.text.toList

/-- **Written tokens that stay apart are cut into the same tokens again.** -/
theorem cuts_texts {ts : List Token} (hs : ∀ t ∈ ts, t.Spellable) (ha : ts.IsChain Apart)
    (position : Nat) : ∃ stop, Cuts position (texts ts) (place position ts) stop [] := by
  induction ts generalizing position with
  | nil => exact ⟨position, .done⟩
  | cons t ts ih =>
      have hspells := (hs t (by simp)).spells
      obtain ⟨stop, htail⟩ := ih (fun u hu => hs u (by simp [hu])) ha.tail
        (position + t.text.utf8ByteSize)
      -- what is written next does not make the lexeme longer
      have hends : Lexeme.EndsBefore (texts ts) t := by
        cases ts with
        | nil => exact Lexeme.endsBefore_nil t
        | cons u ts =>
            exact (List.isChain_cons_cons.mp ha).1.endsBefore (hs u (by simp)) (texts ts)
      have hbytes : Lexeme.bytes t.text.toList = t.text.utf8ByteSize := by
        rw [Lexeme.bytes, String.ofList_toList]
      refine ⟨stop, .more (Lexeme.next?_eq_some_iff.mp (hspells.next?_append hends)) ?_⟩
      rwa [hbytes]

/-- Written tokens are in their one spelling. -/
theorem normalize_texts {ts : List Token} (hs : ∀ t ∈ ts, t.Spellable) :
    Text.normalize (texts ts) = texts ts := by
  induction ts with
  | nil => rfl
  | cons t ts ih =>
      rw [texts, List.flatMap_cons, Text.normalize_append, (hs t (by simp)).spells.normalize_eq]
      exact congrArg _ (ih fun u hu => hs u (by simp [hu]))

/-- **A text is split into the tokens that it is written from**, if these stay apart and their
parentheses are balanced. -/
theorem tokenize_of_texts {expression : String} {ts : List Token}
    (htext : Text.normalize expression.toList = texts ts) (hs : ∀ t ∈ ts, t.Spellable)
    (ha : ts.IsChain Apart) (hopen : openAfter 0 ts = some 0) :
    tokenize expression = .ok (place 0 ts) := by
  obtain ⟨stop, hcuts⟩ := cuts_texts hs ha 0
  rw [tokenize, tokenizeChars_eq_ok_iff, htext, hcuts.balanced_iff, map_token_place]
  exact ⟨hopen, ⟨stop, hcuts⟩, ((isChain_apart_iff ts).mp ha).1⟩

end Token

end Reckoner
