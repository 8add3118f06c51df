import Reckoner.Token.Lexeme

/-!
# Lexing — the longest lexeme

The lexemes of the language and their tokens: an operator's symbol, a parenthesis, or a literal,
which is digits, or digits with a point among them or at either end, and stands for the double of
the decimal that it is (`Lexeme.Spells`).  A text spells one token at most.

**`Lexeme.next?` takes the longest lexeme in front of a text, and finds none only where none
starts** (`Lexeme.next?_eq_some_iff`, `Lexeme.next?_eq_none_iff`).
-/

namespace Reckoner.Lexeme

/-- `text` is a lexeme, and `token` is the token that it spells. -/
inductive Spells : (text : List Char) → (token : Token) → Prop where
  | operator (op : Operator) : Spells op.symbol.toList (.operator op)
  | opening : Spells ['('] .opening
  | closing : Spells [')'] .closing
  | whole {digits : List Char} (hne : digits ≠ []) (hd : ∀ c ∈ digits, c.isDigit = true) :
      Spells digits (.number (Decimal.ofDigits digits []).toFloat)
  | pointed {digits places : List Char} (hne : digits ≠ [] ∨ places ≠ [])
      (hd : ∀ c ∈ digits, c.isDigit = true) (hp : ∀ c ∈ places, c.isDigit = true) :
      Spells (digits ++ '.' :: places) (.number (Decimal.ofDigits digits places).toFloat)

theorem Spells.ne_nil {text : List Char} {token : Token} (h : Spells text token) : text ≠ [] := by
  cases h with
  | operator op => cases op <;> decide
  | opening | closing => exact List.cons_ne_nil _ _
  | whole hne => exact hne
  | pointed => simp

/-- A character of a lexeme that is neither a digit nor a parenthesis. -/
def IsMark (c : Char) : Prop :=
  c = '.' ∨ c = '+' ∨ c = '-' ∨ c = '*' ∨ c = '/' ∨ c = '%'

/-- The characters of a lexeme: a parenthesis is a lexeme of its own. -/
theorem Spells.mem_cases {text : List Char} {token : Token} (h : Spells text token) {c : Char}
    (hc : c ∈ text) : c.isDigit = true ∨ IsMark c ∨ (token = .opening ∧ c = '(') ∨
      (token = .closing ∧ c = ')') := by
  cases h with
  | operator op => cases op <;> simp_all [IsMark, Operator.symbol]
  | opening => exact .inr (.inr (.inl ⟨rfl, List.mem_singleton.mp hc⟩))
  | closing => exact .inr (.inr (.inr ⟨rfl, List.mem_singleton.mp hc⟩))
  | whole hne hd => exact .inl (hd c hc)
  | pointed hne hd hp =>
      rcases List.mem_append.mp hc with hc | hc
      · exact .inl (hd c hc)
      · rcases List.mem_cons.mp hc with rfl | hc
        · exact .inr (.inl (.inl rfl))
        · exact .inl (hp c hc)

/-- A literal starts with a digit or a point. -/
theorem Spells.number_head {text : List Char} {value : Float} (h : Spells text (.number value)) :
    ∃ c rest, text = c :: rest ∧ (c.isDigit = true ∨ c = '.') := by
  generalize ht : Token.number value = token at h
  cases h with
  | operator | opening | closing => cases ht
  | whole hne hd =>
      obtain ⟨c, rest, rfl⟩ := List.exists_cons_of_ne_nil hne
      exact ⟨c, rest, rfl, .inl (hd c (by simp))⟩
  | @pointed digits places hne hd hp =>
      cases digits with
      | nil => exact ⟨'.', places, rfl, .inr rfl⟩
      | cons c digits => exact ⟨c, _, rfl, .inl (hd c (by simp))⟩

/-- `text` is the longest lexeme in front of `s`, with its token and what follows it. -/
structure Longest (s text : List Char) (token : Token) (rest : List Char) : Prop where
  append_eq : text ++ rest = s
  spells    : Spells text token
  longest   : ∀ text' token' rest', text' ++ rest' = s → Spells text' token' →
    text'.length ≤ text.length

/-! ### Numbers -/

/-- No digit stands in front of `s`. -/
def NoDigit (s : List Char) : Prop :=
  ∀ c rest, s = c :: rest → c.isDigit = false

theorem noDigit_dropWhile (s : List Char) : NoDigit (s.dropWhile Char.isDigit) := by
  induction s with
  | nil => intro c rest h; cases h
  | cons d s ih =>
      intro c rest h
      rw [List.dropWhile_cons] at h
      split at h
      · exact ih c rest h
      · rename_i hd
        cases h
        simpa using hd

theorem isDigit_of_mem_takeWhile {s : List Char} {c : Char} (h : c ∈ s.takeWhile Char.isDigit) :
    c.isDigit = true :=
  List.all_eq_true.mp List.all_takeWhile c h

theorem NoDigit.takeWhile {s : List Char} (h : NoDigit s) : s.takeWhile Char.isDigit = [] := by
  cases s with
  | nil => rfl
  | cons c rest => simp [h c rest rfl]

theorem NoDigit.dropWhile {s : List Char} (h : NoDigit s) : s.dropWhile Char.isDigit = s := by
  cases s with
  | nil => rfl
  | cons c rest => simp [h c rest rfl]

theorem noDigit_point (s : List Char) : NoDigit ('.' :: s) := by
  rintro c rest ⟨⟩
  rfl

/-- Digits with a point are read to the last digit. -/
theorem number?_pointed {digits places rest : List Char} (hne : digits ≠ [] ∨ places ≠ [])
    (hd : ∀ c ∈ digits, c.isDigit = true) (hp : ∀ c ∈ places, c.isDigit = true)
    (hr : NoDigit rest) :
    number? (digits ++ '.' :: (places ++ rest)) =
      some (⟨numberOf digits places, digits ++ '.' :: places⟩, rest) := by
  have hpoint := noDigit_point (places ++ rest)
  simp only [number?, List.takeWhile_append_of_pos hd, List.dropWhile_append_of_pos hd,
    hpoint.takeWhile, hpoint.dropWhile, List.append_nil, List.takeWhile_append_of_pos hp,
    List.dropWhile_append_of_pos hp, hr.takeWhile, hr.dropWhile]
  exact if_neg fun ⟨hd, hp⟩ => hne.elim (· hd) (· hp)

/-- Digits without a point are read to the last digit. -/
theorem number?_whole {digits rest : List Char} (hne : digits ≠ [])
    (hd : ∀ c ∈ digits, c.isDigit = true) (hr : NoDigit rest) (hpoint : ∀ s, rest ≠ '.' :: s) :
    number? (digits ++ rest) = some (⟨numberOf digits [], digits⟩, rest) := by
  simp only [number?, List.takeWhile_append_of_pos hd, List.dropWhile_append_of_pos hd,
    hr.takeWhile, hr.dropWhile, List.append_nil]
  cases rest with
  | nil => exact if_neg hne
  | cons c rest => simp [hne]

/-- A number that is read is spelled by what is read. -/
theorem spells_of_number? {s rest : List Char} {l : Lexeme} (h : number? s = some (l, rest)) :
    Spells l.text l.token := by
  have hd : ∀ c ∈ s.takeWhile Char.isDigit, c.isDigit = true := fun _ => isDigit_of_mem_takeWhile
  unfold number? at h
  split at h
  · rename_i after _
    simp only [Option.ite_none_left_eq_some, Option.some.injEq, Prod.mk.injEq] at h
    obtain ⟨hne, rfl, -⟩ := h
    exact .pointed (Classical.not_and_iff_not_or_not.mp hne) hd fun _ => isDigit_of_mem_takeWhile
  · simp only [Option.ite_none_left_eq_some, Option.some.injEq, Prod.mk.injEq] at h
    obtain ⟨hne, rfl, -⟩ := h
    exact .whole hne hd

/-- A number that is read is a number. -/
theorem token_of_number? {s rest : List Char} {l : Lexeme} (h : number? s = some (l, rest)) :
    ∃ value, l.token = .number value := by
  unfold number? at h
  split at h
  · simp only [Option.ite_none_left_eq_some, Option.some.injEq, Prod.mk.injEq] at h
    obtain ⟨-, rfl, -⟩ := h
    exact ⟨_, rfl⟩
  · simp only [Option.ite_none_left_eq_some, Option.some.injEq, Prod.mk.injEq] at h
    obtain ⟨-, rfl, -⟩ := h
    exact ⟨_, rfl⟩

/-- In front of a digit or a point only a number can stand. -/
theorem next?_eq_number? {c : Char} {s : List Char} (h : c.isDigit = true ∨ c = '.') :
    next? (c :: s) = number? (c :: s) := by
  unfold next?
  split
  case h_10 => rfl
  all_goals
    rename_i heq
    cases heq
    exact absurd h (by decide)

/-- Where a literal starts, a number at least as long is read. -/
theorem exists_number?_of_whole {digits : List Char} (rest : List Char) (hne : digits ≠ [])
    (hd : ∀ c ∈ digits, c.isDigit = true) : ∃ l rest',
      number? (digits ++ rest) = some (l, rest') ∧ digits.length ≤ l.text.length := by
  simp only [number?, List.takeWhile_append_of_pos hd]
  split
  · rw [if_neg (by simp [hne])]
    exact ⟨_, _, rfl, by simp⟩
  · rw [if_neg (by simp [hne])]
    exact ⟨_, _, rfl, by simp⟩

theorem exists_number?_of_pointed {digits places : List Char} (rest : List Char)
    (hne : digits ≠ [] ∨ places ≠ []) (hd : ∀ c ∈ digits, c.isDigit = true)
    (hp : ∀ c ∈ places, c.isDigit = true) : ∃ l rest',
      number? (digits ++ '.' :: places ++ rest) = some (l, rest') ∧
        (digits ++ '.' :: places).length ≤ l.text.length := by
  -- the places go on with the digits in front of `rest`
  have hps : ∀ c ∈ places ++ rest.takeWhile Char.isDigit, c.isDigit = true := fun c hc =>
    (List.mem_append.mp hc).elim (hp c) isDigit_of_mem_takeWhile
  have hread := number?_pointed (hne.imp_right fun h => by simp [h]) hd hps
    (noDigit_dropWhile rest)
  rw [List.append_assoc places, List.takeWhile_append_dropWhile] at hread
  refine ⟨_, _, by simpa using hread, by simp⟩

/-! ### Lexemes -/

/-- What is read is a lexeme. -/
theorem spells_of_next? {s rest : List Char} {l : Lexeme} (h : next? s = some (l, rest)) :
    Spells l.text l.token := by
  unfold next? at h
  split at h
  case h_1 => cases h; exact .operator .add
  case h_2 => cases h; exact .operator .sub
  case h_3 => cases h; exact .operator .pow
  case h_4 => cases h; exact .operator .mul
  case h_5 => cases h; exact .operator .floorDiv
  case h_6 => cases h; exact .operator .div
  case h_7 => cases h; exact .operator .mod
  case h_8 => cases h; exact .opening
  case h_9 => cases h; exact .closing
  case h_10 => exact spells_of_number? h

/-- A symbol is read as its operator, unless a star or a slash follows it. -/
theorem next?_symbol (op : Operator) {rest : List Char} (hstar : ∀ s, rest ≠ '*' :: s)
    (hslash : ∀ s, rest ≠ '/' :: s) :
    next? (op.symbol.toList ++ rest) = some (⟨.operator op, op.symbol.toList⟩, rest) := by
  cases op with
  | add | sub | pow | mod | floorDiv => rfl
  | mul | div =>
      cases rest with
      | nil => rfl
      | cons c rest =>
          simp [Operator.symbol, next?]

/-- Where a symbol starts, one at least as long is read: two stars are not read as one. -/
theorem exists_next?_symbol (op : Operator) (rest : List Char) : ∃ l rest',
    next? (op.symbol.toList ++ rest) = some (l, rest') ∧
      op.symbol.toList.length ≤ l.text.length := by
  cases op with
  | add | sub | pow | mod | floorDiv => exact ⟨_, _, rfl, Nat.le_refl _⟩
  | mul =>
      rcases rest with _ | ⟨c, rest⟩
      · exact ⟨_, _, rfl, Nat.le_refl _⟩
      · by_cases hc : c = '*'
        · subst hc
          exact ⟨⟨.operator .pow, ['*', '*']⟩, rest, rfl, by decide⟩
        · refine ⟨⟨.operator .mul, ['*']⟩, c :: rest, ?_, Nat.le_refl _⟩
          simp [Operator.symbol, next?, hc]
  | div =>
      rcases rest with _ | ⟨c, rest⟩
      · exact ⟨_, _, rfl, Nat.le_refl _⟩
      · by_cases hc : c = '/'
        · subst hc
          exact ⟨⟨.operator .floorDiv, ['/', '/']⟩, rest, rfl, by decide⟩
        · refine ⟨⟨.operator .div, ['/']⟩, c :: rest, ?_, Nat.le_refl _⟩
          simp [Operator.symbol, next?, hc]

/-- Where a lexeme starts, one at least as long is read. -/
theorem Spells.exists_next? {text : List Char} {token : Token} (h : Spells text token)
    (rest : List Char) : ∃ l rest',
      next? (text ++ rest) = some (l, rest') ∧ text.length ≤ l.text.length := by
  cases h with
  | operator op => exact exists_next?_symbol op rest
  | opening => exact ⟨_, _, rfl, Nat.le_refl _⟩
  | closing => exact ⟨_, _, rfl, Nat.le_refl _⟩
  | whole hne hd =>
      obtain ⟨c, digits, rfl⟩ := List.exists_cons_of_ne_nil hne
      rw [List.cons_append, next?_eq_number? (.inl (hd c (by simp)))]
      exact exists_number?_of_whole rest hne hd
  | @pointed digits places hne hd hp =>
      have hnext : next? (digits ++ '.' :: places ++ rest) =
          number? (digits ++ '.' :: places ++ rest) := by
        cases digits with
        | nil => exact next?_eq_number? (.inr rfl)
        | cons c digits => exact next?_eq_number? (.inl (hd c (by simp)))
      rw [hnext]
      exact exists_number?_of_pointed rest hne hd hp

/-- Where a literal starts a number is read, be it a longer one. -/
theorem Spells.exists_next?_number {text : List Char} {value : Float}
    (h : Spells text (.number value)) (rest : List Char) : ∃ l rest' value',
      next? (text ++ rest) = some (l, rest') ∧ l.token = .number value' := by
  obtain ⟨l, rest', hnext, -⟩ := h.exists_next? rest
  obtain ⟨c, text, rfl, hc⟩ := h.number_head
  rw [List.cons_append, next?_eq_number? hc] at hnext
  obtain ⟨value', htoken⟩ := token_of_number? hnext
  refine ⟨l, rest', value', ?_, htoken⟩
  rw [List.cons_append, next?_eq_number? hc, hnext]

/-- What may follow a token's text without making the lexeme longer. -/
def EndsBefore (rest : List Char) : Token → Prop
  | .number _   => NoDigit rest ∧ ∀ s, rest ≠ '.' :: s
  | .operator _ => (∀ s, rest ≠ '*' :: s) ∧ ∀ s, rest ≠ '/' :: s
  | .opening    => True
  | .closing    => True

/-- A lexeme is read as its token where nothing makes it longer. -/
theorem Spells.next?_append {text rest : List Char} {token : Token} (h : Spells text token)
    (hr : EndsBefore rest token) : next? (text ++ rest) = some (⟨token, text⟩, rest) := by
  cases h with
  | operator op => exact next?_symbol op hr.1 hr.2
  | opening => rfl
  | closing => rfl
  | whole hne hd =>
      refine Eq.trans ?_ (number?_whole hne hd hr.1 hr.2)
      obtain ⟨c, digits, rfl⟩ := List.exists_cons_of_ne_nil hne
      exact next?_eq_number? (.inl (hd c (by simp)))
  | @pointed digits places hne hd hp =>
      rw [List.append_assoc, List.cons_append]
      refine Eq.trans ?_ (number?_pointed hne hd hp hr.1)
      cases digits with
      | nil => exact next?_eq_number? (.inr rfl)
      | cons c digits => exact next?_eq_number? (.inl (hd c (by simp)))

theorem endsBefore_nil (token : Token) : EndsBefore [] token := by
  cases token <;> simp [EndsBefore, NoDigit]

/-- A text spells one token at most. -/
theorem Spells.functional {text : List Char} {a b : Token} (ha : Spells text a)
    (hb : Spells text b) : a = b := by
  have h := (ha.next?_append (endsBefore_nil a)).symm.trans (hb.next?_append (endsBefore_nil b))
  simpa using h

/-! ### The longest lexeme -/

/-- **The lexer takes the longest lexeme.** -/
theorem next?_eq_some_iff {s rest : List Char} {l : Lexeme} :
    next? s = some (l, rest) ↔ Longest s l.text l.token rest := by
  constructor
  · intro h
    refine ⟨(next?_append h).1, spells_of_next? h, ?_⟩
    rintro text token rest' rfl hspells
    obtain ⟨l', rest'', h', hle⟩ := hspells.exists_next? rest'
    rw [h] at h'
    cases h'
    exact hle
  · obtain ⟨token, text⟩ := l
    rintro ⟨rfl, hspells, hlongest⟩
    -- what is read is at least as long as `text`, hence `text` itself, and has its one token
    obtain ⟨⟨token', text'⟩, rest', h', hle⟩ := hspells.exists_next? rest
    obtain ⟨happend, -⟩ := next?_append h'
    have hge := hlongest text' token' rest' happend (spells_of_next? h')
    obtain ⟨rfl, rfl⟩ := List.append_inj happend (Nat.le_antisymm hge hle)
    obtain rfl := (spells_of_next? h').functional hspells
    exact h'

/-- No lexeme is read only where none starts. -/
theorem next?_eq_none_iff {s : List Char} :
    next? s = none ↔ ∀ text token rest, text ++ rest = s → ¬ Spells text token := by
  constructor
  · rintro h text token rest rfl hspells
    obtain ⟨l, rest', h', -⟩ := hspells.exists_next? rest
    rw [h] at h'
    cases h'
  · intro hnone
    cases h : next? s with
    | none => rfl
    | some found =>
        obtain ⟨l, rest⟩ := found
        exact absurd (spells_of_next? h) (hnone _ _ _ (next?_append h).1)

end Reckoner.Lexeme
