import Mathlib.Data.List.Chain
import Reckoner.Proofs.Lexing.Longest
import Reckoner.Token.Scan

/-!
# Lexing — texts cut into lexemes

`Token.Cuts position s tokens stop rest` says that the longest lexemes in front of `s`, taken one
after another, are those of `tokens`, and leave `rest`; the places are counted in bytes from
`position` on and end at `stop`.

**Scanning cuts a text as far as lexemes reach** (`exists_cuts_scanFrom`), and there is one way to
do so (`Cuts.functional`).  **A text is split into tokens exactly when its parentheses are
balanced, its lexemes reach to the end, and no two operators meet** (`tokenizeChars_eq_ok_iff`).
Parentheses can be counted before or after the cut (`Cuts.balancedFrom_eq`).
-/

namespace Reckoner

/-! ### The size of a lexeme -/

namespace Lexeme

/-- The bytes of some characters. -/
def bytes (text : List Char) : Nat :=
  (String.ofList text).utf8ByteSize

theorem bytes_cons (c : Char) (text : List Char) : bytes (c :: text) = c.utf8Size + bytes text := by
  rw [bytes, String.ofList_cons, String.utf8ByteSize_append, String.utf8ByteSize_singleton]
  rfl

/-- Characters of one byte each have as many bytes as there are of them. -/
theorem bytes_eq_length {text : List Char} (h : ∀ c ∈ text, c.utf8Size = 1) :
    bytes text = text.length := by
  induction text with
  | nil => rfl
  | cons c text ih =>
      rw [bytes_cons, h c (by simp), ih fun d hd => h d (by simp [hd]), List.length_cons,
        Nat.add_comm]

theorem utf8Size_of_isDigit {c : Char} (h : c.isDigit = true) : c.utf8Size = 1 := by
  simp only [Char.isDigit, Bool.and_eq_true, decide_eq_true_eq] at h
  rw [Char.utf8Size_eq_one_iff]
  exact UInt32.le_trans h.2 (by decide)

/-- A lexeme has one byte per character. -/
theorem Spells.utf8Size_eq_one {text : List Char} {token : Token} (h : Spells text token) :
    ∀ c ∈ text, c.utf8Size = 1 := by
  intro c hc
  rcases h.mem_cases hc with hd | hm | ⟨-, rfl⟩ | ⟨-, rfl⟩
  · exact utf8Size_of_isDigit hd
  · rcases hm with rfl | rfl | rfl | rfl | rfl | rfl <;> rfl
  · rfl
  · rfl

theorem Spells.bytes_eq_length {text : List Char} {token : Token} (h : Spells text token) :
    bytes text = text.length :=
  Lexeme.bytes_eq_length h.utf8Size_eq_one

end Lexeme

namespace Token

/-! ### Cuts -/

/-- The longest lexemes in front of a text, one after another. -/
inductive Cuts : (position : Nat) → (s : List Char) → (tokens : List PlacedToken) →
    (stop : Nat) → (rest : List Char) → Prop where
  | done {position : Nat} {s : List Char} : Cuts position s [] position s
  | more {position stop : Nat} {s text behind rest : List Char} {token : Token}
      {tokens : List PlacedToken} (longest : Lexeme.Longest s text token behind)
      (tail : Cuts (position + Lexeme.bytes text) behind tokens stop rest) :
      Cuts position s (⟨token, position⟩ :: tokens) stop rest

/-- Where no lexeme starts, cuts end, and all of them end there alike. -/
theorem Cuts.functional {position stop : Nat} {s rest : List Char} {tokens : List PlacedToken}
    (h : Cuts position s tokens stop rest) (hrest : Lexeme.next? rest = none) :
    ∀ {tokens' stop' rest'}, Cuts position s tokens' stop' rest' → Lexeme.next? rest' = none →
      tokens = tokens' ∧ stop = stop' ∧ rest = rest' := by
  induction h with
  | done =>
      intro tokens' stop' rest' h' hrest'
      cases h' with
      | done => exact ⟨rfl, rfl, rfl⟩
      | more longest =>
          have hnext := Lexeme.next?_eq_some_iff (l := ⟨_, _⟩).mpr longest
          rw [hrest] at hnext
          cases hnext
  | more longest _ ih =>
      intro tokens' stop' rest' h' hrest'
      have hnext := Lexeme.next?_eq_some_iff (l := ⟨_, _⟩).mpr longest
      cases h' with
      | done =>
          rw [hrest'] at hnext
          cases hnext
      | more longest' tail' =>
          have hnext' := Lexeme.next?_eq_some_iff (l := ⟨_, _⟩).mpr longest'
          rw [hnext] at hnext'
          cases hnext'
          obtain ⟨rfl, rfl, rfl⟩ := ih hrest tail' hrest'
          exact ⟨rfl, rfl, rfl⟩

/-- **Scanning cuts a text as far as lexemes reach.** -/
theorem exists_cuts_scanFrom (position : Nat) (done : List PlacedToken) (s : List Char) :
    ∃ tokens stop rest, Cuts position s tokens stop rest ∧ Lexeme.next? rest = none ∧
      scanFrom position done s = match rest with
        | []     => .ok (done.reverse ++ tokens)
        | c :: _ => .error (strayCharacter c stop) := by
  fun_induction scanFrom position done s with
  | case1 position done s lexeme rest h ih =>
      have longest := Lexeme.next?_eq_some_iff.mp h
      obtain ⟨tokens, stop, rest', htail, hrest', hscan⟩ := ih
      rw [← longest.spells.bytes_eq_length] at htail
      refine ⟨_, stop, rest', .more longest htail, hrest', ?_⟩
      simpa using hscan
  | case2 position done h => exact ⟨[], position, [], .done, h, by simp⟩
  | case3 position done c rest h => exact ⟨[], position, c :: rest, .done, h, rfl⟩

theorem next?_nil : Lexeme.next? [] = none := rfl

/-- A text is scanned when its lexemes reach to the end. -/
theorem scan_eq_ok_iff {s : List Char} {tokens : List PlacedToken} :
    scan s = .ok tokens ↔ ∃ stop, Cuts 0 s tokens stop [] := by
  obtain ⟨tokens', stop, rest, hcuts, hrest, hscan⟩ := exists_cuts_scanFrom 0 [] s
  rw [scan, hscan]
  constructor
  · intro h
    cases rest with
    | nil =>
        obtain rfl : tokens' = tokens := by simpa using h
        exact ⟨stop, hcuts⟩
    | cons c rest => cases h
  · rintro ⟨stop', hcuts'⟩
    obtain ⟨rfl, rfl, rfl⟩ := hcuts.functional hrest hcuts' next?_nil
    rfl

/-! ### Balance -/

/-- How many parentheses are open behind some tokens if `depth` are open in front of them; none if
more are closed than are open. -/
def openAfter : (depth : Nat) → List Token → Option Nat
  | depth, []                 => some depth
  | depth, .opening :: ts     => openAfter (depth + 1) ts
  | 0, .closing :: _          => none
  | depth + 1, .closing :: ts => openAfter depth ts
  | depth, .number _ :: ts    => openAfter depth ts
  | depth, .operator _ :: ts  => openAfter depth ts

/-- Parentheses of a list are counted through its parts. -/
theorem openAfter_append (ts us : List Token) (depth : Nat) :
    openAfter depth (ts ++ us) = (openAfter depth ts).bind (openAfter · us) := by
  fun_induction openAfter depth ts with
  | case1 => rfl
  | case3 => rfl
  | case2 _ _ ih | case4 _ _ ih | case5 _ _ _ ih | case6 _ _ _ ih =>
      simpa only [List.cons_append, openAfter] using ih

/-- Characters other than parentheses open and close nothing. -/
theorem balancedFrom_append {text : List Char} (h : ∀ c ∈ text, c ≠ '(' ∧ c ≠ ')') (depth : Nat)
    (rest : List Char) : balancedFrom depth (text ++ rest) = balancedFrom depth rest := by
  induction text with
  | nil => rfl
  | cons c text ih =>
      obtain ⟨hopening, hclosing⟩ := h c (by simp)
      have hcons : balancedFrom depth (c :: (text ++ rest)) = balancedFrom depth (text ++ rest) := by
        rw [balancedFrom] <;> simp [hopening, hclosing]
      rw [List.cons_append, hcons, ih fun d hd => h d (by simp [hd])]

/-- Only the lexemes that are parentheses have parentheses in them. -/
theorem ne_parenthesis_of_spells {text : List Char} {token : Token}
    (h : Lexeme.Spells text token) (ho : token ≠ .opening) (hc : token ≠ .closing) :
    ∀ c ∈ text, c ≠ '(' ∧ c ≠ ')' := by
  intro c hmem
  rcases h.mem_cases hmem with hd | hm | ⟨heq, -⟩ | ⟨heq, -⟩
  · constructor <;> rintro rfl <;> exact absurd hd (by decide)
  · rcases hm with rfl | rfl | rfl | rfl | rfl | rfl <;> decide
  · exact absurd heq ho
  · exact absurd heq hc

/-- **Parentheses can be counted before or after a text is cut.** -/
theorem Cuts.balancedFrom_eq {position stop : Nat} {s rest : List Char}
    {tokens : List PlacedToken} (h : Cuts position s tokens stop rest) :
    ∀ depth, balancedFrom depth s =
      ((openAfter depth (tokens.map (·.token))).map (balancedFrom · rest)).getD false := by
  induction h with
  | done => exact fun depth => rfl
  | @more position stop s text behind rest token tokens longest _ ih =>
      obtain ⟨rfl, hspells, -⟩ := longest
      intro depth
      have hplain := ne_parenthesis_of_spells hspells
      cases hspells with
      | opening => exact ih (depth + 1)
      | closing =>
          -- nothing is open: neither the text nor the tokens are balanced from here on
          cases depth with
          | zero => rfl
          | succ depth => exact ih depth
      | operator | whole | pointed =>
          rw [balancedFrom_append (hplain nofun nofun), ih]
          rfl

/-- A text that is cut to its end is balanced if its tokens are. -/
theorem Cuts.balanced_iff {stop : Nat} {s : List Char} {tokens : List PlacedToken}
    (h : Cuts 0 s tokens stop []) :
    balanced s = true ↔ openAfter 0 (tokens.map (·.token)) = some 0 := by
  rw [balanced, h.balancedFrom_eq]
  cases openAfter 0 (tokens.map (·.token)) with
  | none => simp
  | some depth => simp [balancedFrom]

/-! ### Operators apart -/

/-- No two operators meet. -/
def Spaced (tokens : List Token) : Prop :=
  tokens.IsChain fun a b => ¬ (a.isOperator = true ∧ b.isOperator = true)

theorem operatorAfterOperator?_eq_none_iff (tokens : List PlacedToken) :
    operatorAfterOperator? tokens = none ↔ Spaced (tokens.map (·.token)) := by
  induction tokens with
  | nil => simp [operatorAfterOperator?, Spaced]
  | cons a tokens ih =>
      cases tokens with
      | nil => simp [operatorAfterOperator?, Spaced]
      | cons b tokens =>
          simp only [Spaced, List.map_cons, List.isChain_cons_cons] at ih ⊢
          rw [← ih, operatorAfterOperator?]
          split <;> simp_all

/-! ### Tokens of a text -/

/-- The three checks of a text in their order. -/
theorem tokenizeChars_eq (expression : List Char) :
    tokenizeChars expression =
      if balanced (Text.normalize expression) = true then
        match scan (Text.normalize expression) with
        | .error failure => .error failure
        | .ok tokens =>
          match operatorAfterOperator? tokens with
          | some position => .error (.consecutiveOperators position)
          | none => .ok tokens
      else .error .unbalancedParentheses := by
  rw [tokenizeChars]
  cases balanced (Text.normalize expression) with
  | false => rfl
  | true =>
      cases scan (Text.normalize expression) with
      | error failure => rfl
      | ok tokens => cases h : operatorAfterOperator? tokens <;> simp [h, bind, Except.bind] <;> rfl

/-- **A text is split into tokens exactly when its parentheses are balanced, its lexemes reach to
the end, and no two operators meet.** -/
theorem tokenizeChars_eq_ok_iff {expression : List Char} {tokens : List PlacedToken} :
    tokenizeChars expression = .ok tokens ↔
      balanced (Text.normalize expression) = true ∧
      (∃ stop, Cuts 0 (Text.normalize expression) tokens stop []) ∧
      Spaced (tokens.map (·.token)) := by
  rw [← scan_eq_ok_iff, ← operatorAfterOperator?_eq_none_iff, tokenizeChars_eq]
  by_cases hb : balanced (Text.normalize expression) = true
  · rw [if_pos hb]
    cases scan (Text.normalize expression) with
    | error failure => simp
    | ok found =>
        dsimp only
        cases ho : operatorAfterOperator? found with
        | none =>
            constructor
            · rintro ⟨⟩
              exact ⟨hb, rfl, ho⟩
            · rintro ⟨-, ⟨⟩, -⟩
              rfl
        | some position =>
            constructor
            · intro h
              cases h
            · rintro ⟨-, ⟨⟩, hnone⟩
              rw [ho] at hnone
              cases hnone
  · simp [hb]

/-- A text that is not split has one of the three faults. -/
theorem failure_of_tokenizeChars {expression : List Char} {failure : Failure}
    (h : tokenizeChars expression = .error failure) :
    failure = .unbalancedParentheses ∨ (∃ c position, failure = strayCharacter c position) ∨
      ∃ position, failure = .consecutiveOperators position := by
  rw [tokenizeChars_eq] at h
  split at h
  · obtain ⟨tokens, stop, rest, -, -, hscan⟩ :=
      exists_cuts_scanFrom 0 [] (Text.normalize expression)
    rw [scan, hscan] at h
    cases rest with
    | nil =>
        dsimp only at h
        split at h
        · cases h
          exact .inr (.inr ⟨_, rfl⟩)
        · cases h
    | cons c rest =>
        cases h
        exact .inr (.inl ⟨c, stop, rfl⟩)
  · cases h
    exact .inl rfl

end Token

end Reckoner
