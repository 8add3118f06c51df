import Reckoner.Json.Reading

/-!
# Json — numbers within a text

A number is read up to where it ends.  What may stand behind it in a value is nothing, a blank, a
comma or a closing bracket (`Json.Ends`), and none of these could go on with the number.  So each
part of a number is read with such a text behind it as it is read by itself, and what is left is
what was left, with that text behind it: `real_append`, `exponent_append`, `afterPlaces_append`,
`afterWhole_append`, and **for a whole number `Json.unsigned_append`**.
-/

namespace Reckoner.Json

/-- What may stand behind a number within a text. -/
def isEnd (c : Char) : Bool :=
  c == ',' || c == ']' || c == '\x7d' || isSpace c

/-- No number goes on in front of `t`. -/
inductive Ends : List Char → Prop where
  | nothing : Ends []
  | mark {c : Char} (h : isEnd c = true) (rest : List Char) : Ends (c :: rest)

theorem isDigit_eq_false_of_isEnd {c : Char} (h : isEnd c = true) : c.isDigit = false := by
  simp only [isEnd, isSpace, Bool.or_eq_true, beq_iff_eq] at h
  rcases h with ((rfl | rfl) | rfl) | (((rfl | rfl) | rfl) | rfl) <;> rfl

section

variable {t : List Char}

/-- Nothing that belongs to a number stands in front. -/
theorem Ends.ne_cons (ht : Ends t) {c : Char} (hc : isEnd c = false) (rest : List Char) :
    t ≠ c :: rest := by
  rintro rfl
  cases ht with
  | mark h => simp [h] at hc

/-- What stands in front of a text that ends, if it belongs to a number, belongs to the text. -/
theorem Ends.eq_cons_of_append (ht : Ends t) {c : Char} (hc : isEnd c = false)
    {s rest : List Char} (h : s ++ t = c :: rest) : ∃ s', s = c :: s' ∧ s' ++ t = rest := by
  cases s with
  | nil => exact absurd h (ht.ne_cons hc rest)
  | cons d s =>
      obtain ⟨rfl, rfl⟩ := List.cons.inj h
      exact ⟨s, rfl, rfl⟩

theorem Ends.takeWhile_append (ht : Ends t) (s : List Char) :
    (s ++ t).takeWhile Char.isDigit = s.takeWhile Char.isDigit := by
  induction s with
  | nil =>
      cases ht with
      | nothing => rfl
      | mark h rest => simp [isDigit_eq_false_of_isEnd h]
  | cons c s ih => rw [List.cons_append, List.takeWhile_cons, List.takeWhile_cons, ih]

theorem Ends.dropWhile_append (ht : Ends t) (s : List Char) :
    (s ++ t).dropWhile Char.isDigit = s.dropWhile Char.isDigit ++ t := by
  induction s with
  | nil =>
      cases ht with
      | nothing => rfl
      | mark h rest => simp [isDigit_eq_false_of_isEnd h]
  | cons c s ih =>
      rw [List.cons_append, List.dropWhile_cons, List.dropWhile_cons]
      split
      · exact ih
      · rfl

/-! ### The parts of a number -/

theorem real_append {negative : Bool} {n : Scaled} {s rest : List Char} {x : JsonNumber}
    (h : real negative n s = .ok (x, rest)) (t : List Char) :
    real negative n (s ++ t) = .ok (x, rest ++ t) := by
  unfold real at h ⊢
  split at h
  · cases h
    rfl
  · cases h

theorem exponentDigits_append (ht : Ends t) (power : Nat) (s : List Char) :
    exponentDigits power (s ++ t) =
      match exponentDigits power s with
      | .ok power => .ok power
      | .error after => .error (after ++ t) := by
  induction s generalizing power with
  | nil =>
      cases ht with
      | nothing => rfl
      | mark h rest => simp [exponentDigits, isDigit_eq_false_of_isEnd h]
  | cons c s ih =>
      rw [List.cons_append, exponentDigits, exponentDigits]
      split
      · dsimp only
        split
        · exact ih _
        · rfl
      · rfl

theorem exponent_append (ht : Ends t) {negative below : Bool} {n : Scaled} {s rest : List Char}
    {x : JsonNumber} (h : exponent negative n below s = .ok (x, rest)) :
    exponent negative n below (s ++ t) = .ok (x, rest ++ t) := by
  cases s with
  | nil => cases h
  | cons c s =>
      rw [List.cons_append]
      simp only [exponent] at h ⊢
      split at h
      · cases h
      · rename_i hc
        rw [if_neg hc]
        rw [← List.cons_append, ht.dropWhile_append, exponentDigits_append ht]
        cases hdigits : exponentDigits 0 (c :: s) with
        | ok power =>
            rw [hdigits] at h
            exact real_append h t
        | error after =>
            rw [hdigits] at h
            dsimp only at h ⊢
            split at h
            · cases h
            · rename_i hfits
              rw [if_neg hfits]
              cases h
              rfl

theorem afterPlaces_append (ht : Ends t) {negative : Bool} {n : Scaled} {s rest : List Char}
    {x : JsonNumber} (h : afterPlaces negative n s = .ok (x, rest)) :
    afterPlaces negative n (s ++ t) = .ok (x, rest ++ t) := by
  -- with `t` behind it, `s` is read by the same branch
  have hfront : ∀ c, c = 'e' ∨ c = 'E' ∨ c = '+' ∨ c = '-' → ∀ s rest : List Char,
      s ++ t = c :: rest → ∃ s', s = c :: s' ∧ s' ++ t = rest := by
    rintro c (rfl | rfl | rfl | rfl) s rest hs <;> exact ht.eq_cons_of_append (by decide) hs
  unfold afterPlaces at h
  split at h
  case h_1 s | h_2 s | h_3 s | h_4 s => exact exponent_append ht h
  case h_5 s hplus hminus | h_6 s hplus hminus =>
    rw [List.cons_append]
    unfold afterPlaces
    split
    all_goals grind [exponent_append]
  case h_7 s _ _ _ _ _ _ =>
    unfold afterPlaces
    split
    all_goals grind [real_append]

theorem afterWhole_append (ht : Ends t) {negative : Bool} {n : Scaled} {s rest : List Char}
    {x : JsonNumber} (h : afterWhole negative n s = .ok (x, rest)) :
    afterWhole negative n (s ++ t) = .ok (x, rest ++ t) := by
  have hfront : ∀ c, c = '.' ∨ c = 'e' ∨ c = 'E' → ∀ s rest : List Char,
      s ++ t = c :: rest → ∃ s', s = c :: s' ∧ s' ++ t = rest := by
    rintro c (rfl | rfl | rfl) s rest hs <;> exact ht.eq_cons_of_append (by decide) hs
  unfold afterWhole at h
  split at h
  case h_1 s =>
    dsimp only at h
    rw [List.cons_append, afterWhole, ht.takeWhile_append, ht.dropWhile_append]
    split at h
    · cases h
    · exact afterPlaces_append ht h
  case h_2 s | h_3 s => exact afterPlaces_append ht h
  case h_4 s _ _ _ =>
    unfold afterWhole
    split
    all_goals grind [real_append]

theorem unsigned_append (ht : Ends t) {negative : Bool} {s rest : List Char}
    {x : JsonNumber} (h : unsigned negative s = .ok (x, rest)) :
    unsigned negative (s ++ t) = .ok (x, rest ++ t) := by
  unfold unsigned at h
  split at h
  case h_1 => cases h
  case h_2 s =>
    rw [List.cons_append, unsigned, ht.takeWhile_append]
    split at h
    · rename_i hdigits
      rw [if_pos hdigits]
      exact afterWhole_append ht h
    · cases h
  case h_3 c s hzero =>
    rw [List.cons_append, unsigned, ← List.cons_append]
    · split at h
      · rename_i hdigit
        rw [if_pos hdigit, ht.takeWhile_append, ht.dropWhile_append]
        exact afterWhole_append ht h
      · cases h
    · exact hzero

end

end Reckoner.Json
