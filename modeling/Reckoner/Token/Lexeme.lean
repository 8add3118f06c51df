import Reckoner.Token.Basic

/-!
# Token — lexemes

A lexeme is a run of characters that makes one token.  `Lexeme.next?` takes the longest one off the
front of a text: two stars before one, two slashes before one, and as many digits and points as
belong to a number.
-/

namespace Reckoner

/-- A token together with the characters that spell it. -/
structure Lexeme where
  token : Token
  text  : List Char

namespace Lexeme

/-- The number spelled by the digits in front of the point and those behind it. -/
def numberOf (whole places : List Char) : Token :=
  .number (Decimal.ofDigits whole places).toFloat

/-- The longest number in front of a text: digits with at most one point among or behind them, or
digits behind a point.  A point alone is none. -/
def number? (s : List Char) : Option (Lexeme × List Char) :=
  let whole := s.takeWhile Char.isDigit
  match s.dropWhile Char.isDigit with
  | '.' :: rest =>
    let places := rest.takeWhile Char.isDigit
    if whole = [] ∧ places = [] then none
    else some (⟨numberOf whole places, whole ++ '.' :: places⟩, rest.dropWhile Char.isDigit)
  | rest => if whole = [] then none else some (⟨numberOf whole [], whole⟩, rest)

/-- The longest lexeme in front of a text, and what follows it. -/
def next? : List Char → Option (Lexeme × List Char)
  | '+' :: rest        => some (⟨.operator .add, ['+']⟩, rest)
  | '-' :: rest        => some (⟨.operator .sub, ['-']⟩, rest)
  | '*' :: '*' :: rest => some (⟨.operator .pow, ['*', '*']⟩, rest)
  | '*' :: rest        => some (⟨.operator .mul, ['*']⟩, rest)
  | '/' :: '/' :: rest => some (⟨.operator .floorDiv, ['/', '/']⟩, rest)
  | '/' :: rest        => some (⟨.operator .div, ['/']⟩, rest)
  | '%' :: rest        => some (⟨.operator .mod, ['%']⟩, rest)
  | '(' :: rest        => some (⟨.opening, ['(']⟩, rest)
  | ')' :: rest        => some (⟨.closing, [')']⟩, rest)
  | s                  => number? s

/-- A number and what follows it make up the text, and a number is never empty. -/
theorem number?_append {s rest : List Char} {l : Lexeme} (h : number? s = some (l, rest)) :
    l.text ++ rest = s ∧ l.text ≠ [] := by
  have hs : s.takeWhile Char.isDigit ++ s.dropWhile Char.isDigit = s :=
    List.takeWhile_append_dropWhile
  unfold number? at h
  split at h
  · rename_i after e
    obtain ⟨_, rfl, rfl⟩ := by simpa using h
    refine ⟨?_, by simp⟩
    rw [e] at hs
    simpa [List.takeWhile_append_dropWhile] using hs
  · dsimp only at h
    split at h
    · simp at h
    · rename_i hne
      obtain ⟨rfl, rfl⟩ := by simpa using h
      exact ⟨hs, hne⟩

/-- A lexeme and what follows it make up the text, and a lexeme is never empty. -/
theorem next?_append {s rest : List Char} {l : Lexeme} (h : next? s = some (l, rest)) :
    l.text ++ rest = s ∧ l.text ≠ [] := by
  unfold next? at h
  split at h
  case h_10 => exact number?_append h
  all_goals
    obtain ⟨rfl, rfl⟩ := by simpa using h
    simp

theorem length_lt_of_next? {s rest : List Char} {l : Lexeme} (h : next? s = some (l, rest)) :
    rest.length < s.length := by
  obtain ⟨hs, hne⟩ := next?_append h
  have := List.length_pos_iff.2 hne
  rw [← hs, List.length_append]
  omega

end Lexeme

end Reckoner
