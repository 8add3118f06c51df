import Reckoner.Json.Halt
import Reckoner.Json.Scaled

/-!
# Json — reading numbers

The parts of a number from left to right: digits, a point with digits, an exponent.  Each reader
takes what is left of the text and hands on what is left behind it, **which is never longer**, and
shorter for a whole number (`length_lt_of_unsigned`).
-/

namespace Reckoner.Json

/-- The double for what has been read. -/
def real (negative : Bool) (n : Scaled) (s : List Char) : Except Halt (JsonNumber × List Char) :=
  match n.toFloat? negative with
  | some x => .ok (.real x, s)
  | none => .error (.before .numberOutOfRange s)

/-- The first of the digits in front of `s` that makes an exponent exceed 31 bits: what is left
behind it; otherwise the exponent. -/
def exponentDigits (exponent : Nat) : List Char → Except (List Char) Nat
  | [] => .ok exponent
  | c :: s =>
    if c.isDigit then
      let exponent := exponent * 10 + (c.toNat - '0'.toNat)
      if exponent < UInt32.size / 2 then exponentDigits exponent s else .error s
    else .ok exponent

/-- The digits of an exponent, behind its sign. -/
def exponent (negative : Bool) (n : Scaled) (below : Bool) (s : List Char) :
    Except Halt (JsonNumber × List Char) :=
  match s with
  | [] => .error (.at .endInValue [])
  | c :: _ =>
    if !c.isDigit then .error (.at .invalidNumber s)
    else
      let rest := s.dropWhile Char.isDigit
      match exponentDigits 0 s with
      | .ok power =>
        real negative ⟨n.significand, if below then n.exponent - power else n.exponent + power⟩ rest
      | .error after =>
        if n.significand ≠ 0 ∧ !below then .error (.before .numberOutOfRange after)
        else .ok (.real (if negative then -0.0 else 0.0), rest)

/-- What may follow the digits of a number with a point: an exponent. -/
def afterPlaces (negative : Bool) (n : Scaled) (s : List Char) :
    Except Halt (JsonNumber × List Char) :=
  match s with
  | 'e' :: '+' :: s | 'E' :: '+' :: s => exponent negative n false s
  | 'e' :: '-' :: s | 'E' :: '-' :: s => exponent negative n true s
  | 'e' :: s | 'E' :: s => exponent negative n false s
  | s => real negative n s

/-- What may follow the digits in front of the point. -/
def afterWhole (negative : Bool) (n : Scaled) (s : List Char) :
    Except Halt (JsonNumber × List Char) :=
  match s with
  | '.' :: s =>
    let rest := s.dropWhile Char.isDigit
    match s.takeWhile Char.isDigit with
    | [] => .error (.at (if rest.isEmpty then .endInValue else .invalidNumber) rest)
    | digits => afterPlaces negative (n.pushPlaces digits) rest
  | 'e' :: _ | 'E' :: _ => afterPlaces negative n s
  | s =>
    if n.exponent = 0 then .ok (Scaled.integer negative n.significand, s) else real negative n s

/-- A number without its sign.  No digit may follow a leading zero. -/
def unsigned (negative : Bool) (s : List Char) : Except Halt (JsonNumber × List Char) :=
  match s with
  | [] => .error (.at .endInValue [])
  | '0' :: rest =>
    if (rest.takeWhile Char.isDigit).isEmpty then afterWhole negative ⟨0, 0⟩ rest
    else .error (.at .invalidNumber rest)
  | c :: _ =>
    if c.isDigit then
      afterWhole negative (Scaled.pushWhole ⟨0, 0⟩ (s.takeWhile Char.isDigit))
        (s.dropWhile Char.isDigit)
    else .error (.at .invalidNumber s)

theorem eq_of_real {negative : Bool} {n : Scaled} {s rest : List Char} {x : JsonNumber}
    (h : real negative n s = .ok (x, rest)) : rest = s := by
  unfold real at h
  split at h <;> simp_all

theorem length_le_of_exponent {negative below : Bool} {n : Scaled} {s rest : List Char}
    {x : JsonNumber} (h : exponent negative n below s = .ok (x, rest)) :
    rest.length ≤ s.length := by
  unfold exponent at h
  split at h
  · simp at h
  · split at h
    · simp at h
    · dsimp only at h
      split at h
      · rw [eq_of_real h]
        exact length_dropWhile_le ..
      · split at h
        · simp at h
        · obtain ⟨_, rfl⟩ := by simpa using h
          exact length_dropWhile_le ..

theorem length_le_of_afterPlaces {negative : Bool} {n : Scaled} {s rest : List Char}
    {x : JsonNumber} (h : afterPlaces negative n s = .ok (x, rest)) :
    rest.length ≤ s.length := by
  unfold afterPlaces at h
  split at h
  all_goals first
    | exact Nat.le_of_eq (congrArg List.length (eq_of_real h))
    | have := length_le_of_exponent h; simp only [List.length_cons]; omega

theorem length_le_of_afterWhole {negative : Bool} {n : Scaled} {s rest : List Char}
    {x : JsonNumber} (h : afterWhole negative n s = .ok (x, rest)) :
    rest.length ≤ s.length := by
  unfold afterWhole at h
  split at h
  · rename_i s
    have := length_dropWhile_le Char.isDigit s
    dsimp only at h
    split at h
    · simp at h
    · have := length_le_of_afterPlaces h
      simp only [List.length_cons]
      omega
  · exact length_le_of_afterPlaces h
  · exact length_le_of_afterPlaces h
  · split at h
    · simp_all
    · exact Nat.le_of_eq (congrArg List.length (eq_of_real h))

/-- A number has at least one character. -/
theorem length_lt_of_unsigned {negative : Bool} {s rest : List Char} {x : JsonNumber}
    (h : unsigned negative s = .ok (x, rest)) : rest.length < s.length := by
  unfold unsigned at h
  split at h
  · simp at h
  · split at h
    · exact Nat.lt_succ_of_le (length_le_of_afterWhole h)
    · simp at h
  · rename_i c s _
    split at h
    · rename_i hc
      have := length_le_of_afterWhole h
      rw [List.dropWhile_cons_of_pos hc] at this
      exact Nat.lt_succ_of_le (Nat.le_trans this (length_dropWhile_le ..))
    · simp at h

end Reckoner.Json
