import Reckoner.Json.Halt

/-!
# Json — reading texts

The characters between two quotation marks, with their escapes.  A character outside the basic
plane may be written as two codes, each a half of it; a half by itself is refused.
-/

namespace Reckoner.Json

/-- The value of a hexadecimal digit. -/
def hexDigit? (c : Char) : Option Nat :=
  if c.isDigit then some (c.toNat - '0'.toNat)
  else if 'a' ≤ c ∧ c ≤ 'f' then some (c.toNat - 'a'.toNat + 10)
  else if 'A' ≤ c ∧ c ≤ 'F' then some (c.toNat - 'A'.toNat + 10)
  else none

/-- The number that hexadecimal digits spell. -/
def hexValue? (digits : List Char) : Option Nat :=
  digits.foldl (fun n? c => do return (← n?) * 16 + (← hexDigit? c)) (some 0)

/-- Where four hexadecimal digits are missing: four bytes are passed over, if there are so many. -/
def noHexWord (s : List Char) : Halt :=
  if byteLength s < 4 then .at .endInString [] else ⟨.invalidEscape, byteLength s - 4⟩

/-- Four hexadecimal digits. -/
def hexWord (s : List Char) : Except Halt (Nat × List Char) :=
  match s with
  | a :: b :: c :: d :: rest =>
    match hexValue? [a, b, c, d] with
    | some n => .ok (n, rest)
    | none => .error (noHexWord s)
  | _ => .error (noHexWord s)

/-- The second half of a character that is written as two codes. -/
def lowHalf (high : Nat) (s : List Char) : Except Halt (Char × List Char) :=
  match s with
  | '\\' :: 'u' :: rest =>
    match hexWord rest with
    | .error e => .error e
    | .ok (low, rest) =>
      if low < 0xDC00 ∨ 0xDFFF < low then .error (.before .loneSurrogate rest)
      else .ok (Char.ofNat ((high - 0xD800) * 0x400 + (low - 0xDC00) + 0x10000), rest)
  | '\\' :: rest => .error (.at (if rest.isEmpty then .endInString else .endOfHexEscape) rest)
  | rest => .error (.at (if rest.isEmpty then .endInString else .endOfHexEscape) rest)

/-- A character by its code, which may be the first of two halves. -/
def codeEscape (s : List Char) : Except Halt (Char × List Char) :=
  match hexWord s with
  | .error e => .error e
  | .ok (code, rest) =>
    if code < 0xD800 ∨ 0xDFFF < code then .ok (Char.ofNat code, rest)
    else if 0xDC00 ≤ code then .error (.before .loneSurrogate rest)
    else lowHalf code rest

/-- What stands behind a backslash. -/
def escape (s : List Char) : Except Halt (Char × List Char) :=
  match s with
  | []           => .error (.at .endInString [])
  | '"' :: rest  => .ok ('"', rest)
  | '\\' :: rest => .ok ('\\', rest)
  | '/' :: rest  => .ok ('/', rest)
  | 'b' :: rest  => .ok ('\x08', rest)
  | 'f' :: rest  => .ok ('\x0c', rest)
  | 'n' :: rest  => .ok ('\n', rest)
  | 'r' :: rest  => .ok ('\r', rest)
  | 't' :: rest  => .ok ('\t', rest)
  | 'u' :: rest  => codeEscape rest
  | s            => .error (.at .invalidEscape s)

theorem length_le_of_hexWord {s rest : List Char} {n : Nat} (h : hexWord s = .ok (n, rest)) :
    rest.length ≤ s.length := by
  unfold hexWord at h
  split at h
  · split at h
    · obtain ⟨_, rfl⟩ := by simpa using h
      simp only [List.length_cons]
      omega
    · simp at h
  · simp at h

theorem length_le_of_lowHalf {high : Nat} {s rest : List Char} {c : Char}
    (h : lowHalf high s = .ok (c, rest)) : rest.length ≤ s.length := by
  unfold lowHalf at h
  split at h
  · split at h
    · simp at h
    · rename_i h'
      have := length_le_of_hexWord h'
      split at h
      · simp at h
      · obtain ⟨_, rfl⟩ := by simpa using h
        simp only [List.length_cons]
        omega
  · simp at h
  · simp at h

theorem length_le_of_codeEscape {s rest : List Char} {c : Char}
    (h : codeEscape s = .ok (c, rest)) : rest.length ≤ s.length := by
  unfold codeEscape at h
  split at h
  · simp at h
  · rename_i h'
    have hle := length_le_of_hexWord h'
    split at h
    · obtain ⟨_, rfl⟩ := by simpa using h
      exact hle
    · split at h
      · simp at h
      · exact Nat.le_trans (length_le_of_lowHalf h) hle

theorem length_lt_of_escape {s rest : List Char} {c : Char} (h : escape s = .ok (c, rest)) :
    rest.length < s.length := by
  unfold escape at h
  split at h
  case h_10 => exact Nat.lt_succ_of_le (length_le_of_codeEscape h)
  all_goals first
    | simp at h; done
    | obtain ⟨_, rfl⟩ := by simpa using h
      simp

/-- The characters of a text up to its closing mark; `done` holds those read so far, the last one
first. -/
def chars (done : List Char) (s : List Char) : Except Halt (String × List Char) :=
  match s with
  | [] => .error (.at .endInString [])
  | '"' :: rest => .ok (String.ofList done.reverse, rest)
  | '\\' :: rest =>
    match _h : escape rest with
    | .error e => .error e
    | .ok (c, rest) => chars (c :: done) rest
  | c :: rest =>
    if c.toNat < 0x20 then .error (.at .controlCharacter s) else chars (c :: done) rest
termination_by s.length
decreasing_by
  · exact Nat.lt_succ_of_lt (length_lt_of_escape _h)
  · simp

/-- A text has at least its closing mark. -/
theorem length_lt_of_chars {done s rest : List Char} {text : String}
    (h : chars done s = .ok (text, rest)) : rest.length < s.length := by
  fun_induction chars done s with
  | case1 => simp at h
  | case2 =>
    obtain ⟨_, rfl⟩ := by simpa using h
    simp
  | case3 => simp at h
  | case4 done rest' c rest'' he ih =>
    have := ih h
    have := length_lt_of_escape he
    simp only [List.length_cons]
    omega
  | case5 => simp at h
  | case6 done c rest' _ _ _ ih => exact Nat.lt_succ_of_lt (ih h)

end Reckoner.Json
