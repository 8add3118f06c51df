import Reckoner.Json.Characters
import Reckoner.Json.Numeral

/-!
# Json — reading a text as a value

`Json.read` takes a whole text, with blanks around it, and gives its value or the first fault with
its line and column.  Arrays and objects may be nested `nestingRoom` deep.  Of repeated members the
last one counts.
-/

namespace Reckoner.Json

/-- How deep arrays and objects may be nested. -/
def nestingRoom : Nat := 127

/-- What is left behind the letters of a word. -/
def afterWord : (letters : List Char) → List Char → Except Halt (List Char)
  | [], s => .ok s
  | _ :: _, [] => .error (.at .endInValue [])
  | letter :: letters, c :: s =>
    if c = letter then afterWord letters s else .error (.at .expectedWord (c :: s))

theorem length_le_of_afterWord {letters s rest : List Char}
    (h : afterWord letters s = .ok rest) : rest.length ≤ s.length := by
  induction letters generalizing s with
  | nil => simp_all [afterWord]
  | cons letter letters ih =>
    cases s with
    | nil => simp [afterWord] at h
    | cons c s =>
      simp only [afterWord] at h
      split at h
      · exact Nat.le_succ_of_le (ih h)
      · simp at h

/-- A word whose first letter stood before `rest`. -/
def wordValue (letters : List Char) (value : Json) {s : List Char} (rest : List Char)
    (h : rest.length < s.length) : Except Halt (Parsed Json s) :=
  match h' : afterWord letters rest with
  | .error e => .error e
  | .ok after => .ok ⟨value, after, Nat.lt_of_le_of_lt (length_le_of_afterWord h') h⟩

/-- A number whose sign, if any, stood before `rest`. -/
def numberValue (negative : Bool) {s : List Char} (rest : List Char)
    (h : rest.length ≤ s.length) : Except Halt (Parsed Json s) :=
  match h' : unsigned negative rest with
  | .error e => .error e
  | .ok (n, after) => .ok ⟨.number n, after, Nat.lt_of_lt_of_le (length_lt_of_unsigned h') h⟩

/-- A text whose opening mark stood before `rest`. -/
def textValue {s : List Char} (rest : List Char) (h : rest.length < s.length) :
    Except Halt (Parsed Json s) :=
  match h' : chars [] rest with
  | .error e => .error e
  | .ok (text, after) => .ok ⟨.string text, after, Nat.lt_trans (length_lt_of_chars h') h⟩

/-- A value without parts, of which `c` is the first character and `rest` stands behind it. -/
def simpleValue (c : Char) {s : List Char} (rest : List Char) (h : rest.length < s.length) :
    Except Halt (Parsed Json s) :=
  match c with
  | 'n' => wordValue ['u', 'l', 'l'] .null rest h
  | 't' => wordValue ['r', 'u', 'e'] (.bool true) rest h
  | 'f' => wordValue ['a', 'l', 's', 'e'] (.bool false) rest h
  | '"' => textValue rest h
  | '-' => numberValue true rest (Nat.le_of_lt h)
  | c   =>
    if c.isDigit then numberValue false (c :: rest) h
    else .error (.at .expectedValue (c :: rest))

/-- What comes next within brackets: their end, or a part, in front of `rest`. -/
inductive Next where
  | closed (rest : List Char)
  | part (rest : List Char)

/-- What comes next in an array, of which `first` says whether it is just open. -/
def nextItem (first : Bool) (s : List Char) : Except Halt Next :=
  match skipSpace s with
  | [] => .error (.at .endInList [])
  | ']' :: rest => .ok (.closed rest)
  | c :: rest =>
    if first then .ok (.part (c :: rest))
    else if c ≠ ',' then .error (.at .expectedListEnd (c :: rest))
    else match skipSpace rest with
      | [] => .error (.at .endInValue [])
      | ']' :: rest => .error (.at .trailingComma (']' :: rest))
      | rest => .ok (.part rest)

/-- What comes next in an object, of which `first` says whether it is just open.  A member is left
in front of its name's first character. -/
def nextMember (first : Bool) (s : List Char) : Except Halt Next :=
  match skipSpace s with
  | [] => .error (.at .endInObject [])
  | '\x7d' :: rest => .ok (.closed rest)
  | c :: rest =>
    if first then
      if c = '"' then .ok (.part rest) else .error (.at .keyNotString (c :: rest))
    else if c ≠ ',' then .error (.at .expectedObjectEnd (c :: rest))
    else match skipSpace rest with
      | [] => .error (.at .endInValue [])
      | '"' :: rest => .ok (.part rest)
      | '\x7d' :: rest => .error (.at .trailingComma ('\x7d' :: rest))
      | rest => .error (.at .keyNotString rest)

/-- What is left behind a colon. -/
def afterColon (s : List Char) : Except Halt (List Char) :=
  match skipSpace s with
  | [] => .error (.at .endInObject [])
  | ':' :: rest => .ok rest
  | rest => .error (.at .expectedColon rest)

/-- The name of a member, and what is left behind its colon. -/
def memberName (s : List Char) : Except Halt (String × List Char) :=
  match chars [] s with
  | .error e => .error e
  | .ok (name, rest) => (afterColon rest).map (name, ·)

/-- How much is left: less behind an end, no more before a part. -/
theorem length_of_nextItem {first : Bool} {s : List Char} {next : Next}
    (h : nextItem first s = .ok next) :
    match next with
    | .closed rest => rest.length < s.length
    | .part rest => rest.length ≤ s.length := by
  have hs := length_skipSpace_le s
  unfold nextItem at h
  split at h
  · simp at h
  · rename_i e
    obtain rfl := by simpa using h
    simp only [e, List.length_cons] at hs ⊢
    omega
  · rename_i c rest _ e
    have hrest := length_skipSpace_le rest
    simp only [e, List.length_cons] at hs
    split at h
    · obtain rfl := by simpa using h
      simpa using hs
    · split at h
      · simp at h
      · split at h
        · simp at h
        · simp at h
        · obtain rfl := by simpa using h
          dsimp only
          omega

/-- How much is left: less behind an end, and less before a part. -/
theorem length_of_nextMember {first : Bool} {s : List Char} {next : Next}
    (h : nextMember first s = .ok next) :
    match next with
    | .closed rest => rest.length < s.length
    | .part rest => rest.length < s.length := by
  have hs := length_skipSpace_le s
  unfold nextMember at h
  split at h
  · simp at h
  · rename_i e
    obtain rfl := by simpa using h
    simp only [e, List.length_cons] at hs ⊢
    omega
  · rename_i c rest _ e
    have hrest := length_skipSpace_le rest
    simp only [e, List.length_cons] at hs
    split at h
    · split at h
      · obtain rfl := by simpa using h
        dsimp only
        omega
      · simp at h
    · split at h
      · simp at h
      · split at h
        · simp at h
        · rename_i e'
          obtain rfl := by simpa using h
          simp only [e', List.length_cons] at hrest
          dsimp only
          omega
        · simp at h
        · simp at h

theorem length_lt_of_memberName {s rest : List Char} {name : String}
    (h : memberName s = .ok (name, rest)) : rest.length < s.length := by
  unfold memberName at h
  split at h
  · simp at h
  · rename_i name' rest' h'
    have hs := length_skipSpace_le rest'
    have := length_lt_of_chars h'
    unfold afterColon at h
    split at h
    · simp [Except.map] at h
    · rename_i e
      obtain ⟨_, rfl⟩ := by simpa [Except.map] using h
      simp only [e, List.length_cons] at hs
      omega
    · simp [Except.map] at h

mutual

/-- A value, with `room` for nesting in it. -/
def value (room : Nat) (s : List Char) : Except Halt (Parsed Json s) :=
  match hs : skipSpace s with
  | [] => .error (.at .endInValue [])
  | '[' :: rest =>
    have hrest := length_lt_of_skipSpace hs
    match room with
    | 0 => .error (.at .nestedTooDeeply ('[' :: rest))
    | room + 1 =>
      match items room true [] rest (Nat.le_refl _) with
      | .error e => .error e
      | .ok ⟨items, after, h⟩ => .ok ⟨.array items, after, Nat.lt_trans h hrest⟩
  | '\x7b' :: rest =>
    have hrest := length_lt_of_skipSpace hs
    match room with
    | 0 => .error (.at .nestedTooDeeply ('\x7b' :: rest))
    | room + 1 =>
      match members room true [] rest (Nat.le_refl _) with
      | .error e => .error e
      | .ok ⟨members, after, h⟩ => .ok ⟨.object members, after, Nat.lt_trans h hrest⟩
  | c :: rest => simpleValue c rest (length_lt_of_skipSpace hs)
termination_by (s.length, 0)

/-- The items of an array up to its end; `done` holds those read so far, the last one first. -/
def items (room : Nat) (first : Bool) (done : List Json) {start : List Char} (s : List Char)
    (hs : s.length ≤ start.length) : Except Halt (Parsed (List Json) start) :=
  match h : nextItem first s with
  | .error e => .error e
  | .ok (.closed rest) =>
    .ok ⟨done.reverse, rest, Nat.lt_of_lt_of_le (length_of_nextItem h) hs⟩
  | .ok (.part rest) =>
    have hrest : rest.length ≤ s.length := length_of_nextItem h
    match value room rest with
    | .error e => .error e
    | .ok ⟨item, after, hafter⟩ =>
      items room false (item :: done) after
        (Nat.le_trans (Nat.le_of_lt hafter) (Nat.le_trans hrest hs))
termination_by (s.length, 1)
decreasing_by all_goals simp only [Prod.lex_def]; omega

/-- The members of an object up to its end, added to those read so far. -/
def members (room : Nat) (first : Bool) (done : NameMap Json) {start : List Char} (s : List Char)
    (hs : s.length ≤ start.length) : Except Halt (Parsed (NameMap Json) start) :=
  match h : nextMember first s with
  | .error e => .error e
  | .ok (.closed rest) =>
    .ok ⟨done, rest, Nat.lt_of_lt_of_le (length_of_nextMember h) hs⟩
  | .ok (.part rest) =>
    have hrest : rest.length < s.length := length_of_nextMember h
    match h' : memberName rest with
    | .error e => .error e
    | .ok (name, behind) =>
      have hbehind := length_lt_of_memberName h'
      match value room behind with
      | .error e => .error e
      | .ok ⟨member, after, hafter⟩ =>
        members room false (done.insert name member) after (by omega)
termination_by (s.length, 1)
decreasing_by all_goals simp only [Prod.lex_def]; omega

end

/-- The value that the characters of a text spell, with nothing but blanks around it. -/
def readChars (s : List Char) : Except Fault Json :=
  match value nestingRoom s with
  | .error halt => .error (halt.fault s)
  | .ok ⟨j, rest, _⟩ =>
    match skipSpace rest with
    | [] => .ok j
    | behind => .error ((Halt.at .trailingCharacters behind).fault s)

/-- The value that a text spells. -/
def read (text : String) : Except Fault Json :=
  readChars text.toList

end Reckoner.Json
