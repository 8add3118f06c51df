import Reckoner.Json.Fault

/-!
# Json — places in a text

What is left of a text while it is read, and where in the text a fault is.  A fault is first placed
by the number of bytes behind it, which needs nothing but what is left; `Halt.fault` turns that into
the line and the column.
-/

namespace Reckoner.Json

/-- The length of a text in bytes. -/
def byteLength (s : List Char) : Nat :=
  s.foldl (fun n c => n + c.utf8Size) 0

/-- A fault of a text, placed by the number of bytes behind it. -/
structure Halt where
  objection : Objection
  behind    : Nat

/-- A fault of the first byte of what is left, placed behind that byte; at the end of the text, if
nothing is left. -/
def Halt.at (objection : Objection) (s : List Char) : Halt :=
  ⟨objection, byteLength s - 1⟩

/-- A fault of what has been read, placed before what is left. -/
def Halt.before (objection : Objection) (s : List Char) : Halt :=
  ⟨objection, byteLength s⟩

/-- What was read off the front of `s`, and what is left. -/
structure Parsed (α : Type) (s : List Char) where
  value   : α
  rest    : List Char
  shorter : rest.length < s.length

/-- The four characters that may stand between the parts of a value. -/
def isSpace (c : Char) : Bool :=
  c == ' ' || c == '\n' || c == '\t' || c == '\r'

/-- What is left behind blanks. -/
def skipSpace (s : List Char) : List Char :=
  s.dropWhile isSpace

theorem length_dropWhile_le {α : Type} (p : α → Bool) (s : List α) :
    (s.dropWhile p).length ≤ s.length :=
  (List.dropWhile_suffix p).sublist.length_le

theorem length_skipSpace_le (s : List Char) : (skipSpace s).length ≤ s.length :=
  length_dropWhile_le isSpace s

theorem length_lt_of_skipSpace {s rest : List Char} {c : Char} (h : skipSpace s = c :: rest) :
    rest.length < s.length := by
  have := length_skipSpace_le s
  rwa [h] at this

/-- The line and the column at which a byte stands, both counted from where the count begins. -/
def place (line column : Nat) (bytes : Nat) : List Char → Nat × Nat
  | [] => (line, column)
  | c :: s =>
    if bytes < c.utf8Size then (line, column + bytes)
    else if c = '\n' then place (line + 1) 0 (bytes - 1) s
    else place line (column + c.utf8Size) (bytes - c.utf8Size) s

/-- A fault with the line and the column of the text it is in. -/
def Halt.fault (halt : Halt) (s : List Char) : Fault :=
  let (line, column) := place 1 0 (byteLength s - halt.behind) s
  .text halt.objection line column

end Reckoner.Json
