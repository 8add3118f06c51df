import Reckoner.Decimal.Layout
import Reckoner.Json.Basic

/-!
# Json — writing values as text

`Json.compact` writes a value without blanks, `Json.pretty` with a line for every item and member,
two blanks deeper than what holds it.
-/

namespace Reckoner

/-- The text of a number. -/
def JsonNumber.text : JsonNumber → String
  | natural n  => toString n
  | negative n => toString n
  | real x     => Layout.json.text x

namespace Json

/-- A character as it stands between quotation marks: the mark, the backslash and the controls are
escaped. -/
def escaped (c : Char) : List Char :=
  match c with
  | '"'    => ['\\', '"']
  | '\\'   => ['\\', '\\']
  | '\x08' => ['\\', 'b']
  | '\t'   => ['\\', 't']
  | '\n'   => ['\\', 'n']
  | '\x0c' => ['\\', 'f']
  | '\r'   => ['\\', 'r']
  | c      =>
    if c.toNat < 0x10 then ['\\', 'u', '0', '0', '0'] ++ Nat.toDigits 16 c.toNat
    else if c.toNat < 0x20 then ['\\', 'u', '0', '0'] ++ Nat.toDigits 16 c.toNat
    else [c]

/-- A text between quotation marks. -/
def quoted (s : String) : String :=
  String.ofList ('"' :: s.toList.flatMap escaped ++ ['"'])

/-- What stands between the parts of an array or object: before the first part, before a further
one, between a name and its value, and before the closing bracket. -/
structure Spacing where
  first   : String
  further : String
  colon   : String
  last    : String

/-- How a text is spaced, by the depth of what is spaced. -/
abbrev Style : Type := Nat → Spacing

/-- No blanks. -/
def compactStyle : Style := fun _ => ⟨"", ",", ":", ""⟩

/-- A new line, indented by two blanks a level. -/
def newline (depth : Nat) : String :=
  "\n" ++ String.ofList (List.replicate (2 * depth) ' ')

/-- Every part on a line of its own. -/
def prettyStyle : Style := fun depth =>
  ⟨newline (depth + 1), "," ++ newline (depth + 1), ": ", newline depth⟩

mutual

/-- Writes a value behind `out`. -/
def write (style : Style) (depth : Nat) (out : String) : Json → String
  | null                => out ++ "null"
  | bool true           => out ++ "true"
  | bool false          => out ++ "false"
  | number n            => out ++ n.text
  | string s            => out ++ quoted s
  | array []            => out ++ "[]"
  | array (item :: items) =>
    let out := write style (depth + 1) (out ++ "[" ++ (style depth).first) item
    writeItems style depth out items
  | object []           => out ++ "\x7b\x7d"
  | object ((name, value) :: members) =>
    let out := out ++ "\x7b" ++ (style depth).first ++ quoted name ++ (style depth).colon
    writeMembers style depth (write style (depth + 1) out value) members

/-- Writes the further items of an array and closes it. -/
def writeItems (style : Style) (depth : Nat) (out : String) : List Json → String
  | []            => out ++ (style depth).last ++ "]"
  | item :: items =>
    writeItems style depth (write style (depth + 1) (out ++ (style depth).further) item) items

/-- Writes the further members of an object and closes it. -/
def writeMembers (style : Style) (depth : Nat) (out : String) : List (String × Json) → String
  | []                       => out ++ (style depth).last ++ "\x7d"
  | (name, value) :: members =>
    let out := out ++ (style depth).further ++ quoted name ++ (style depth).colon
    writeMembers style depth (write style (depth + 1) out value) members

end

/-- A value on one line, without blanks. -/
def compact (j : Json) : String :=
  j.write compactStyle 0 ""

/-- A value over several lines. -/
def pretty (j : Json) : String :=
  j.write prettyStyle 0 ""

end Json

end Reckoner
