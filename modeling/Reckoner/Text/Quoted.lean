import Reckoner.Text.Unprintable

/-!
# Text — quoted text in messages

A message that names a text it did not expect puts it between quotation marks and escapes what
could be misread: the mark itself, the backslash, line breaks and tabs, and every character that
shows nothing by itself, which is written by its code point.
-/

namespace Reckoner.Text

/-- A code point between braces, in lower-case hexadecimal digits. -/
def codePointEscape (c : Char) : List Char :=
  ['\\', 'u', '\x7b'] ++ Nat.toDigits 16 c.toNat ++ ['\x7d']

/-- One character as it stands between quotation marks. -/
def escaped (c : Char) : List Char :=
  match c with
  | '\x00' => ['\\', '0']
  | '\t'   => ['\\', 't']
  | '\r'   => ['\\', 'r']
  | '\n'   => ['\\', 'n']
  | '"'    => ['\\', '"']
  | '\\'   => ['\\', '\\']
  | _      => if isUnprintable c then codePointEscape c else [c]

/-- A text between quotation marks. -/
def quoted (s : String) : String :=
  String.ofList ('"' :: s.toList.flatMap escaped ++ ['"'])

end Reckoner.Text
