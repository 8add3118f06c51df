import Reckoner.Text.Blank

/-!
# Text — one spelling for every expression

Blanks mean nothing in an expression, and three signs have an ASCII spelling.  `normalize` leaves
blanks out and writes those signs out; every later step, and every position in a message, refers
to the normalized text.
-/

namespace Reckoner.Text

/-- What stands for a character in normalized text. -/
def plainSpelling (c : Char) : List Char :=
  if isBlank c then []
  else match c with
    | '×' => ['*']
    | '÷' => ['/']
    | '^' => ['*', '*']
    | c   => [c]

/-- A text in its one spelling. -/
def normalize (s : List Char) : List Char :=
  s.flatMap plainSpelling

@[simp] theorem normalize_nil : normalize [] = [] := rfl

@[simp] theorem normalize_append (s t : List Char) :
    normalize (s ++ t) = normalize s ++ normalize t :=
  List.flatMap_append ..

end Reckoner.Text
