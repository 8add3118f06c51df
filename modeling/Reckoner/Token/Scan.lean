import Reckoner.Failure
import Reckoner.Text.Glyph
import Reckoner.Token.Lexeme

/-!
# Token — from text to tokens

`tokenize` normalizes a text and checks three things in turn: that its parentheses are balanced,
that it is lexemes from end to end, and that no two operators meet.  The first check that fails
decides the failure.
-/

namespace Reckoner.Token

/-- Whether every `)` closes an earlier `(` and every `(` is closed, with `depth` open already. -/
def balancedFrom : (depth : Nat) → List Char → Bool
  | depth, [] => depth == 0
  | depth, '(' :: s => balancedFrom (depth + 1) s
  | 0, ')' :: _ => false
  | depth + 1, ')' :: s => balancedFrom depth s
  | depth, _ :: s => balancedFrom depth s

/-- Whether the parentheses of a text are balanced. -/
def balanced (s : List Char) : Bool :=
  balancedFrom 0 s

/-- What to say where no lexeme starts: a point is a character of the language, though it makes no
number by itself. -/
def strayCharacter (c : Char) (position : Nat) : Failure :=
  if c = '.' then .malformed .barePoint position else .invalidCharacter c position

/-- The lexemes of a text one after another, each with its position; `done` holds those found so
far, the last one first.  A lexeme has one byte per character. -/
def scanFrom (position : Nat) (done : List PlacedToken) (s : List Char) :
    Except Failure (List PlacedToken) :=
  match _h : Lexeme.next? s with
  | some (lexeme, rest) =>
    scanFrom (position + lexeme.text.length) (⟨lexeme.token, position⟩ :: done) rest
  | none =>
    match s with
    | [] => .ok done.reverse
    | c :: _ => .error (strayCharacter c position)
termination_by s.length
decreasing_by exact Lexeme.length_lt_of_next? _h

/-- The tokens of a normalized text. -/
def scan (s : List Char) : Except Failure (List PlacedToken) :=
  scanFrom 0 [] s

/-- The position of the first operator that follows an operator. -/
def operatorAfterOperator? : List PlacedToken → Option Nat
  | a :: b :: ts =>
    if a.token.isOperator && b.token.isOperator then some b.position
    else operatorAfterOperator? (b :: ts)
  | _ => none

/-- The tokens of an expression's characters. -/
def tokenizeChars (expression : List Char) : Except Failure (List PlacedToken) := do
  let s := Text.normalize expression
  if !balanced s then
    throw .unbalancedParentheses
  let tokens ← scan s
  match operatorAfterOperator? tokens with
  | some position => throw (.consecutiveOperators position)
  | none => pure tokens

/-- The tokens of an expression. -/
def tokenize (expression : String) : Except Failure (List PlacedToken) :=
  tokenizeChars expression.toList

end Reckoner.Token
