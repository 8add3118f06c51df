import Reckoner.Expr.Chain
import Reckoner.Failure

/-!
# Expr — reading tokens as a tree

The grammar, from the weakest binding to the strongest:

    sum     := product (("+" | "-") product)*
    product := power (("*" | "/" | "%" | "//") power)*
    power   := unary ("**" unary)*
    unary   := "-"? atom
    atom    := NUMBER | "(" sum ")"

`Cursor.read` reads one of the five levels at a cursor, which holds the tokens ahead and the number
of parentheses open.  The first three levels are chains, collected in a loop and grouped
afterwards, so that a chain may be as long as it likes; parentheses nest `nestingLimit` deep and no
deeper.  Every reading carries the proof that it never steps back, which is why it ends.
-/

namespace Reckoner

/-- How deep parentheses may nest. -/
def nestingLimit : Nat := 200

/-- A place in a list of tokens: what is ahead, and how many parentheses are open. -/
structure Cursor where
  ahead : List PlacedToken
  depth : Nat

/-- A level of the grammar. -/
inductive Level where
  | sum
  | product
  | power
  | unary
  | atom
  deriving DecidableEq, Repr

/-- How many levels lie below, those that bind more strongly. -/
def Level.below : Level → Nat
  | .sum     => 4
  | .product => 3
  | .power   => 2
  | .unary   => 1
  | .atom    => 0

/-- What comes of reading at `start`: a tree or a failure, and where the reading ended. -/
structure Reading (start : Cursor) where
  result  : Except Failure Expr
  cursor  : Cursor
  forward : cursor.ahead.length ≤ start.ahead.length

namespace Cursor

/-- The operator ahead if it binds with this strength, and the cursor behind it. -/
def operator? (strength : Nat) (c : Cursor) : Option (Operator × Cursor) :=
  match c.ahead with
  | ⟨.operator op, _⟩ :: rest =>
    if op.precedence = strength then some (op, { c with ahead := rest }) else none
  | _ => none

theorem length_lt_of_operator? {strength : Nat} {c next : Cursor} {op : Operator}
    (h : c.operator? strength = some (op, next)) : next.ahead.length < c.ahead.length := by
  unfold operator? at h
  split at h
  · rename_i e
    split at h
    · obtain ⟨rfl, rfl⟩ := by simpa using h
      simp [e]
    · simp at h
  · simp at h

/-- A way to read at every cursor no further back than `start`. -/
def Operand (start : Cursor) : Type :=
  (c : Cursor) → c.ahead.length ≤ start.ahead.length → Reading c

/-- The links of a chain from `c` on: operators of one strength, each with its operand.  `done`
holds the links read so far, the last one first. -/
def links (strength : Nat) {start : Cursor} (operand : Operand start) (first : Expr)
    (done : List (Operator × Expr)) (c : Cursor) (hc : c.ahead.length ≤ start.ahead.length) :
    Reading start :=
  match h : c.operator? strength with
  | none => ⟨.ok (.ofChain first done.reverse), c, hc⟩
  | some (op, next) =>
    have hnext := Nat.le_of_lt (length_lt_of_operator? h)
    match operand next (Nat.le_trans hnext hc) with
    | ⟨.error e, after, hafter⟩ => ⟨.error e, after, Nat.le_trans hafter (Nat.le_trans hnext hc)⟩
    | ⟨.ok e, after, hafter⟩ =>
      links strength operand first ((op, e) :: done) after
        (Nat.le_trans hafter (Nat.le_trans hnext hc))
termination_by c.ahead.length
decreasing_by exact Nat.lt_of_le_of_lt hafter (length_lt_of_operator? h)

/-- A chain: an operand and the links behind it. -/
def chain (strength : Nat) {start : Cursor} (operand : Operand start) : Reading start :=
  match operand start (Nat.le_refl _) with
  | ⟨.error e, after, hafter⟩ => ⟨.error e, after, hafter⟩
  | ⟨.ok first, after, hafter⟩ => links strength operand first [] after hafter

/-- Reads one level of the grammar at a cursor.  A failure for want of tokens is placed at `stop`,
the end of the text. -/
def read (stop : Nat) (level : Level) (start : Cursor) : Reading start :=
  match level with
  | .sum => chain Operator.add.precedence fun c _ => read stop .product c
  | .product => chain Operator.mul.precedence fun c _ => read stop .power c
  | .power => chain Operator.pow.precedence fun c _ => read stop .unary c
  | .unary =>
    match h : start.ahead with
    | ⟨.operator .sub, _⟩ :: rest =>
      match read stop .atom { start with ahead := rest } with
      | ⟨result, after, hafter⟩ =>
        ⟨result.map .negate, after, Nat.le_trans hafter (by simp [h])⟩
    | _ => read stop .atom start
  | .atom =>
    match h : start.ahead with
    | [] => ⟨.error (.malformed .unexpectedEnd stop), start, Nat.le_refl _⟩
    | ⟨.number value, _⟩ :: rest =>
      ⟨.ok (.literal value), { start with ahead := rest }, by simp [h]⟩
    | ⟨.opening, position⟩ :: ⟨.closing, closing⟩ :: rest =>
      ⟨.error (.malformed .emptyParentheses position),
        { start with ahead := ⟨.closing, closing⟩ :: rest }, by simp [h]⟩
    | ⟨.opening, position⟩ :: rest =>
      if nestingLimit ≤ start.depth then
        ⟨.error (.malformed .nestedTooDeeply position), { start with ahead := rest }, by simp [h]⟩
      else
        match read stop .sum ⟨rest, start.depth + 1⟩ with
        | ⟨.error e, after, hafter⟩ =>
          ⟨.error e, { after with depth := after.depth - 1 }, Nat.le_trans hafter (by simp [h])⟩
        | ⟨.ok e, after, hafter⟩ =>
          match h' : after.ahead with
          | [] =>
            ⟨.error (.malformed .missingClosing stop), { after with depth := after.depth - 1 },
              Nat.le_trans hafter (by simp [h])⟩
          | ⟨.closing, _⟩ :: behind =>
            ⟨.ok e, ⟨behind, after.depth - 1⟩, by
              have := hafter; simp only [h, h', List.length_cons] at *; omega⟩
          | ⟨found, position⟩ :: behind =>
            ⟨.error (.malformed (.expectedClosing found) position), ⟨behind, after.depth - 1⟩, by
              have := hafter; simp only [h, h', List.length_cons] at *; omega⟩
    | ⟨found, position⟩ :: rest =>
      ⟨.error (.malformed (.expectedOperand found) position), { start with ahead := rest },
        by simp [h]⟩
termination_by (start.ahead.length, level.below)
decreasing_by
  all_goals simp_all [Prod.lex_def, Level.below] <;> omega

end Cursor

namespace Expr

/-- Where the text of some tokens ends: behind the last of them. -/
def endOf (tokens : List PlacedToken) : Nat :=
  match tokens.getLast? with
  | none => 0
  | some last => last.position + last.token.text.utf8ByteSize

/-- The tree of a list of tokens, all of which have to belong to it. -/
def ofTokens (tokens : List PlacedToken) : Except Failure Expr :=
  if tokens.isEmpty then .error (.malformed .emptyExpression 0)
  else
    match Cursor.read (endOf tokens) .sum ⟨tokens, 0⟩ with
    | ⟨.error e, _, _⟩ => .error e
    | ⟨.ok e, after, _⟩ =>
      match after.ahead with
      | [] => .ok e
      | ⟨found, position⟩ :: _ => .error (.malformed (.unexpectedToken found) position)

end Expr

end Reckoner
