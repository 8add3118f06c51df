import Reckoner.Decimal.Layout
import Reckoner.Operator

/-!
# Expr — expression trees

A tree is a number or an operator over two trees; negation is subtraction from zero.  `Expr.text`
writes a tree with parentheses around every operator.  It keeps its own list of what is left to
write, so that no tree is too deep for it; **it writes what `Expr.spelling` describes by recursion**
(`text_eq_spelling`).
-/

namespace Reckoner

/-- An expression tree. -/
inductive Expr where
  | literal (value : Float)
  | binary (op : Operator) (left right : Expr)
  deriving DecidableEq, Repr

namespace Expr

/-- The negation `-e`, read as `0 - e`. -/
def negate (e : Expr) : Expr :=
  .binary .sub (.literal 0) e

/-- The number of nodes of a tree. -/
def size : Expr → Nat
  | literal _           => 1
  | binary _ left right => left.size + right.size + 1

/-- A tree in parentheses, by recursion on the tree. -/
def spelling : Expr → String
  | literal value        => Layout.plain.text value
  | binary op left right =>
    "(" ++ (left.spelling ++ (" " ++ op.symbol ++ " " ++ (right.spelling ++ ")")))

/-- Something left to write: a tree, or characters as they are. -/
inductive Piece where
  | tree (e : Expr)
  | chars (cs : String)

namespace Piece

/-- What a piece is to look like. -/
def spelling : Piece → String
  | tree e   => e.spelling
  | chars cs => cs

/-- A bound on the steps that a piece takes to write. -/
def weight : Piece → Nat
  | tree e  => 4 * e.size
  | chars _ => 1

/-- A bound on the steps that a list of pieces takes to write. -/
def weights : List Piece → Nat
  | []            => 0
  | piece :: rest => piece.weight + weights rest

end Piece

/-- Writes pieces in order behind `out`. -/
def write (out : String) : List Piece → String
  | [] => out
  | .chars cs :: rest => write (out ++ cs) rest
  | .tree (.literal value) :: rest => write (out ++ Layout.plain.text value) rest
  | .tree (.binary op left right) :: rest =>
    write (out ++ "(") (.tree left :: .chars (" " ++ op.symbol ++ " ") :: .tree right ::
      .chars ")" :: rest)
termination_by todo => Piece.weights todo
decreasing_by all_goals simp only [Piece.weights, Piece.weight, size]; omega

/-- A tree in parentheses. -/
def text (e : Expr) : String :=
  write "" [.tree e]

/-- Writing appends the pieces' own spellings in order. -/
theorem write_eq (out : String) (todo : List Piece) :
    write out todo = out ++ todo.foldr (fun piece s => piece.spelling ++ s) "" := by
  fun_induction write out todo with
  | case1 => simp
  | case2 out cs rest ih => simp [ih, Piece.spelling, String.append_assoc]
  | case3 out value rest ih => simp [ih, Piece.spelling, spelling, String.append_assoc]
  | case4 out op left right rest ih =>
    rw [ih]
    simp [Piece.spelling, spelling, String.append_assoc]

/-- The list of pieces writes what the recursion describes. -/
theorem text_eq_spelling (e : Expr) : e.text = e.spelling := by
  simp [text, write_eq, Piece.spelling]

end Expr

end Reckoner
