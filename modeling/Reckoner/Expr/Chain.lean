import Reckoner.Expr.Basic

/-!
# Expr — chains of one strength

`a ∘ b ∘ c` with operators that bind equally strongly is one chain: a first operand and a list of
links, each an operator with its right operand.  A chain groups to the left, unless its operators
group to the right.  **Both groupings are plain recursions on the list** (`groupLeft_append_link`,
`groupRight_link`).
-/

namespace Reckoner.Expr

/-- The chain grouped to the left. -/
def groupLeft (first : Expr) (links : List (Operator × Expr)) : Expr :=
  links.foldl (fun e (op, operand) => .binary op e operand) first

/-- One link further back in a chain: the pending operator takes the operand in front of it, and
the operator in front of that operand is now pending. -/
def stepBack : Operator × Expr → Operator × Expr → Operator × Expr
  | (pending, e), (op, operand) => (op, .binary pending operand e)

/-- The chain grouped to the right: from the last operand back, each operator is pending until the
operand in front of it is met. -/
def groupRight (first : Expr) (links : List (Operator × Expr)) : Expr :=
  match links.reverse with
  | [] => first
  | last :: front =>
    let (pending, e) := front.foldl stepBack last
    .binary pending first e

/-- The tree of a chain; its first operator decides the side. -/
def ofChain (first : Expr) (links : List (Operator × Expr)) : Expr :=
  match links with
  | [] => first
  | (op, _) :: _ => if op.groupsRight then groupRight first links else groupLeft first links

@[simp] theorem groupLeft_nil (first : Expr) : groupLeft first [] = first := rfl

/-- A further link takes all that stands before it as its left operand. -/
theorem groupLeft_append_link (first : Expr) (links : List (Operator × Expr)) (op : Operator)
    (operand : Expr) :
    groupLeft first (links ++ [(op, operand)]) = .binary op (groupLeft first links) operand := by
  simp [groupLeft]

@[simp] theorem groupRight_nil (first : Expr) : groupRight first [] = first := rfl

/-- The first link takes all that stands behind it as its right operand. -/
theorem groupRight_link (first : Expr) (op : Operator) (operand : Expr)
    (links : List (Operator × Expr)) :
    groupRight first ((op, operand) :: links) = .binary op first (groupRight operand links) := by
  -- read backwards, the first link is the last step, which ends with its operator pending
  unfold groupRight
  cases h : links.reverse with
  | nil => simp [h]
  | cons last front => simp [h, List.foldl_append, stepBack]

end Reckoner.Expr
