import Reckoner.Arithmetic
import Reckoner.Expr.Reading
import Reckoner.Token.Scan

/-!
# Expr — the value of a tree

`Expr.value` is the value by recursion: the left operand, then the right one, then the operator;
the first failure is the outcome.  `Expr.evaluate` walks the tree with a list of steps left to do
and a list of values found, so that no tree is too deep for it.  **The two agree on every tree**
(`evaluate_eq_value`).
-/

namespace Reckoner

namespace Expr

/-- The value of a tree, by recursion. -/
def value : Expr → Except Failure Float
  | literal v => .ok v
  | binary op left right =>
    match left.value with
    | .error e => .error e
    | .ok x =>
      match right.value with
      | .error e => .error e
      | .ok y => op.apply x y

/-- Something left to do in a walk: visit a tree, or apply an operator to the last two values. -/
inductive Step where
  | visit (e : Expr)
  | apply (op : Operator)

/-- A bound on the steps that a step leads to. -/
def Step.weight : Step → Nat
  | visit e => 2 * e.size
  | apply _ => 1

/-- A bound on the steps that a list of steps leads to. -/
def Step.weights : List Step → Nat
  | []            => 0
  | step :: steps => step.weight + weights steps

/-- Walks on until nothing is left to do.  `values` holds the values known so far, the last one
first; an operator takes the last two, its right operand being the last. -/
def walk (values : List Float) (steps : List Step) : Except Failure Float :=
  match values, steps with
  | v :: _, [] => .ok v
  | [], [] => .error (.malformed .emptyExpression 0)
  | values, .visit (.literal v) :: steps => walk (v :: values) steps
  | values, .visit (.binary op left right) :: steps =>
    walk values (.visit left :: .visit right :: .apply op :: steps)
  | y :: x :: values, .apply op :: steps =>
    match op.apply x y with
    | .error e => .error e
    | .ok v => walk (v :: values) steps
  | _, .apply _ :: _ => .error (.malformed .missingOperand 0)
termination_by Step.weights steps
decreasing_by all_goals simp only [Step.weights, Step.weight, size]; omega

/-- The value of a tree, or the first failure in it from left to right. -/
def evaluate (e : Expr) : Except Failure Float :=
  walk [] [.visit e]

/-- A visit puts the value of its tree on the others and leaves the rest to be done, or ends the
walk with the failure of its tree. -/
theorem walk_visit (e : Expr) (values : List Float) (steps : List Step) :
    walk values (.visit e :: steps) =
      match e.value with
      | .error failure => .error failure
      | .ok v => walk (v :: values) steps := by
  induction e generalizing values steps with
  | literal v => rw [walk, value]
  | binary op left right ihl ihr =>
    rw [walk, ihl, value]
    cases left.value with
    | error failure => rfl
    | ok x =>
      dsimp only
      rw [ihr]
      cases right.value with
      | error failure => rfl
      | ok y => dsimp only; rw [walk]

/-- The walk finds the value that the recursion describes. -/
theorem evaluate_eq_value (e : Expr) : e.evaluate = e.value := by
  rw [evaluate, walk_visit]
  cases e.value with
  | error failure => rfl
  | ok v => dsimp only; rw [walk]

end Expr

/-- The value of the text of an expression. -/
def evaluateExpression (expression : String) : Except Failure Float := do
  let tokens ← Token.tokenize expression
  let e ← Expr.ofTokens tokens
  e.evaluate

end Reckoner
