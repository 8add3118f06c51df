import Reckoner.Expr.Value

/-!
# Evaluation — the one way to fail

An operator fails on two numbers exactly when it divides and its right operand is zero, of either
sign (`Operator.apply_eq_error_iff`).  A node of a tree that does so, with a value on either side,
divides by zero; `Expr.postorder` lists the nodes in the order in which their operators are
applied.

**The walk has the value that the recursion describes, and the only failure it ends with is that
of the first node that divides by zero** (`Expr.evaluate_eq_error_iff_find`).  It never runs out
of values.
-/

namespace Reckoner

/-! ### Operators -/

/-- The operators that divide. -/
def Operator.divides : Operator → Bool
  | .div | .mod | .floorDiv    => true
  | .add | .sub | .mul | .pow => false

/-- A division by zero names the operator, and nothing else fails. -/
theorem Operator.apply_eq_error_iff (op : Operator) (x y : Float) (failure : Failure) :
    op.apply x y = .error failure ↔
      op.divides = true ∧ (y == 0) = true ∧ failure = .divisionByZero op.name := by
  cases op with
  | add | sub | mul | pow => simp [apply, divides]
  | div | mod | floorDiv =>
      by_cases h : (y == 0) = true
      · simp [apply, apply.divide, divides, Arithmetic.isZero, h, eq_comm]
      · simp [apply, apply.divide, divides, Arithmetic.isZero, h]

namespace Expr

/-! ### Nodes -/

/-- The nodes of a tree: those of the left operand, those of the right one, the tree itself. -/
def postorder : Expr → List Expr
  | literal v            => [literal v]
  | binary op left right => left.postorder ++ (right.postorder ++ [binary op left right])

/-- Whether the operator at the root divides by zero: both operands have a value, and the right
one is zero. -/
def dividesByZero : Expr → Bool
  | literal _            => false
  | binary op left right =>
    match left.evaluate, right.evaluate with
    | .ok _, .ok y => op.divides && y == 0
    | _, _         => false

/-- Only the root of an operation divides by zero. -/
theorem eq_binary_of_dividesByZero {e : Expr} (h : e.dividesByZero = true) :
    ∃ op left right, e = .binary op left right := by
  cases e with
  | literal v => cases h
  | binary op left right => exact ⟨op, left, right, rfl⟩

/-- Where both operands have a value, the root divides by zero if its operator fails on them. -/
theorem dividesByZero_binary {op : Operator} {left right : Expr} {x y : Float}
    (hx : left.value = .ok x) (hy : right.value = .ok y) :
    (binary op left right).dividesByZero = (op.divides && y == 0) := by
  simp [dividesByZero, evaluate_eq_value, hx, hy]

/-- A tree fails as the first of its nodes that divides by zero, if there is one. -/
def FailsAsFirstNode (e : Expr) : Prop :=
  ∀ failure, e.value = .error failure ↔ ∃ op left right,
    e.postorder.find? dividesByZero = some (.binary op left right) ∧
      failure = .divisionByZero op.name

/-- Such a tree has a value only if none of its nodes divides by zero. -/
theorem FailsAsFirstNode.find?_eq_none {e : Expr} (h : e.FailsAsFirstNode) {x : Float}
    (hx : e.value = .ok x) : e.postorder.find? dividesByZero = none := by
  cases hfind : e.postorder.find? dividesByZero with
  | none => rfl
  | some node =>
      obtain ⟨op, left, right, rfl⟩ := eq_binary_of_dividesByZero (List.find?_some hfind)
      have hfails := (h _).mpr ⟨op, left, right, hfind, rfl⟩
      rw [hx] at hfails
      cases hfails

/-- Where a subtree fails, its first node that divides by zero is the first of any list that
starts with its nodes. -/
theorem FailsAsFirstNode.find?_append {e : Expr} (h : e.FailsAsFirstNode) {failure : Failure}
    (hx : e.value = .error failure) (nodes : List Expr) : ∃ op left right,
      (e.postorder ++ nodes).find? dividesByZero = some (.binary op left right) ∧
        failure = .divisionByZero op.name := by
  obtain ⟨op, left, right, hfind, hf⟩ := (h failure).mp hx
  exact ⟨op, left, right, by rw [List.find?_append, hfind, Option.some_or], hf⟩

theorem failsAsFirstNode (e : Expr) : e.FailsAsFirstNode := by
  induction e with
  | literal v =>
      intro failure
      simp [value, postorder, dividesByZero]
  | binary op left right ihl ihr =>
      intro failure
      -- the left operand comes first, in the list as in the evaluation
      cases hx : left.value with
      | error failure' =>
          obtain ⟨op', left', right', hfind, rfl⟩ :=
            ihl.find?_append hx (right.postorder ++ [binary op left right])
          simp only [value, hx, postorder, hfind]
          constructor
          · rintro ⟨⟩
            exact ⟨op', left', right', rfl, rfl⟩
          · rintro ⟨_, _, _, ⟨⟩, rfl⟩
            rfl
      | ok x =>
          rw [postorder, List.find?_append, ihl.find?_eq_none hx, Option.none_or]
          cases hy : right.value with
          | error failure' =>
              -- no node on the left divides by zero, so the first one on the right is the first
              obtain ⟨op', left', right', hfind, rfl⟩ :=
                ihr.find?_append hy [binary op left right]
              simp only [value, hx, hy, hfind]
              constructor
              · rintro ⟨⟩
                exact ⟨op', left', right', rfl, rfl⟩
              · rintro ⟨_, _, _, ⟨⟩, rfl⟩
                rfl
          | ok y =>
              -- only the root is left
              rw [List.find?_append, ihr.find?_eq_none hy, Option.none_or, List.find?_singleton,
                dividesByZero_binary hx hy]
              simp only [value, hx, hy, op.apply_eq_error_iff]
              constructor
              · rintro ⟨hd, hz, rfl⟩
                exact ⟨op, left, right, by simp [hd, hz], rfl⟩
              · rintro ⟨op', left', right', hroot, rfl⟩
                by_cases hdz : (op.divides && y == 0) = true
                · rw [if_pos hdz] at hroot
                  cases hroot
                  simpa using hdz
                · rw [if_neg hdz] at hroot
                  cases hroot

/-- **Evaluation is the recursion, and fails only by dividing by zero.**  The walk has the value
that the recursion describes.  It fails if and only if some node divides by zero, with the name of
the operator of the first such node; no failure is one of running out of values or of tokens. -/
theorem evaluate_eq_error_iff_find (e : Expr) :
    e.evaluate = e.value ∧
    (∀ failure, e.evaluate = .error failure ↔ ∃ op left right,
      e.postorder.find? dividesByZero = some (.binary op left right) ∧
        failure = .divisionByZero op.name) ∧
    ((∃ failure, e.evaluate = .error failure) ↔ ∃ node ∈ e.postorder, node.dividesByZero) ∧
    ∀ complaint position, e.evaluate ≠ .error (.malformed complaint position) := by
  have hfails := e.failsAsFirstNode
  simp only [evaluate_eq_value, true_and]
  refine ⟨hfails, ⟨?_, ?_⟩, ?_⟩
  · rintro ⟨failure, h⟩
    obtain ⟨op, left, right, hfind, -⟩ := (hfails failure).mp h
    exact ⟨_, List.mem_of_find?_eq_some hfind, List.find?_some hfind⟩
  · rintro ⟨node, hmem, hz⟩
    obtain ⟨first, hfind⟩ := Option.isSome_iff_exists.mp (List.find?_isSome.mpr ⟨node, hmem, hz⟩)
    obtain ⟨op, left, right, rfl⟩ := eq_binary_of_dividesByZero (List.find?_some hfind)
    exact ⟨_, (hfails _).mpr ⟨op, left, right, hfind, rfl⟩⟩
  · intro complaint position h
    obtain ⟨op, left, right, -, hf⟩ := (hfails _).mp h
    cases hf

end Expr

end Reckoner
