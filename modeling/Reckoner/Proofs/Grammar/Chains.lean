import Reckoner.Proofs.Grammar.Derivation

/-!
# Grammar — how chains group

A chain is grouped by its first operator alone.  Operators that bind equally strongly group on one
side, so in a chain of one strength the first operator speaks for all of them
(`Expr.ofChain_eq_groupLeft`, `Expr.ofChain_eq_groupRight`), and the tree obeys the recursion of
that side, although one side is computed forwards and the other backwards.

**A further link goes on top of a chain that groups to the left, and a link in front goes on top of
one that groups to the right; either way no operand and no operator changes its place**
(`Expr.ofChain_by_side`).
-/

namespace Reckoner.Expr

/-! ### The side of a chain -/

/-- A chain whose operators group to the left is grouped to the left. -/
theorem ofChain_eq_groupLeft {links : List (Operator × Expr)}
    (h : ∀ link ∈ links, link.1.groupsRight = false) (first : Expr) :
    ofChain first links = groupLeft first links := by
  cases links with
  | nil => rfl
  | cons link links =>
      obtain ⟨hlink, -⟩ := List.forall_mem_cons.mp h
      rw [ofChain, if_neg (by simp [hlink])]

/-- A chain whose operators group to the right is grouped to the right. -/
theorem ofChain_eq_groupRight {links : List (Operator × Expr)}
    (h : ∀ link ∈ links, link.1.groupsRight = true) (first : Expr) :
    ofChain first links = groupRight first links := by
  cases links with
  | nil => rfl
  | cons link links =>
      obtain ⟨hlink, -⟩ := List.forall_mem_cons.mp h
      rw [ofChain, if_pos hlink]

/-- In a chain of one strength every operator groups as any operator of that strength. -/
theorem groupsRight_of_strength {links : List (Operator × Expr)} {strength : Nat}
    (h : ∀ link ∈ links, link.1.precedence = strength) {op : Operator}
    (hop : op.precedence = strength) {side : Bool} (hside : op.groupsRight = side) :
    ∀ link ∈ links, link.1.groupsRight = side := by
  intro link hmem
  rw [← hside]
  exact Operator.groupsRight_eq_of_precedence_eq ((h link hmem).trans hop.symm)

/-! ### Operands and operators in order -/

/-- The operands and operators of the links of a chain, from left to right. -/
def linksInorder (links : List (Operator × Expr)) : List Token :=
  links.flatMap fun (op, operand) => .operator op :: operand.inorder

theorem linksInorder_cons (op : Operator) (operand : Expr) (links : List (Operator × Expr)) :
    linksInorder ((op, operand) :: links) =
      .operator op :: (operand.inorder ++ linksInorder links) :=
  rfl

theorem inorder_groupLeft (first : Expr) (links : List (Operator × Expr)) :
    (groupLeft first links).inorder = first.inorder ++ linksInorder links := by
  induction links generalizing first with
  | nil => simp [linksInorder]
  | cons link links ih =>
      -- the first operand of the links behind is the tree of the first link
      obtain ⟨op, operand⟩ := link
      have hfold : groupLeft first ((op, operand) :: links) =
          groupLeft (.binary op first operand) links := rfl
      rw [hfold, ih, inorder, linksInorder_cons, List.append_assoc, List.cons_append]

theorem inorder_groupRight (first : Expr) (links : List (Operator × Expr)) :
    (groupRight first links).inorder = first.inorder ++ linksInorder links := by
  induction links generalizing first with
  | nil => simp [linksInorder]
  | cons link links ih =>
      obtain ⟨op, operand⟩ := link
      rw [groupRight_link, inorder, ih, linksInorder_cons]

/-- **Grouping keeps every operand and operator in its place**, whatever the operators are. -/
theorem inorder_ofChain (first : Expr) (links : List (Operator × Expr)) :
    (ofChain first links).inorder = first.inorder ++ linksInorder links := by
  unfold ofChain
  split
  · simp [linksInorder]
  · split
    · exact inorder_groupRight first _
    · exact inorder_groupLeft first _

/-! ### The recursions -/

/-- **A chain of one strength groups on the side of its operators.**  Without links it is its first
operand.  If operators of the strength group to the left, a further link takes the whole chain as
its left operand; if they group to the right, a link in front takes the whole chain behind it as
its right operand.  The tree has the operands and operators of the chain in their order. -/
theorem ofChain_by_side (first : Expr) (links : List (Operator × Expr)) (strength : Nat)
    (h : ∀ link ∈ links, link.1.precedence = strength) :
    ofChain first [] = first ∧
    (∀ op operand, op.precedence = strength → op.groupsRight = false →
      ofChain first (links ++ [(op, operand)]) = .binary op (ofChain first links) operand) ∧
    (∀ op operand, op.precedence = strength → op.groupsRight = true →
      ofChain first ((op, operand) :: links) = .binary op first (ofChain operand links)) ∧
    (ofChain first links).inorder = first.inorder ++ linksInorder links := by
  refine ⟨rfl, fun op operand hop hside => ?_, fun op operand hop hside => ?_,
    inorder_ofChain first links⟩
  · have hlinks := groupsRight_of_strength h hop hside
    have hlonger : ∀ link ∈ links ++ [(op, operand)], link.1.groupsRight = false := by
      rw [List.forall_mem_append, List.forall_mem_singleton]
      exact ⟨hlinks, hside⟩
    rw [ofChain_eq_groupLeft hlonger, ofChain_eq_groupLeft hlinks, groupLeft_append_link]
  · have hlinks := groupsRight_of_strength h hop hside
    have hlonger : ∀ link ∈ (op, operand) :: links, link.1.groupsRight = true :=
      List.forall_mem_cons.mpr ⟨hside, hlinks⟩
    rw [ofChain_eq_groupRight hlonger, ofChain_eq_groupRight hlinks, groupRight_link]

/-- `1 - 2 + 3` and `1 ** 2 ** 3`, from their first operand and one link. -/
theorem ofChain_difference_and_power :
    ofChain (.literal 1) ([(.sub, .literal 2)] ++ [(.add, .literal 3)]) =
      .binary .add (ofChain (.literal 1) [(.sub, .literal 2)]) (.literal 3) ∧
    ofChain (.literal 1) ((.pow, .literal 2) :: [(.pow, .literal 3)]) =
      .binary .pow (.literal 1) (ofChain (.literal 2) [(.pow, .literal 3)]) := by
  obtain ⟨-, hleft, -, -⟩ := ofChain_by_side (.literal 1) [(.sub, .literal 2)] 1 (by simp; decide)
  obtain ⟨-, -, hright, -⟩ := ofChain_by_side (.literal 1) [(.pow, .literal 3)] 3 (by simp; decide)
  exact ⟨hleft .add (.literal 3) rfl rfl, hright .pow (.literal 2) rfl rfl⟩

end Reckoner.Expr
