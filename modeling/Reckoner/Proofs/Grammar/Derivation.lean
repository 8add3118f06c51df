import Reckoner.Expr.Reading

/-!
# Grammar — derivations

The grammar of expressions, as data.  A `Derivation level` is one way to derive a list of tokens
from a level of

    sum     := product (("+" | "-") product)*
    product := power (("*" | "/" | "%" | "//") power)*
    power   := unary ("**" power)?
    unary   := "-"? atom
    atom    := NUMBER | "(" sum ")"

and a `Tail level` is one way to repeat the part in parentheses of one of the first two lines, or
of `power := unary ("**" unary)*`.  A derivation has the tokens that it derives, the depth to
which its parentheses nest, and a tree: sums and products group to the left, powers to the right,
a minus sign is a subtraction from zero, and parentheses leave no trace.

**A list of tokens has one derivation at most** (`Derivation.unique`), also where it goes on with
tokens that cannot continue the level.  **A tree has the operands and operators of its derivation
in their order** (`Derivation.unbracketed_tokens`).
-/

namespace Reckoner

/-! ### Levels -/

namespace Level

/-- The operators between the operands of a level. -/
def operators : Level → List Operator
  | .sum     => [.add, .sub]
  | .product => [.mul, .div, .mod, .floorDiv]
  | .power   => [.pow]
  | .unary   => []
  | .atom    => []

/-- The level of the operands of a level. -/
def operand : Level → Level
  | .sum     => .product
  | .product => .power
  | .power   => .unary
  | .unary   => .atom
  | .atom    => .atom

/-- How strongly the operators of a level bind.  The last two levels have no operators, and bind
more strongly than any. -/
def strength : Level → Nat
  | .sum     => 1
  | .product => 2
  | .power   => 3
  | .unary   => 4
  | .atom    => 4

/-- An operator belongs to the level that binds as strongly. -/
theorem mem_operators_iff {level : Level} {op : Operator} :
    op ∈ level.operators ↔ op.precedence = level.strength := by
  cases level <;> cases op <;> decide

/-- Every operator belongs to a level. -/
theorem mem_operators_cases (op : Operator) :
    op ∈ sum.operators ∨ op ∈ product.operators ∨ op = .pow := by
  cases op <;> decide

theorem precedence_lt_of_mem {level : Level} {op : Operator} (h : op ∈ level.operators) :
    op.precedence < level.operand.strength := by
  cases level <;> cases op <;> revert h <;> decide

/-- What a level ends in front of: anything but an operator that binds as strongly as the level or
more strongly. -/
def StopsAt (level : Level) (ts : List Token) : Prop :=
  ∀ op rest, ts = .operator op :: rest → op.precedence < level.strength

@[simp] theorem stopsAt_nil (level : Level) : level.StopsAt [] :=
  fun _ _ h => by simp at h

@[simp] theorem stopsAt_closing (level : Level) (ts : List Token) :
    level.StopsAt (.closing :: ts) :=
  fun _ _ h => by simp at h

/-- No operator binds as strongly as a unary term. -/
theorem stopsAt_unary (ts : List Token) : Level.unary.StopsAt ts :=
  fun op _ _ => by cases op <;> decide

theorem stopsAt_atom (ts : List Token) : Level.atom.StopsAt ts :=
  stopsAt_unary ts

theorem StopsAt.operand {level : Level} {ts : List Token} (h : level.StopsAt ts) :
    level.operand.StopsAt ts := fun op rest e => by
  have hlt := h op rest e
  have hle : level.strength ≤ level.operand.strength := by cases level <;> decide
  omega

end Level

/-! ### Derivations -/

mutual
/-- A derivation from a level of the grammar. -/
inductive Derivation : Level → Type where
  | number (value : Float) : Derivation .atom
  | group (inner : Derivation .sum) : Derivation .atom
  | plain (operand : Derivation .atom) : Derivation .unary
  | minus (operand : Derivation .atom) : Derivation .unary
  | base (operand : Derivation .unary) : Derivation .power
  | raised (operand : Derivation .unary) (exponent : Derivation .power) : Derivation .power
  | product (first : Derivation .power) (tail : Tail .product) : Derivation .product
  | sum (first : Derivation .product) (tail : Tail .sum) : Derivation .sum

/-- What follows the first operand of a level: operators of the level, each with an operand. -/
inductive Tail : Level → Type where
  | done {level : Level} : Tail level
  | link {level : Level} (op : Operator) (mem : op ∈ level.operators)
      (operand : Derivation level.operand) (rest : Tail level) : Tail level
end

mutual
/-- The tokens that a derivation derives. -/
def Derivation.tokens : {level : Level} → Derivation level → List Token
  | _, .number value            => [.number value]
  | _, .group inner             => .opening :: (inner.tokens ++ [.closing])
  | _, .plain operand           => operand.tokens
  | _, .minus operand           => .operator .sub :: operand.tokens
  | _, .base operand            => operand.tokens
  | _, .raised operand exponent => operand.tokens ++ .operator .pow :: exponent.tokens
  | _, .product first tail      => first.tokens ++ tail.tokens
  | _, .sum first tail          => first.tokens ++ tail.tokens

/-- The tokens that a tail derives. -/
def Tail.tokens : {level : Level} → Tail level → List Token
  | _, .done                   => []
  | _, .link op _ operand rest => .operator op :: (operand.tokens ++ rest.tokens)
end

mutual
/-- How deep the parentheses of a derivation nest. -/
def Derivation.nesting : {level : Level} → Derivation level → Nat
  | _, .number _                => 0
  | _, .group inner             => inner.nesting + 1
  | _, .plain operand           => operand.nesting
  | _, .minus operand           => operand.nesting
  | _, .base operand            => operand.nesting
  | _, .raised operand exponent => max operand.nesting exponent.nesting
  | _, .product first tail      => max first.nesting tail.nesting
  | _, .sum first tail          => max first.nesting tail.nesting

/-- How deep the parentheses of a tail nest. -/
def Tail.nesting : {level : Level} → Tail level → Nat
  | _, .done                  => 0
  | _, .link _ _ operand rest => max operand.nesting rest.nesting
end

mutual
/-- The tree of a derivation. -/
def Derivation.tree : {level : Level} → Derivation level → Expr
  | _, .number value            => .literal value
  | _, .group inner             => inner.tree
  | _, .plain operand           => operand.tree
  | _, .minus operand           => .binary .sub (.literal 0) operand.tree
  | _, .base operand            => operand.tree
  | _, .raised operand exponent => .binary .pow operand.tree exponent.tree
  | _, .product first tail      => tail.treeFrom first.tree
  | _, .sum first tail          => tail.treeFrom first.tree

/-- The tree of a tail behind `left`: each operator takes all that stands before it. -/
def Tail.treeFrom : {level : Level} → Tail level → Expr → Expr
  | _, .done, left                   => left
  | _, .link op _ operand rest, left => rest.treeFrom (.binary op left operand.tree)
end

namespace Derivation

/-- A sum of one product of one power: a unary term alone. -/
def ofUnary (operand : Derivation .unary) : Derivation .sum :=
  .sum (.product (.base operand) .done) .done

@[simp] theorem tokens_ofUnary (operand : Derivation .unary) :
    (ofUnary operand).tokens = operand.tokens := by
  simp [ofUnary, tokens, Tail.tokens]

@[simp] theorem nesting_ofUnary (operand : Derivation .unary) :
    (ofUnary operand).nesting = operand.nesting := by
  simp [ofUnary, nesting, Tail.nesting]

@[simp] theorem tree_ofUnary (operand : Derivation .unary) :
    (ofUnary operand).tree = operand.tree := by
  simp [ofUnary, tree, Tail.treeFrom]

end Derivation

/-! ### One derivation at most -/

/-- An atom starts with a number or a parenthesis. -/
theorem Derivation.head_atom : ∀ d : Derivation .atom,
    (∃ value, d.tokens = [.number value]) ∨ ∃ rest, d.tokens = .opening :: rest
  | .number value => .inl ⟨value, by rw [tokens]⟩
  | .group inner => .inr ⟨inner.tokens ++ [.closing], by rw [tokens]⟩

/-- No atom starts with an operator. -/
theorem Derivation.atom_append_ne (d : Derivation .atom) (op : Operator) (r s : List Token) :
    d.tokens ++ r ≠ .operator op :: s := by
  rcases d.head_atom with ⟨value, h⟩ | ⟨rest, h⟩ <;> simp [h]

/-- The operand in front of a tail ends where the tail starts. -/
theorem Tail.stopsAt_append {level : Level} {r : List Token} (h : level.StopsAt r) :
    ∀ tail : Tail level, level.operand.StopsAt (tail.tokens ++ r)
  | .done => by simpa [tokens] using h.operand
  | .link op mem operand rest => fun op' rest' e => by
      simp only [tokens, List.cons_append, List.cons.injEq, Token.operator.injEq] at e
      exact e.1 ▸ Level.precedence_lt_of_mem mem

/-- A tail that is done does not go on with an operator of its level. -/
theorem Level.StopsAt.ne_cons {level : Level} {r s : List Token} (h : level.StopsAt r)
    {op : Operator} (mem : op ∈ level.operators) : r ≠ .operator op :: s := fun e => by
  have hlt := h op s e
  have heq := Level.mem_operators_iff.mp mem
  omega

mutual
/-- **The derivation is unique**, and so is the place where it ends. -/
theorem Derivation.unique : ∀ {level : Level} (d e : Derivation level) {r s : List Token},
    d.tokens ++ r = e.tokens ++ s → level.StopsAt r → level.StopsAt s → d = e ∧ r = s
  | _, .number v, .number w, r, s, h, _, _ => by
      simpa [Derivation.tokens] using h
  | _, .number v, .group e, r, s, h, _, _ => by
      simp [Derivation.tokens] at h
  | _, .group d, .number w, r, s, h, _, _ => by
      simp [Derivation.tokens] at h
  | _, .group d, .group e, r, s, h, _, _ => by
      simp only [Derivation.tokens, List.cons_append, List.append_assoc, List.cons.injEq,
        true_and, List.nil_append] at h
      obtain ⟨rfl, h'⟩ := d.unique e h (Level.stopsAt_closing _ _) (Level.stopsAt_closing _ _)
      exact ⟨rfl, by simpa using h'⟩
  | _, .plain d, .plain e, r, s, h, _, _ => by
      obtain ⟨rfl, h'⟩ := d.unique e h (Level.stopsAt_atom _) (Level.stopsAt_atom _)
      exact ⟨rfl, h'⟩
  | _, .plain d, .minus e, r, s, h, _, _ =>
      absurd h (d.atom_append_ne .sub r _)
  | _, .minus d, .plain e, r, s, h, _, _ =>
      absurd h.symm (e.atom_append_ne .sub s _)
  | _, .minus d, .minus e, r, s, h, _, _ => by
      simp only [Derivation.tokens, List.cons_append, List.cons.injEq, true_and] at h
      obtain ⟨rfl, h'⟩ := d.unique e h (Level.stopsAt_atom _) (Level.stopsAt_atom _)
      exact ⟨rfl, h'⟩
  | _, .base d, .base e, r, s, h, _, _ => by
      obtain ⟨rfl, h'⟩ := d.unique e h (Level.stopsAt_unary _) (Level.stopsAt_unary _)
      exact ⟨rfl, h'⟩
  -- one power ends where the other goes on: no power ends in front of `**`
  | _, .base d, .raised e x, r, s, h, hr, _ => by
      simp only [Derivation.tokens, List.append_assoc, List.cons_append] at h
      obtain ⟨-, h'⟩ := d.unique e h (Level.stopsAt_unary _) (Level.stopsAt_unary _)
      exact absurd h' (hr.ne_cons (by decide))
  | _, .raised d x, .base e, r, s, h, _, hs => by
      simp only [Derivation.tokens, List.append_assoc, List.cons_append] at h
      obtain ⟨-, h'⟩ := d.unique e h (Level.stopsAt_unary _) (Level.stopsAt_unary _)
      exact absurd h'.symm (hs.ne_cons (by decide))
  | _, .raised d x, .raised e y, r, s, h, hr, hs => by
      simp only [Derivation.tokens, List.append_assoc, List.cons_append] at h
      obtain ⟨rfl, h'⟩ := d.unique e h (Level.stopsAt_unary _) (Level.stopsAt_unary _)
      simp only [List.cons.injEq, true_and] at h'
      obtain ⟨rfl, h''⟩ := x.unique y h' hr hs
      exact ⟨rfl, h''⟩
  -- the first operands end where their tails start, so they are the same, and then the tails are
  | _, .product d x, .product e y, r, s, h, hr, hs => by
      simp only [Derivation.tokens, List.append_assoc] at h
      obtain ⟨rfl, h'⟩ := d.unique e h (x.stopsAt_append hr) (y.stopsAt_append hs)
      obtain ⟨rfl, h''⟩ := x.unique y h' hr hs
      exact ⟨rfl, h''⟩
  | _, .sum d x, .sum e y, r, s, h, hr, hs => by
      simp only [Derivation.tokens, List.append_assoc] at h
      obtain ⟨rfl, h'⟩ := d.unique e h (x.stopsAt_append hr) (y.stopsAt_append hs)
      obtain ⟨rfl, h''⟩ := x.unique y h' hr hs
      exact ⟨rfl, h''⟩

/-- A tail is unique, and so is the place where it ends. -/
theorem Tail.unique : ∀ {level : Level} (d e : Tail level) {r s : List Token},
    d.tokens ++ r = e.tokens ++ s → level.StopsAt r → level.StopsAt s → d = e ∧ r = s
  | _, .done, .done, r, s, h, _, _ => ⟨rfl, by simpa [Tail.tokens] using h⟩
  | _, .done, .link op mem operand rest, r, s, h, hr, _ =>
      absurd (by simpa [Tail.tokens] using h) (hr.ne_cons mem)
  | _, .link op mem operand rest, .done, r, s, h, _, hs =>
      absurd (by simpa [Tail.tokens] using h.symm) (hs.ne_cons mem)
  | _, .link op mem d x, .link op' mem' e y, r, s, h, hr, hs => by
      simp only [Tail.tokens, List.cons_append, List.append_assoc, List.cons.injEq,
        Token.operator.injEq] at h
      obtain ⟨rfl, h⟩ := h
      obtain ⟨rfl, h'⟩ := d.unique e h (x.stopsAt_append hr) (y.stopsAt_append hs)
      obtain ⟨rfl, h''⟩ := x.unique y h' hr hs
      exact ⟨rfl, h''⟩
end

/-! ### Operands and operators in order -/

/-- The operands and operators of a tree, from left to right. -/
def Expr.inorder : Expr → List Token
  | .literal value        => [.number value]
  | .binary op left right => left.inorder ++ .operator op :: right.inorder

/-- The operands and operators of a list of tokens.  Parentheses are left out, and a zero is put
in front of an operator that stands where an operand is `due`. -/
def Token.unbracketed : (due : Bool) → List Token → List Token
  | _, []                    => []
  | _, .opening :: ts        => unbracketed true ts
  | _, .closing :: ts        => unbracketed false ts
  | _, .number value :: ts   => .number value :: unbracketed false ts
  | true, .operator op :: ts => .number 0 :: .operator op :: unbracketed true ts
  | false, .operator op :: ts => .operator op :: unbracketed true ts

mutual
/-- **The tree keeps every operand and operator in its place.** -/
theorem Derivation.unbracketed_tokens : ∀ {level : Level} (d : Derivation level) (r : List Token),
    Token.unbracketed true (d.tokens ++ r) = d.tree.inorder ++ Token.unbracketed false r
  | _, .number value, r => by
      simp [Derivation.tokens, Derivation.tree, Token.unbracketed, Expr.inorder]
  | _, .group inner, r => by
      simp [Derivation.tokens, Derivation.tree, Token.unbracketed, inner.unbracketed_tokens]
  | _, .plain operand, r => operand.unbracketed_tokens r
  | _, .minus operand, r => by
      simp [Derivation.tokens, Derivation.tree, Token.unbracketed, Expr.inorder,
        operand.unbracketed_tokens]
  | _, .base operand, r => operand.unbracketed_tokens r
  | _, .raised operand exponent, r => by
      simp [Derivation.tokens, Derivation.tree, Token.unbracketed, Expr.inorder,
        operand.unbracketed_tokens, exponent.unbracketed_tokens]
  | _, .product first tail, r => by
      simp [Derivation.tokens, Derivation.tree, first.unbracketed_tokens,
        ← tail.unbracketed_tokens]
  | _, .sum first tail, r => by
      simp [Derivation.tokens, Derivation.tree, first.unbracketed_tokens,
        ← tail.unbracketed_tokens]

/-- A tail adds its operators and operands behind those of the tree in front of it. -/
theorem Tail.unbracketed_tokens : ∀ {level : Level} (tail : Tail level) (left : Expr)
    (r : List Token), left.inorder ++ Token.unbracketed false (tail.tokens ++ r) =
      (tail.treeFrom left).inorder ++ Token.unbracketed false r
  | _, .done, left, r => by simp [Tail.tokens, Tail.treeFrom]
  | _, .link op _ operand rest, left, r => by
      simp [Tail.tokens, Tail.treeFrom, Token.unbracketed, operand.unbracketed_tokens,
        ← rest.unbracketed_tokens, Expr.inorder]
end

end Reckoner
