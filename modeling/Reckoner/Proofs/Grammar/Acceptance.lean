import Reckoner.Proofs.Grammar.Run

/-!
# Grammar — what the reader accepts

A run that comes to a tree has read a derivation with that tree (`Run.derives`), and every
derivation whose parentheses fit under the nesting limit is read by a run to its tree, in front of
any tokens that cannot continue it (`Derivation.run`).  The first is an induction over the rules of
runs, the second one over the derivation; a chain is met from both sides as its first operand and
its `Tail`.

**A list of tokens is read as a tree exactly when it has a derivation with that tree**, no deeper
than the limit, **and the derivation is the only one** (`Expr.ofTokens_eq_ok_iff_derivation`).
Nothing else limits what is read: neither the length of a chain nor the number of groups in it.
-/

namespace Reckoner

/-! ### Chains and tails -/

/-- The operators of a tail, each with the tree of its operand. -/
def Tail.steps : {level : Level} → Tail level → List (Operator × Expr)
  | _, .done                   => []
  | _, .link op _ operand rest => (op, operand.tree) :: rest.steps

/-- What follows the first operand of a chain of powers that starts with an operator and goes on
as `exponent`. -/
def Derivation.steps : Derivation .power → List (Operator × Expr)
  | .base operand            => [(.pow, operand.tree)]
  | .raised operand exponent => (.pow, operand.tree) :: exponent.steps

theorem Tail.groupLeft_steps : ∀ {level : Level} (tail : Tail level) (left : Expr),
    Expr.groupLeft left tail.steps = tail.treeFrom left
  | _, .done, left => by simp [steps, treeFrom]
  | _, .link op _ operand rest, left => by
      rw [treeFrom, ← rest.groupLeft_steps]
      rfl

theorem Derivation.groupRight_steps : ∀ (exponent : Derivation .power) (operand : Expr),
    Expr.groupRight operand exponent.steps = .binary .pow operand exponent.tree
  | .base x, operand => by simp [steps, tree, Expr.groupRight_link]
  | .raised x y, operand => by
      rw [steps, Expr.groupRight_link, y.groupRight_steps, tree]

/-- The tree of a sum or a product, as its chain is grouped. -/
theorem Tail.ofChain_steps {level : Level} (hl : ∀ op ∈ level.operators, op.groupsRight = false)
    (tail : Tail level) (left : Expr) : Expr.ofChain left tail.steps = tail.treeFrom left := by
  cases tail with
  | done => rfl
  | link op mem operand rest =>
      rw [← groupLeft_steps, steps, Expr.ofChain, hl op mem]
      rfl

/-- The tree of a power, as its chain is grouped. -/
theorem Derivation.ofChain_steps (exponent : Derivation .power) (operand : Expr) :
    Expr.ofChain operand exponent.steps = .binary .pow operand exponent.tree := by
  rw [← groupRight_steps]
  cases exponent <;> simp [steps, Expr.ofChain, Operator.groupsRight]

/-- A first operand and a tail of powers make up a power. -/
theorem Derivation.exists_power : ∀ (first : Derivation .unary) (tail : Tail .power),
    ∃ d : Derivation .power, d.tokens = first.tokens ++ tail.tokens ∧
      d.nesting = max first.nesting tail.nesting ∧ d.tree = .groupRight first.tree tail.steps
  | first, .done => ⟨.base first, by simp [tokens, Tail.tokens], by simp [nesting, Tail.nesting], rfl⟩
  | first, .link op mem operand rest => by
      obtain ⟨d, ht, hn, he⟩ := exists_power operand rest
      obtain rfl : op = .pow := by simpa [Level.operators] using mem
      refine ⟨.raised first d, ?_, ?_, ?_⟩
      · simp only [tokens, Tail.tokens, ht]
        rfl
      · simp only [nesting, Tail.nesting, hn]
        rfl
      · simp only [tree, Tail.steps, Expr.groupRight_link, he]
        rfl

/-- A first operand and a tail make up a derivation of any chain. -/
theorem Derivation.exists_of_tail {level : Level} (hl : level.Chained)
    (first : Derivation level.operand) (tail : Tail level) :
    ∃ d : Derivation level, d.tokens = first.tokens ++ tail.tokens ∧
      d.nesting = max first.nesting tail.nesting ∧ d.tree = .ofChain first.tree tail.steps := by
  cases hl with
  | sum =>
      exact ⟨.sum first tail, rfl, rfl, (tail.ofChain_steps (by decide) first.tree).symm⟩
  | product =>
      exact ⟨.product first tail, rfl, rfl, (tail.ofChain_steps (by decide) first.tree).symm⟩
  | power =>
      obtain ⟨d, ht, hn, he⟩ := exists_power first tail
      refine ⟨d, ht, hn, he.trans ?_⟩
      cases tail with
      | done => rfl
      | link op mem operand rest =>
          obtain rfl : op = .pow := by simpa [Level.operators] using mem
          rfl

/-! ### Every tree that is read is derived -/

/-- What a task has read between two cursors when it comes to the tree `e`. -/
def Task.Derives (c c' : Cursor) (e : Expr) : Task → Prop
  | .read level => ∃ (d : Derivation level) (used : List PlacedToken),
      c.ahead = used ++ c'.ahead ∧ used.map (·.token) = d.tokens ∧
        d.nesting ≤ nestingLimit - c.depth ∧ d.tree = e
  | .links level first done => ∃ (tail : Tail level) (used : List PlacedToken),
      c.ahead = used ++ c'.ahead ∧ used.map (·.token) = tail.tokens ∧
        tail.nesting ≤ nestingLimit - c.depth ∧ .ofChain first (done.reverse ++ tail.steps) = e

/-- **A run to a tree reads a derivation of that tree**, and leaves the depth as it was. -/
theorem Run.derives {stop : Nat} {task : Task} {c c' : Cursor} {r : Except Failure Expr}
    (h : Run stop task c r c') :
    ∀ e, r = .ok e → c'.depth = c.depth ∧ task.Derives c c' e := by
  induction h with
  | noToken | noOperand | emptyGroup | tooDeep | groupFails | groupUnclosed | groupBroken
  | chainFails | linkFails => intro e h; cases h
  | @number value position depth rest =>
      rintro e ⟨⟩
      exact ⟨rfl, .number value, [⟨.number value, position⟩], rfl, rfl, Nat.zero_le _, rfl⟩
  | @group position depth position' depth' rest behind e hc hd _ ih =>
      rintro e ⟨⟩
      obtain ⟨hdepth, d, used, hused, ht, hn, he⟩ := ih _ rfl
      dsimp only at hdepth hused hn
      refine ⟨by simp [hdepth], .group d,
        ⟨.opening, position⟩ :: (used ++ [⟨.closing, position'⟩]), ?_, ?_, ?_, he⟩
      · simp [hused]
      · simp [Derivation.tokens, ht]
      · simp only [Derivation.nesting]
        omega
  | @minus position depth rest r after _ ih =>
      intro e he
      cases r with
      | error => cases he
      | ok x =>
          cases he
          obtain ⟨hdepth, d, used, hused, ht, hn, rfl⟩ := ih _ rfl
          refine ⟨hdepth, .minus d, ⟨.operator .sub, position⟩ :: used, ?_, ?_, hn, rfl⟩
          · simpa using hused
          · simp [Derivation.tokens, ht]
  | plain _ _ ih =>
      intro e he
      obtain ⟨hdepth, d, used, hused, ht, hn, rfl⟩ := ih e he
      exact ⟨hdepth, .plain d, used, hused, ht, hn, rfl⟩
  -- the tail starts at the depth that the first operand leaves, which is the one it started at
  | chain hl _ _ ihFirst ih =>
      intro e he
      obtain ⟨hdepth₁, first, used₁, hused₁, ht₁, hn₁, rfl⟩ := ihFirst _ rfl
      obtain ⟨hdepth₂, tail, used₂, hused₂, ht₂, hn₂, rfl⟩ := ih e he
      obtain ⟨d, ht, hn, hd⟩ := Derivation.exists_of_tail hl first tail
      rw [hdepth₁] at hn₂ hdepth₂
      refine ⟨hdepth₂, d, used₁ ++ used₂, ?_, ?_, ?_, hd⟩
      · rw [hused₁, hused₂, List.append_assoc]
      · rw [List.map_append, ht₁, ht₂, ht]
      · rw [hn]
        exact Nat.max_le.mpr ⟨hn₁, hn₂⟩
  | linksEnd =>
      rintro e ⟨⟩
      exact ⟨rfl, .done, [], rfl, rfl, Nat.zero_le _, by simp [Tail.steps]⟩
  | @link level first e done op position depth rest after c' r ho _ _ ihOperand ih =>
      intro x he
      obtain ⟨hdepth₁, d, used₁, hused₁, ht₁, hn₁, rfl⟩ := ihOperand _ rfl
      obtain ⟨hdepth₂, tail, used₂, hused₂, ht₂, hn₂, rfl⟩ := ih x he
      dsimp only at hdepth₁ hused₁ hn₁
      rw [hdepth₁] at hn₂ hdepth₂
      refine ⟨hdepth₂, .link op (Level.mem_operators_iff.mpr ho) d tail,
        ⟨.operator op, position⟩ :: (used₁ ++ used₂), ?_, ?_, ?_, ?_⟩
      · simp [hused₁, hused₂]
      · simp [Tail.tokens, ht₁, ht₂]
      · simp only [Tail.nesting]
        exact Nat.max_le.mpr ⟨hn₁, hn₂⟩
      · simp [Tail.steps]

/-! ### Every derivation is read -/

/-- A derivation never starts with a closing parenthesis. -/
theorem Derivation.exists_head : ∀ {level : Level} (d : Derivation level),
    ∃ t ts, d.tokens = t :: ts ∧ t ≠ .closing
  | _, .number value => ⟨_, _, rfl, by simp⟩
  | _, .group inner => ⟨_, _, rfl, by simp⟩
  | _, .plain operand => operand.exists_head
  | _, .minus operand => ⟨_, _, rfl, by simp⟩
  | _, .base operand => operand.exists_head
  | _, .raised operand exponent => by
      obtain ⟨t, ts, h, ht⟩ := operand.exists_head
      exact ⟨t, ts ++ .operator .pow :: exponent.tokens, by simp [tokens, h], ht⟩
  | _, .product first tail => by
      obtain ⟨t, ts, h, ht⟩ := first.exists_head
      exact ⟨t, ts ++ tail.tokens, by simp [tokens, h], ht⟩
  | _, .sum first tail => by
      obtain ⟨t, ts, h, ht⟩ := first.exists_head
      exact ⟨t, ts ++ tail.tokens, by simp [tokens, h], ht⟩

/-- Placed tokens of a derivation do not start with a closing parenthesis. -/
theorem Derivation.append_ne_closing {level : Level} (d : Derivation level)
    {used : List PlacedToken} (hused : used.map (·.token) = d.tokens) (rest : List PlacedToken) :
    ∀ closing behind, used ++ rest ≠ ⟨.closing, closing⟩ :: behind := by
  intro closing behind e
  obtain ⟨t, ts, hhead, hne⟩ := d.exists_head
  rw [hhead] at hused
  obtain ⟨a, used', rfl, rfl, -⟩ := List.map_eq_cons_iff.mp hused
  simp only [List.cons_append, List.cons.injEq] at e
  exact hne (by rw [e.1])

/-- Placed tokens of an atom do not start with a minus sign. -/
theorem Derivation.append_ne_minus (d : Derivation .atom) {used : List PlacedToken}
    (hused : used.map (·.token) = d.tokens) (rest : List PlacedToken) :
    ∀ position behind, used ++ rest ≠ ⟨.operator .sub, position⟩ :: behind := by
  intro position behind e
  have htokens := congrArg (List.map (·.token)) e
  rw [List.map_append, hused] at htokens
  exact d.atom_append_ne _ _ _ htokens

/-- Where the placed tokens of a tail start, the operand in front of them ends. -/
theorem Tail.stopsAt_placed {level : Level} (tail : Tail level) {used rest : List PlacedToken}
    (hused : used.map (·.token) = tail.tokens) (hs : level.StopsAt (rest.map (·.token))) :
    level.operand.StopsAt ((used ++ rest).map (·.token)) := by
  rw [List.map_append, hused]
  exact tail.stopsAt_append hs

/-- In front of tokens that cannot continue a level there is no operator of the level. -/
theorem Level.StopsAt.operator? {level : Level} {rest : List PlacedToken}
    (h : level.StopsAt (rest.map (·.token))) (depth : Nat) :
    Cursor.operator? level.strength ⟨rest, depth⟩ = none := by
  unfold Cursor.operator?
  split
  · rename_i op position rest' e
    dsimp only at e
    subst e
    have hlt := h op (rest'.map (·.token)) rfl
    simp [Nat.ne_of_lt hlt]
  · rfl

variable {stop : Nat}

mutual
/-- **A derivation is read by a run to its tree**, if its parentheses fit under the limit and the
tokens behind it cannot continue it. -/
theorem Derivation.run : ∀ {level : Level} (d : Derivation level) {used rest : List PlacedToken}
    {depth : Nat}, used.map (·.token) = d.tokens → d.nesting ≤ nestingLimit - depth →
      level.StopsAt (rest.map (·.token)) →
      Run stop (.read level) ⟨used ++ rest, depth⟩ (.ok d.tree) ⟨rest, depth⟩
  | _, .number value, used, rest, depth, ht, _, _ => by
      obtain ⟨⟨t, position⟩, rfl, rfl⟩ := by simpa [Derivation.tokens] using ht
      exact .number
  | _, .group inner, used, rest, depth, ht, hn, _ => by
      simp only [Derivation.tokens, List.map_eq_cons_iff, List.map_eq_append_iff,
        List.map_eq_nil_iff] at ht
      obtain ⟨⟨_, position⟩, _, rfl, rfl, used, _, rfl, hused, ⟨_, closing⟩, _, rfl, rfl, rfl⟩ := ht
      simp only [Derivation.nesting] at hn
      have hrun : Run stop (.read .sum) ⟨used ++ ⟨.closing, closing⟩ :: rest, depth + 1⟩
          (.ok inner.tree) ⟨⟨.closing, closing⟩ :: rest, depth + 1⟩ :=
        inner.run hused (by omega) (Level.stopsAt_closing _ _)
      have hgroup : Run stop (.read .atom)
          ⟨⟨.opening, position⟩ :: (used ++ ⟨.closing, closing⟩ :: rest), depth⟩ (.ok inner.tree)
          ⟨rest, depth⟩ := .group (inner.append_ne_closing hused _) (by omega) hrun
      simpa [Derivation.tree] using hgroup
  | _, .plain operand, used, rest, depth, ht, hn, _ =>
      .plain (operand.append_ne_minus ht rest) (operand.run ht hn (Level.stopsAt_atom _))
  | _, .minus operand, used, rest, depth, ht, hn, _ => by
      obtain ⟨⟨_, position⟩, used, rfl, rfl, hused⟩ := List.map_eq_cons_iff.mp ht
      exact .minus (operand.run hused hn (Level.stopsAt_atom _))
  | _, .base operand, used, rest, depth, ht, hn, hs =>
      .chain .power (operand.run ht hn (Level.stopsAt_unary _)) (.linksEnd (hs.operator? depth))
  | _, .raised operand exponent, used, rest, depth, ht, hn, hs => by
      obtain ⟨used₁, used₂, rfl, ht₁, ht₂⟩ := List.map_eq_append_iff.mp ht
      simp only [Derivation.nesting, Nat.max_le] at hn
      rw [List.append_assoc]
      refine .chain .power (operand.run ht₁ hn.1 (Level.stopsAt_unary _)) ?_
      have := exponent.run_links ht₂ hn.2 hs operand.tree []
      simpa [Derivation.tree, exponent.ofChain_steps] using this
  | _, .product first tail, used, rest, depth, ht, hn, hs => by
      obtain ⟨used₁, used₂, rfl, ht₁, ht₂⟩ := List.map_eq_append_iff.mp ht
      simp only [Derivation.nesting, Nat.max_le] at hn
      rw [List.append_assoc]
      refine .chain .product (first.run ht₁ hn.1 (tail.stopsAt_placed ht₂ hs)) ?_
      have := tail.run ht₂ hn.2 hs first.tree []
      simpa [Derivation.tree, tail.ofChain_steps (by decide)] using this
  | _, .sum first tail, used, rest, depth, ht, hn, hs => by
      obtain ⟨used₁, used₂, rfl, ht₁, ht₂⟩ := List.map_eq_append_iff.mp ht
      simp only [Derivation.nesting, Nat.max_le] at hn
      rw [List.append_assoc]
      refine .chain .sum (first.run ht₁ hn.1 (tail.stopsAt_placed ht₂ hs)) ?_
      have := tail.run ht₂ hn.2 hs first.tree []
      simpa [Derivation.tree, tail.ofChain_steps (by decide)] using this
termination_by _ d => sizeOf d

/-- A power behind an operator is read as the links of a chain of powers. -/
theorem Derivation.run_links : ∀ (d : Derivation .power) {used rest : List PlacedToken}
    {depth : Nat}, used.map (·.token) = .operator .pow :: d.tokens →
      d.nesting ≤ nestingLimit - depth → Level.power.StopsAt (rest.map (·.token)) →
      ∀ (first : Expr) (done : List (Operator × Expr)),
        Run stop (.links .power first done) ⟨used ++ rest, depth⟩
          (.ok (.ofChain first (done.reverse ++ d.steps))) ⟨rest, depth⟩
  | .base operand, used, rest, depth, ht, hn, hs, first, done => by
      obtain ⟨⟨_, position⟩, used, rfl, rfl, hused⟩ := List.map_eq_cons_iff.mp ht
      refine .link rfl (operand.run hused hn (Level.stopsAt_unary _)) ?_
      have hend : Run stop (.links .power first ((.pow, operand.tree) :: done)) ⟨rest, depth⟩ _ _ :=
        .linksEnd (hs.operator? depth)
      simpa [Derivation.steps] using hend
  | .raised operand exponent, used, rest, depth, ht, hn, hs, first, done => by
      obtain ⟨⟨_, position⟩, used, rfl, rfl, hused⟩ := List.map_eq_cons_iff.mp ht
      obtain ⟨used₁, used₂, rfl, ht₁, ht₂⟩ := List.map_eq_append_iff.mp hused
      simp only [Derivation.nesting, Nat.max_le] at hn
      rw [List.cons_append, List.append_assoc]
      refine .link rfl (operand.run ht₁ hn.1 (Level.stopsAt_unary _)) ?_
      have := exponent.run_links ht₂ hn.2 hs first ((.pow, operand.tree) :: done)
      simpa [Derivation.steps] using this
termination_by d => sizeOf d

/-- A tail is read as the links of its chain. -/
theorem Tail.run : ∀ {level : Level} (tail : Tail level) {used rest : List PlacedToken}
    {depth : Nat}, used.map (·.token) = tail.tokens →
      tail.nesting ≤ nestingLimit - depth → level.StopsAt (rest.map (·.token)) →
      ∀ (first : Expr) (done : List (Operator × Expr)),
        Run stop (.links level first done) ⟨used ++ rest, depth⟩
          (.ok (.ofChain first (done.reverse ++ tail.steps))) ⟨rest, depth⟩
  | _, .done, used, rest, depth, ht, _, hs, first, done => by
      obtain rfl := List.map_eq_nil_iff.mp ht
      simpa [Tail.steps] using Run.linksEnd (hs.operator? depth)
  | _, .link op mem operand tail, used, rest, depth, ht, hn, hs, first, done => by
      obtain ⟨⟨_, position⟩, used, rfl, rfl, hused⟩ := List.map_eq_cons_iff.mp ht
      obtain ⟨used₁, used₂, rfl, ht₁, ht₂⟩ := List.map_eq_append_iff.mp hused
      simp only [Tail.nesting, Nat.max_le] at hn
      rw [List.cons_append, List.append_assoc]
      have hs₁ := tail.stopsAt_placed ht₂ hs
      refine .link (Level.mem_operators_iff.mp mem) (operand.run ht₁ hn.1 hs₁) ?_
      have := tail.run ht₂ hn.2 hs first ((op, operand.tree) :: done)
      simpa [Tail.steps] using this
termination_by _ tail => sizeOf tail
end

/-! ### The reader of whole lists of tokens -/

namespace Expr

/-- The tree of a list of tokens is what a run finds that leaves none of them. -/
theorem ofTokens_eq_ok_iff_run {tokens : List PlacedToken} {e : Expr} :
    ofTokens tokens = .ok e ↔
      Run (endOf tokens) (.read .sum) ⟨tokens, 0⟩ (.ok e) ⟨[], 0⟩ := by
  cases tokens with
  | nil =>
      -- no tokens are turned down before they are read, and would not be read either
      have hnone : Run (endOf []) (.read .sum) ⟨[], 0⟩ (.error (.malformed .unexpectedEnd 0))
          ⟨[], 0⟩ :=
        .chainFails .sum (.chainFails .product (.chainFails .power (.plain (by simp) .noToken)))
      constructor
      · intro h
        cases h
      · intro h
        cases (hnone.functional h).1
  | cons t ts =>
      have hread : (Cursor.read (endOf (t :: ts)) .sum ⟨t :: ts, 0⟩).IsRun (endOf (t :: ts)) _ :=
        Run.of_read .sum _
      simp only [ofTokens, List.isEmpty_cons, Bool.false_eq_true, if_false]
      split
      · rename_i failure after _ heq
        rw [heq] at hread
        constructor
        · intro h
          cases h
        · intro h
          cases (Run.functional hread h).1
      · rename_i x after _ heq
        rw [heq] at hread
        -- a tree leaves the depth at zero, so what is left decides alone
        obtain ⟨hdepth, -⟩ := Run.derives hread x rfl
        obtain ⟨ahead, depth⟩ := after
        dsimp only at hdepth hread ⊢
        subst hdepth
        cases ahead with
        | nil =>
            constructor
            · rintro ⟨⟩
              exact hread
            · intro h
              cases (Run.functional hread h).1
              rfl
        | cons t' rest =>
            constructor
            · intro h
              cases h
            · intro h
              cases (Run.functional hread h).2

/-- Tokens that are not read fail by a complaint. -/
theorem malformed_of_ofTokens {tokens : List PlacedToken} {failure : Failure}
    (h : ofTokens tokens = .error failure) :
    ∃ complaint position, failure = .malformed complaint position := by
  have hrun : (Cursor.read (endOf tokens) .sum ⟨tokens, 0⟩).IsRun (endOf tokens) (.read .sum) :=
    Run.of_read .sum _
  unfold ofTokens at h
  split at h
  · cases h
    exact ⟨_, _, rfl⟩
  · split at h
    · rename_i heq
      cases h
      rw [heq] at hrun
      exact Run.malformed hrun _ rfl
    · split at h
      · cases h
      · cases h
        exact ⟨_, _, rfl⟩

/-- Lists of tokens with a tree are those with a derivation that is not too deep. -/
theorem ofTokens_eq_ok_iff {tokens : List PlacedToken} {e : Expr} :
    ofTokens tokens = .ok e ↔ ∃ d : Derivation .sum,
      d.tokens = tokens.map (·.token) ∧ d.nesting ≤ nestingLimit ∧ d.tree = e := by
  rw [ofTokens_eq_ok_iff_run]
  constructor
  · intro h
    obtain ⟨-, d, used, hused, ht, hn, he⟩ := h.derives e rfl
    obtain rfl : tokens = used := by simpa using hused
    exact ⟨d, ht.symm, hn, he⟩
  · rintro ⟨d, ht, hn, rfl⟩
    have hrun : Run (endOf tokens) (.read .sum) ⟨tokens ++ [], 0⟩ (.ok d.tree) ⟨[], 0⟩ :=
      d.run ht.symm hn (Level.stopsAt_nil _)
    simpa using hrun

/-- **The reader accepts the grammar and builds its trees.**  Tokens are read as `e` exactly if
they have a derivation from a sum, no deeper than the nesting limit, whose tree is `e`.  No tokens
have two derivations, and `e` holds their operands and operators in order, each once. -/
theorem ofTokens_eq_ok_iff_derivation (tokens : List PlacedToken) (e : Expr) :
    (ofTokens tokens = .ok e ↔ ∃ d : Derivation .sum,
      d.tokens = tokens.map (·.token) ∧ d.nesting ≤ nestingLimit ∧ d.tree = e) ∧
    (∀ d d' : Derivation .sum, d.tokens = d'.tokens → d = d') ∧
    (ofTokens tokens = .ok e → e.inorder = Token.unbracketed true (tokens.map (·.token))) := by
  refine ⟨ofTokens_eq_ok_iff, fun d d' h => ?_, fun h => ?_⟩
  · have happend : d.tokens ++ [] = d'.tokens ++ [] := by rw [h]
    exact (d.unique d' happend (Level.stopsAt_nil _) (Level.stopsAt_nil _)).1
  · obtain ⟨d, ht, -, rfl⟩ := ofTokens_eq_ok_iff.mp h
    have hinorder := d.unbracketed_tokens []
    simpa [ht, Token.unbracketed] using hinorder.symm

end Expr

end Reckoner
