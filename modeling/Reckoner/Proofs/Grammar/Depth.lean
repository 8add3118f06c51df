import Reckoner.Proofs.Grammar.Acceptance

/-!
# Grammar — too deep

A derivation whose parentheses do not fit under the nesting limit is read up to the parenthesis
that is one too many, and fails there: nothing in front of it can be at fault, since it is the
front of a derivation.  So **tokens that have a derivation are read as its tree or fail for being
nested too deeply**, the one or the other by the nesting of the derivation alone
(`Expr.ofTokens_of_derivation`).
-/

namespace Reckoner

variable {stop : Nat}

/-- A task fails for being nested too deeply. -/
def Task.TooDeep (stop : Nat) (task : Task) (c : Cursor) : Prop :=
  ∃ position after, Run stop task c (.error (.malformed .nestedTooDeeply position)) after

/-- A chain of two parts fails where the first part does, or else where the second one does. -/
theorem Task.tooDeep_chain {level : Level} (hl : level.Chained) {c c' : Cursor} {first : Expr}
    {room n m : Nat} (hn : room < max n m)
    (hfails : room < n → (Task.read level.operand).TooDeep stop c)
    (hfirst : n ≤ room → Run stop (.read level.operand) c (.ok first) c')
    (hlinks : room < m → (Task.links level first []).TooDeep stop c') :
    (Task.read level).TooDeep stop c := by
  rcases Nat.lt_or_ge room n with hlt | hle
  · obtain ⟨position, after, hrun⟩ := hfails hlt
    exact ⟨position, after, .chainFails hl hrun⟩
  · obtain ⟨position, after, hrun⟩ := hlinks (by omega)
    exact ⟨position, after, .chain hl (hfirst hle) hrun⟩

/-- So do the links of a chain, the first of them and the others. -/
theorem Task.tooDeep_links {level : Level} {first e : Expr} {done : List (Operator × Expr)}
    {op : Operator} (ho : op.precedence = level.strength) {position depth : Nat}
    {rest : List PlacedToken} {c' : Cursor} {room n m : Nat} (hn : room < max n m)
    (hfails : room < n → (Task.read level.operand).TooDeep stop ⟨rest, depth⟩)
    (hfirst : n ≤ room → Run stop (.read level.operand) ⟨rest, depth⟩ (.ok e) c')
    (hlinks : room < m → (Task.links level first ((op, e) :: done)).TooDeep stop c') :
    (Task.links level first done).TooDeep stop ⟨⟨.operator op, position⟩ :: rest, depth⟩ := by
  rcases Nat.lt_or_ge room n with hlt | hle
  · obtain ⟨position', after, hrun⟩ := hfails hlt
    exact ⟨position', after, .linkFails ho hrun⟩
  · obtain ⟨position', after, hrun⟩ := hlinks (by omega)
    exact ⟨position', after, .link ho (hfirst hle) hrun⟩

mutual
/-- **A derivation that does not fit under the limit fails for its depth**, in front of tokens that
cannot continue it. -/
theorem Derivation.tooDeep : ∀ {level : Level} (d : Derivation level)
    {used rest : List PlacedToken} {depth : Nat}, used.map (·.token) = d.tokens →
      nestingLimit - depth < d.nesting → level.StopsAt (rest.map (·.token)) →
      (Task.read level).TooDeep stop ⟨used ++ rest, depth⟩
  | _, .number value, used, rest, depth, _, hn, _ => absurd hn (Nat.not_lt_zero _)
  | _, .group inner, used, rest, depth, ht, hn, _ => by
      simp only [Derivation.tokens, List.map_eq_cons_iff, List.map_eq_append_iff,
        List.map_eq_nil_iff] at ht
      obtain ⟨⟨_, position⟩, _, rfl, rfl, used, _, rfl, hused, ⟨_, closing⟩, _, rfl, rfl, rfl⟩ := ht
      simp only [Derivation.nesting] at hn
      rw [List.cons_append, List.append_assoc, List.singleton_append]
      have hc := inner.append_ne_closing hused (⟨.closing, closing⟩ :: rest)
      -- this parenthesis is one too many, or there is one inside of it
      by_cases hd : nestingLimit ≤ depth
      · exact ⟨position, _, .tooDeep hc hd⟩
      · have hinner : nestingLimit - (depth + 1) < inner.nesting := by omega
        have hs : Level.sum.StopsAt ((⟨.closing, closing⟩ :: rest).map (·.token)) :=
          Level.stopsAt_closing _ _
        obtain ⟨position', after, hrun⟩ := inner.tooDeep hused hinner hs
        exact ⟨position', _, .groupFails hc (Nat.lt_of_not_le hd) hrun⟩
  | _, .plain operand, used, rest, depth, ht, hn, _ => by
      obtain ⟨position, after, hrun⟩ := operand.tooDeep ht hn (Level.stopsAt_atom _)
      exact ⟨position, after, .plain (operand.append_ne_minus ht rest) hrun⟩
  | _, .minus operand, used, rest, depth, ht, hn, _ => by
      obtain ⟨⟨_, position⟩, used, rfl, rfl, hused⟩ := List.map_eq_cons_iff.mp ht
      obtain ⟨position', after, hrun⟩ := operand.tooDeep hused hn (Level.stopsAt_atom _)
      exact ⟨position', after, .minus hrun⟩
  | _, .base operand, used, rest, depth, ht, hn, _ => by
      obtain ⟨position, after, hrun⟩ := operand.tooDeep ht hn (Level.stopsAt_unary _)
      exact ⟨position, after, .chainFails .power hrun⟩
  | _, .raised operand exponent, used, rest, depth, ht, hn, hs => by
      obtain ⟨used₁, used₂, rfl, ht₁, ht₂⟩ := List.map_eq_append_iff.mp ht
      rw [List.append_assoc]
      exact Task.tooDeep_chain .power hn
        (fun hlt => operand.tooDeep ht₁ hlt (Level.stopsAt_unary _))
        (fun hle => operand.run ht₁ hle (Level.stopsAt_unary _))
        (fun hlt => exponent.links_tooDeep ht₂ hlt hs operand.tree [])
  | _, .product first tail, used, rest, depth, ht, hn, hs => by
      obtain ⟨used₁, used₂, rfl, ht₁, ht₂⟩ := List.map_eq_append_iff.mp ht
      have hs₁ := tail.stopsAt_placed ht₂ hs
      rw [List.append_assoc]
      exact Task.tooDeep_chain .product hn (fun hlt => first.tooDeep ht₁ hlt hs₁)
        (fun hle => first.run ht₁ hle hs₁) (fun hlt => tail.tooDeep ht₂ hlt hs first.tree [])
  | _, .sum first tail, used, rest, depth, ht, hn, hs => by
      obtain ⟨used₁, used₂, rfl, ht₁, ht₂⟩ := List.map_eq_append_iff.mp ht
      have hs₁ := tail.stopsAt_placed ht₂ hs
      rw [List.append_assoc]
      exact Task.tooDeep_chain .sum hn (fun hlt => first.tooDeep ht₁ hlt hs₁)
        (fun hle => first.run ht₁ hle hs₁) (fun hlt => tail.tooDeep ht₂ hlt hs first.tree [])
termination_by _ d => sizeOf d

/-- The links of a power fail for the depth of what follows its first operator. -/
theorem Derivation.links_tooDeep : ∀ (d : Derivation .power) {used rest : List PlacedToken}
    {depth : Nat}, used.map (·.token) = .operator .pow :: d.tokens →
      nestingLimit - depth < d.nesting → Level.power.StopsAt (rest.map (·.token)) →
      ∀ (first : Expr) (done : List (Operator × Expr)),
        (Task.links .power first done).TooDeep stop ⟨used ++ rest, depth⟩
  | .base operand, used, rest, depth, ht, hn, hs, first, done => by
      obtain ⟨⟨_, position⟩, used, rfl, rfl, hused⟩ := List.map_eq_cons_iff.mp ht
      obtain ⟨position', after, hrun⟩ := operand.tooDeep hused hn (Level.stopsAt_unary _)
      exact ⟨position', after, .linkFails rfl hrun⟩
  | .raised operand exponent, used, rest, depth, ht, hn, hs, first, done => by
      obtain ⟨⟨_, position⟩, used, rfl, rfl, hused⟩ := List.map_eq_cons_iff.mp ht
      obtain ⟨used₁, used₂, rfl, ht₁, ht₂⟩ := List.map_eq_append_iff.mp hused
      rw [List.cons_append, List.append_assoc]
      exact Task.tooDeep_links rfl hn
        (fun hlt => operand.tooDeep ht₁ hlt (Level.stopsAt_unary _))
        (fun hle => operand.run ht₁ hle (Level.stopsAt_unary _))
        (fun hlt => exponent.links_tooDeep ht₂ hlt hs first ((.pow, operand.tree) :: done))
termination_by d => sizeOf d

/-- The links of a chain fail for the depth of its tail. -/
theorem Tail.tooDeep : ∀ {level : Level} (tail : Tail level) {used rest : List PlacedToken}
    {depth : Nat}, used.map (·.token) = tail.tokens → nestingLimit - depth < tail.nesting →
      level.StopsAt (rest.map (·.token)) →
      ∀ (first : Expr) (done : List (Operator × Expr)),
        (Task.links level first done).TooDeep stop ⟨used ++ rest, depth⟩
  | _, .done, used, rest, depth, _, hn, _, first, done => absurd hn (Nat.not_lt_zero _)
  | _, .link op mem operand tail, used, rest, depth, ht, hn, hs, first, done => by
      obtain ⟨⟨_, position⟩, used, rfl, rfl, hused⟩ := List.map_eq_cons_iff.mp ht
      obtain ⟨used₁, used₂, rfl, ht₁, ht₂⟩ := List.map_eq_append_iff.mp hused
      have hs₁ := tail.stopsAt_placed ht₂ hs
      rw [List.cons_append, List.append_assoc]
      exact Task.tooDeep_links (Level.mem_operators_iff.mp mem) hn
        (fun hlt => operand.tooDeep ht₁ hlt hs₁) (fun hle => operand.run ht₁ hle hs₁)
        (fun hlt => tail.tooDeep ht₂ hlt hs first ((op, operand.tree) :: done))
termination_by _ tail => sizeOf tail
end

/-- A failing run from the start is the failure of the reader. -/
theorem Expr.ofTokens_eq_error {tokens : List PlacedToken} {failure : Failure} {after : Cursor}
    (hne : tokens ≠ [])
    (h : Run (endOf tokens) (.read .sum) ⟨tokens, 0⟩ (.error failure) after) :
    ofTokens tokens = .error failure := by
  obtain ⟨hresult, -⟩ := Run.run_iff.mp h
  unfold ofTokens
  rw [if_neg (by simpa using hne)]
  split
  · rename_i heq
    rw [heq] at hresult
    exact hresult
  · rename_i heq
    rw [heq] at hresult
    cases hresult

/-- **The nesting of a derivation decides what comes of its tokens**: its tree, if the parentheses
fit under the limit, and otherwise the failure of being nested too deeply. -/
theorem Expr.ofTokens_of_derivation {tokens : List PlacedToken} (d : Derivation .sum)
    (ht : d.tokens = tokens.map (·.token)) :
    (d.nesting ≤ nestingLimit → ofTokens tokens = .ok d.tree) ∧
    (nestingLimit < d.nesting →
      ∃ position, ofTokens tokens = .error (.malformed .nestedTooDeeply position)) := by
  constructor
  · intro hn
    exact ofTokens_eq_ok_iff.mpr ⟨d, ht, hn, rfl⟩
  · intro hn
    obtain ⟨position, after, hrun⟩ : (Task.read .sum).TooDeep (endOf tokens) ⟨tokens ++ [], 0⟩ :=
      d.tooDeep ht.symm hn (Level.stopsAt_nil _)
    rw [List.append_nil] at hrun
    refine ⟨position, ofTokens_eq_error ?_ hrun⟩
    rintro rfl
    obtain ⟨t, ts, hhead, -⟩ := d.exists_head
    rw [hhead] at ht
    cases ht

end Reckoner
