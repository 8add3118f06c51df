import Reckoner.Proofs.Grammar.Derivation

/-!
# Grammar — the runs of a reading

`Cursor.read` and `Cursor.links` as one relation: `Run stop task c r c'` says that `task`, started
at `c`, comes to `r` and leaves the cursor at `c'`.  A task is to read a level, or to read the
links of a chain whose first operand and first links are known.  There is one rule for each way
that a reading can go, failures included.

**Every reading is a run, and the only one from its start** (`run_iff`).  So what holds of every
run holds of the reader, by one induction over the rules, without the bookkeeping by which the
reader shows that it ends.
-/

namespace Reckoner

/-- The levels that are chains. -/
inductive Level.Chained : Level → Prop where
  | sum     : Chained .sum
  | product : Chained .product
  | power   : Chained .power

/-- What a reader has to do: read a level, or the links of a chain behind its `first` operand and
the links `done`, the last one first. -/
inductive Task where
  | read (level : Level)
  | links (level : Level) (first : Expr) (done : List (Operator × Expr))

/-- `task` at the first cursor comes to a tree or a failure, and ends at the second cursor. -/
inductive Run (stop : Nat) : Task → Cursor → Except Failure Expr → Cursor → Prop where
  | noToken {depth : Nat} :
      Run stop (.read .atom) ⟨[], depth⟩ (.error (.malformed .unexpectedEnd stop)) ⟨[], depth⟩
  | noOperand {found : Token} {position depth : Nat} {rest : List PlacedToken}
      (hn : ∀ value, found ≠ .number value) (ho : found ≠ .opening) :
      Run stop (.read .atom) ⟨⟨found, position⟩ :: rest, depth⟩
        (.error (.malformed (.expectedOperand found) position)) ⟨rest, depth⟩
  | number {value : Float} {position depth : Nat} {rest : List PlacedToken} :
      Run stop (.read .atom) ⟨⟨.number value, position⟩ :: rest, depth⟩ (.ok (.literal value))
        ⟨rest, depth⟩
  | emptyGroup {position closing depth : Nat} {rest : List PlacedToken} :
      Run stop (.read .atom) ⟨⟨.opening, position⟩ :: ⟨.closing, closing⟩ :: rest, depth⟩
        (.error (.malformed .emptyParentheses position)) ⟨⟨.closing, closing⟩ :: rest, depth⟩
  | tooDeep {position depth : Nat} {rest : List PlacedToken}
      (hc : ∀ closing behind, rest ≠ ⟨.closing, closing⟩ :: behind) (hd : nestingLimit ≤ depth) :
      Run stop (.read .atom) ⟨⟨.opening, position⟩ :: rest, depth⟩
        (.error (.malformed .nestedTooDeeply position)) ⟨rest, depth⟩
  | groupFails {position depth : Nat} {rest : List PlacedToken} {failure : Failure}
      {after : Cursor} (hc : ∀ closing behind, rest ≠ ⟨.closing, closing⟩ :: behind)
      (hd : depth < nestingLimit) (inner : Run stop (.read .sum) ⟨rest, depth + 1⟩ (.error failure) after) :
      Run stop (.read .atom) ⟨⟨.opening, position⟩ :: rest, depth⟩ (.error failure)
        ⟨after.ahead, after.depth - 1⟩
  | groupUnclosed {position depth depth' : Nat} {rest : List PlacedToken} {e : Expr}
      (hc : ∀ closing behind, rest ≠ ⟨.closing, closing⟩ :: behind) (hd : depth < nestingLimit)
      (inner : Run stop (.read .sum) ⟨rest, depth + 1⟩ (.ok e) ⟨[], depth'⟩) :
      Run stop (.read .atom) ⟨⟨.opening, position⟩ :: rest, depth⟩
        (.error (.malformed .missingClosing stop)) ⟨[], depth' - 1⟩
  | groupBroken {position depth position' depth' : Nat} {found : Token}
      {rest behind : List PlacedToken} {e : Expr}
      (hc : ∀ closing behind, rest ≠ ⟨.closing, closing⟩ :: behind) (hd : depth < nestingLimit)
      (inner : Run stop (.read .sum) ⟨rest, depth + 1⟩ (.ok e)
        ⟨⟨found, position'⟩ :: behind, depth'⟩) (hf : found ≠ .closing) :
      Run stop (.read .atom) ⟨⟨.opening, position⟩ :: rest, depth⟩
        (.error (.malformed (.expectedClosing found) position')) ⟨behind, depth' - 1⟩
  | group {position depth position' depth' : Nat} {rest behind : List PlacedToken} {e : Expr}
      (hc : ∀ closing behind, rest ≠ ⟨.closing, closing⟩ :: behind) (hd : depth < nestingLimit)
      (inner : Run stop (.read .sum) ⟨rest, depth + 1⟩ (.ok e)
        ⟨⟨.closing, position'⟩ :: behind, depth'⟩) :
      Run stop (.read .atom) ⟨⟨.opening, position⟩ :: rest, depth⟩ (.ok e) ⟨behind, depth' - 1⟩
  | minus {position depth : Nat} {rest : List PlacedToken} {r : Except Failure Expr}
      {after : Cursor} (operand : Run stop (.read .atom) ⟨rest, depth⟩ r after) :
      Run stop (.read .unary) ⟨⟨.operator .sub, position⟩ :: rest, depth⟩ (r.map .negate) after
  | plain {c : Cursor} {r : Except Failure Expr} {after : Cursor}
      (hm : ∀ position rest, c.ahead ≠ ⟨.operator .sub, position⟩ :: rest)
      (operand : Run stop (.read .atom) c r after) : Run stop (.read .unary) c r after
  | chainFails {level : Level} {c after : Cursor} {failure : Failure} (hl : level.Chained)
      (first : Run stop (.read level.operand) c (.error failure) after) :
      Run stop (.read level) c (.error failure) after
  | chain {level : Level} {c after c' : Cursor} {first : Expr} {r : Except Failure Expr}
      (hl : level.Chained) (operand : Run stop (.read level.operand) c (.ok first) after)
      (links : Run stop (.links level first []) after r c') : Run stop (.read level) c r c'
  | linksEnd {level : Level} {first : Expr} {done : List (Operator × Expr)} {c : Cursor}
      (ho : c.operator? level.strength = none) :
      Run stop (.links level first done) c (.ok (.ofChain first done.reverse)) c
  | linkFails {level : Level} {first : Expr} {done : List (Operator × Expr)} {op : Operator}
      {position depth : Nat} {rest : List PlacedToken} {failure : Failure} {after : Cursor}
      (ho : op.precedence = level.strength)
      (operand : Run stop (.read level.operand) ⟨rest, depth⟩ (.error failure) after) :
      Run stop (.links level first done) ⟨⟨.operator op, position⟩ :: rest, depth⟩
        (.error failure) after
  | link {level : Level} {first e : Expr} {done : List (Operator × Expr)} {op : Operator}
      {position depth : Nat} {rest : List PlacedToken} {after c' : Cursor}
      {r : Except Failure Expr} (ho : op.precedence = level.strength)
      (operand : Run stop (.read level.operand) ⟨rest, depth⟩ (.ok e) after)
      (links : Run stop (.links level first ((op, e) :: done)) after r c') :
      Run stop (.links level first done) ⟨⟨.operator op, position⟩ :: rest, depth⟩ r c'

namespace Run

variable {stop : Nat}

/-- A run is the only one of its task from its start. -/
theorem functional {task : Task} {c c₁ : Cursor} {r₁ : Except Failure Expr}
    (h₁ : Run stop task c r₁ c₁) :
    ∀ {r₂ : Except Failure Expr} {c₂ : Cursor}, Run stop task c r₂ c₂ → r₁ = r₂ ∧ c₁ = c₂ := by
  -- rules for the same token exclude each other by their guards, or by what the inner run, which
  -- is the only one already, comes to
  induction h₁ with
  | noToken =>
      intro r₂ c₂ h₂
      cases h₂ with
      | noToken => exact ⟨rfl, rfl⟩
      | chain hl | chainFails hl => cases hl
  | noOperand hn ho =>
      intro r₂ c₂ h₂
      cases h₂ with
      | noOperand => exact ⟨rfl, rfl⟩
      | number => exact absurd rfl (hn _)
      | emptyGroup | tooDeep | groupFails | groupUnclosed | groupBroken | group =>
          exact absurd rfl ho
      | chain hl | chainFails hl => cases hl
  | number =>
      intro r₂ c₂ h₂
      cases h₂ with
      | number => exact ⟨rfl, rfl⟩
      | noOperand hn => exact absurd rfl (hn _)
      | chain hl | chainFails hl => cases hl
  | emptyGroup =>
      intro r₂ c₂ h₂
      cases h₂ with
      | emptyGroup => exact ⟨rfl, rfl⟩
      | noOperand _ ho => exact absurd rfl ho
      | tooDeep hc | groupFails hc | groupUnclosed hc | groupBroken hc | group hc =>
          exact absurd rfl (hc _ _)
      | chain hl | chainFails hl => cases hl
  | tooDeep hc hd =>
      intro r₂ c₂ h₂
      cases h₂ with
      | tooDeep => exact ⟨rfl, rfl⟩
      | noOperand _ ho => exact absurd rfl ho
      | emptyGroup => exact absurd rfl (hc _ _)
      | groupFails _ hd' | groupUnclosed _ hd' | groupBroken _ hd' | group _ hd' => omega
      | chain hl | chainFails hl => cases hl
  | groupFails hc hd _ ih =>
      intro r₂ c₂ h₂
      cases h₂ with
      | groupFails _ _ inner =>
          obtain ⟨he, rfl⟩ := ih inner
          exact ⟨he, rfl⟩
      | groupUnclosed _ _ inner | groupBroken _ _ inner | group _ _ inner =>
          exact absurd (ih inner).1 (by simp)
      | noOperand _ ho => exact absurd rfl ho
      | emptyGroup => exact absurd rfl (hc _ _)
      | tooDeep _ hd' => omega
      | chain hl | chainFails hl => cases hl
  | groupUnclosed hc hd _ ih =>
      intro r₂ c₂ h₂
      cases h₂ with
      | groupUnclosed _ _ inner =>
          obtain ⟨-, he⟩ := ih inner
          cases he
          exact ⟨rfl, rfl⟩
      | groupFails _ _ inner => exact absurd (ih inner).1 (by simp)
      | groupBroken _ _ inner | group _ _ inner => exact absurd (ih inner).2 (by simp)
      | noOperand _ ho => exact absurd rfl ho
      | emptyGroup => exact absurd rfl (hc _ _)
      | tooDeep _ hd' => omega
      | chain hl | chainFails hl => cases hl
  | groupBroken hc hd _ hf ih =>
      intro r₂ c₂ h₂
      cases h₂ with
      | groupBroken _ _ inner =>
          obtain ⟨-, he⟩ := ih inner
          cases he
          exact ⟨rfl, rfl⟩
      | group _ _ inner =>
          obtain ⟨-, he⟩ := ih inner
          cases he
          exact absurd rfl hf
      | groupFails _ _ inner => exact absurd (ih inner).1 (by simp)
      | groupUnclosed _ _ inner => exact absurd (ih inner).2 (by simp)
      | noOperand _ ho => exact absurd rfl ho
      | emptyGroup => exact absurd rfl (hc _ _)
      | tooDeep _ hd' => omega
      | chain hl | chainFails hl => cases hl
  | group hc hd _ ih =>
      intro r₂ c₂ h₂
      cases h₂ with
      | group _ _ inner =>
          obtain ⟨he, hc'⟩ := ih inner
          cases hc'
          exact ⟨he, rfl⟩
      | groupBroken _ _ inner hf =>
          obtain ⟨-, he⟩ := ih inner
          cases he
          exact absurd rfl hf
      | groupFails _ _ inner => exact absurd (ih inner).1 (by simp)
      | groupUnclosed _ _ inner => exact absurd (ih inner).2 (by simp)
      | noOperand _ ho => exact absurd rfl ho
      | emptyGroup => exact absurd rfl (hc _ _)
      | tooDeep _ hd' => omega
      | chain hl | chainFails hl => cases hl
  | minus _ ih =>
      intro r₂ c₂ h₂
      cases h₂ with
      | minus operand =>
          obtain ⟨rfl, rfl⟩ := ih operand
          exact ⟨rfl, rfl⟩
      | plain hm => exact absurd rfl (hm _ _)
      | chain hl | chainFails hl => cases hl
  | plain hm _ ih =>
      intro r₂ c₂ h₂
      cases h₂ with
      | plain _ operand => exact ih operand
      | minus => exact absurd rfl (hm _ _)
      | chain hl | chainFails hl => cases hl
  | chainFails hl _ ih =>
      intro r₂ c₂ h₂
      cases h₂ with
      | chainFails _ first => exact ih first
      | chain _ operand => exact absurd (ih operand).1 (by simp)
      | _ => cases hl
  | chain hl _ _ ihFirst ih =>
      intro r₂ c₂ h₂
      cases h₂ with
      | chain _ operand links =>
          obtain ⟨he, rfl⟩ := ihFirst operand
          cases he
          exact ih links
      | chainFails _ first => exact absurd (ihFirst first).1 (by simp)
      | _ => cases hl
  | linksEnd ho =>
      intro r₂ c₂ h₂
      cases h₂ with
      | linksEnd => exact ⟨rfl, rfl⟩
      | link ho' | linkFails ho' => simp [Cursor.operator?, ho'] at ho
  | linkFails ho _ ih =>
      intro r₂ c₂ h₂
      cases h₂ with
      | linkFails _ operand => exact ih operand
      | link _ operand => exact absurd (ih operand).1 (by simp)
      | linksEnd ho' => simp [Cursor.operator?, ho] at ho'
  | link ho _ _ ihOperand ih =>
      intro r₂ c₂ h₂
      cases h₂ with
      | link _ operand links =>
          obtain ⟨he, rfl⟩ := ihOperand operand
          cases he
          exact ih links
      | linkFails _ operand => exact absurd (ihOperand operand).1 (by simp)
      | linksEnd ho' => simp [Cursor.operator?, ho] at ho'

/-- A reading fails by a complaint. -/
theorem malformed {task : Task} {c c' : Cursor} {r : Except Failure Expr}
    (h : Run stop task c r c') : ∀ failure, r = .error failure →
      ∃ complaint position, failure = .malformed complaint position := by
  induction h with
  | noToken | noOperand | emptyGroup | tooDeep | groupUnclosed | groupBroken =>
      rintro failure ⟨⟩
      exact ⟨_, _, rfl⟩
  | number | group | linksEnd => intro failure h; cases h
  | groupFails _ _ _ ih | chainFails _ _ ih | linkFails _ _ ih => exact ih
  | plain _ _ ih | chain _ _ _ _ ih | link _ _ _ _ ih => exact ih
  | @minus _ _ _ r _ _ ih =>
      intro failure h
      cases r with
      | error failure' => cases h; exact ih failure rfl
      | ok e => cases h

end Run

/-! ### The reader runs -/

/-- A reading is a run of a task from where it starts. -/
def Reading.IsRun (stop : Nat) (task : Task) {start : Cursor} (reading : Reading start) : Prop :=
  Run stop task start reading.result reading.cursor

theorem Cursor.eq_of_operator? {strength : Nat} {c next : Cursor} {op : Operator}
    (h : c.operator? strength = some (op, next)) :
    op.precedence = strength ∧
      ∃ position, c = ⟨⟨.operator op, position⟩ :: next.ahead, next.depth⟩ := by
  obtain ⟨ahead, depth⟩ := c
  unfold Cursor.operator? at h
  split at h
  · rename_i e
    split at h
    · rename_i hp
      obtain ⟨rfl, rfl⟩ := by simpa using h
      exact ⟨hp, _, by simpa using e⟩
    · simp at h
  · simp at h

namespace Run

variable {stop : Nat}

/-- If operands are read by runs, so are links. -/
theorem of_links {level : Level} {start : Cursor} {operand : Cursor.Operand start} (first : Expr)
    (hr : ∀ c hc, (operand c hc).IsRun stop (.read level.operand))
    (done : List (Operator × Expr)) (c : Cursor) (hc : c.ahead.length ≤ start.ahead.length) :
    Run stop (.links level first done) c
      (Cursor.links level.strength operand first done c hc).result
      (Cursor.links level.strength operand first done c hc).cursor := by
  fun_induction Cursor.links level.strength operand first done c hc with
  | case1 done c hc ho => exact .linksEnd ho
  | case2 done c hc op next ho hnext e after hafter he =>
      obtain ⟨hp, position, rfl⟩ := Cursor.eq_of_operator? ho
      have hrun := hr next (Nat.le_trans hnext hc)
      rw [he] at hrun
      exact .linkFails hp hrun
  | case3 done c hc op next ho hnext e after hafter he ih =>
      obtain ⟨hp, position, rfl⟩ := Cursor.eq_of_operator? ho
      have hrun := hr next (Nat.le_trans hnext hc)
      rw [he] at hrun
      exact .link hp hrun ih

/-- If operands are read by runs, so are chains. -/
theorem of_chain {level : Level} (hl : level.Chained) {start : Cursor}
    {operand : Cursor.Operand start}
    (hr : ∀ c hc, (operand c hc).IsRun stop (.read level.operand)) :
    (Cursor.chain level.strength operand).IsRun stop (.read level) := by
  have hfirst := hr start (Nat.le_refl _)
  unfold Cursor.chain
  split
  · rename_i e
    rw [e] at hfirst
    exact .chainFails hl hfirst
  · rename_i e
    rw [e] at hfirst
    exact .chain hl hfirst (of_links _ hr [] _ _)

/-- Every reading is a run. -/
theorem of_read : ∀ (level : Level) (c : Cursor), (Cursor.read stop level c).IsRun stop (.read level)
  | .sum, c => by rw [Cursor.read]; exact of_chain .sum fun c _ => of_read .product c
  | .product, c => by rw [Cursor.read]; exact of_chain .product fun c _ => of_read .power c
  | .power, c => by rw [Cursor.read]; exact of_chain .power fun c _ => of_read .unary c
  | .unary, ⟨ahead, depth⟩ => by
      rw [Cursor.read]
      split
      -- the reading is for whatever starts as the pattern says, and only then is the start known
      · rename_i position rest h
        have operand := of_read .atom ⟨rest, depth⟩
        dsimp only [Reading.IsRun] at h operand ⊢
        subst h
        exact .minus operand
      · rename_i hm
        exact .plain hm (of_read .atom ⟨ahead, depth⟩)
  | .atom, ⟨ahead, depth⟩ => by
      rw [Cursor.read]
      split
      · rename_i h
        dsimp only [Reading.IsRun] at h ⊢
        subst h
        exact .noToken
      · rename_i h
        dsimp only [Reading.IsRun] at h ⊢
        subst h
        exact .number
      · rename_i h
        dsimp only [Reading.IsRun] at h ⊢
        subst h
        exact .emptyGroup
      · rename_i position rest hc h
        split
        · rename_i hd
          dsimp only [Reading.IsRun] at h ⊢
          subst h
          exact .tooDeep hc hd
        · rename_i hd
          have inner := of_read .sum ⟨rest, depth + 1⟩
          split
          · rename_i e
            dsimp only [Reading.IsRun] at h e inner ⊢
            subst h
            rw [e] at inner
            exact .groupFails hc (Nat.lt_of_not_le hd) inner
          · rename_i after hafter e
            obtain ⟨ahead', depth'⟩ := after
            split
            · rename_i h'
              dsimp only [Reading.IsRun] at h h' e inner ⊢
              subst h h'
              rw [e] at inner
              exact .groupUnclosed hc (Nat.lt_of_not_le hd) inner
            · rename_i h'
              dsimp only [Reading.IsRun] at h h' e inner ⊢
              subst h h'
              rw [e] at inner
              exact .group hc (Nat.lt_of_not_le hd) inner
            · rename_i hf h'
              dsimp only [Reading.IsRun] at h h' e inner ⊢
              subst h h'
              rw [e] at inner
              exact .groupBroken hc (Nat.lt_of_not_le hd) inner hf
      · rename_i hn _ ho h
        dsimp only [Reading.IsRun] at h ⊢
        subst h
        exact .noOperand hn ho
termination_by level c => (c.ahead.length, level.below)
decreasing_by
  all_goals simp_all [Prod.lex_def, Level.below] <;> omega

/-- **The reader is the one run from where it starts.** -/
theorem run_iff {level : Level} {c c' : Cursor} {r : Except Failure Expr} :
    Run stop (.read level) c r c' ↔
      (Cursor.read stop level c).result = r ∧ (Cursor.read stop level c).cursor = c' :=
  ⟨fun h => (of_read level c).functional h, fun ⟨hr, hc⟩ => hr ▸ hc ▸ of_read level c⟩

end Run

end Reckoner
