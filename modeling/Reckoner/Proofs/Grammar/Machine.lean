import Mathlib.Logic.Relation
import Reckoner.Proofs.Grammar.Run

/-!
# Grammar — the reader, step by step

`Cursor.read` says what comes of a reading and where it ends, but not where it has been.  The
machine of this module reads in single steps: it holds an index into the tokens, the number of
parentheses that are open, what it is about, and frames for what it has left for later.  Whatever
index and depth a reading passes through, some state of the machine has them.

A step moves the index by one token at most, and either leaves the depth as it is, opens a
parenthesis within the limit, or closes the innermost one (`Machine.Step.moves`).

**The machine stops, and only where the reader ends, with what comes of the reading**
(`Machine.stops_iff`).  The same holds of every task that it begins on its way: it comes back from
it as a run of that task ends (`Run.comesBack`, `Run.exists_run`).
-/

namespace Reckoner

/-! ### States -/

/-- What is left for later while something is read. -/
inductive Frame where
  /-- the minus in front of it -/
  | minus
  /-- the parenthesis around it -/
  | group
  /-- the chain of which it is the first operand -/
  | chain (level : Level)
  /-- the chain with these links, of which it is the operand behind `op` -/
  | link (level : Level) (first : Expr) (done : List (Operator × Expr)) (op : Operator)

/-- What a machine is about: to begin a task, or to come back with a result. -/
inductive Focus where
  | call (task : Task)
  | back (result : Except Failure Expr)

/-- A reader on its way. -/
structure Machine where
  focus  : Focus
  frames : List Frame
  index  : Nat
  depth  : Nat

namespace Machine

/-- A machine that is to read a level. -/
def start (level : Level) (index depth : Nat) : Machine :=
  ⟨.call (.read level), [], index, depth⟩

/-- Comes back with a complaint. -/
def complain (complaint : Complaint) (position : Nat) (m : Machine) : Machine :=
  { m with focus := .back (.error (.malformed complaint position)) }

/-- Goes on to the next token. -/
def advance (m : Machine) : Machine :=
  { m with index := m.index + 1 }

section

variable (stop : Nat) (tokens : List PlacedToken)

/-- Begins an atom. -/
def atom (m : Machine) : Machine :=
  match tokens[m.index]? with
  | none => m.complain .unexpectedEnd stop
  | some ⟨.number value, _⟩ => { m.advance with focus := .back (.ok (.literal value)) }
  | some ⟨.opening, position⟩ =>
    match tokens[m.index + 1]? with
    | some ⟨.closing, _⟩ => m.advance.complain .emptyParentheses position
    | _ =>
      if nestingLimit ≤ m.depth then m.advance.complain .nestedTooDeeply position
      else ⟨.call (.read .sum), .group :: m.frames, m.index + 1, m.depth + 1⟩
  | some ⟨found, position⟩ => m.advance.complain (.expectedOperand found) position

/-- Begins a unary term. -/
def unary (m : Machine) : Machine :=
  match tokens[m.index]? with
  | some ⟨.operator .sub, _⟩ =>
    { m.advance with focus := .call (.read .atom), frames := .minus :: m.frames }
  | _ => { m with focus := .call (.read .atom) }

/-- Begins the links of a chain. -/
def links (level : Level) (first : Expr) (done : List (Operator × Expr)) (m : Machine) :
    Machine :=
  let last := { m with focus := .back (.ok (.ofChain first done.reverse)) }
  match tokens[m.index]? with
  | some ⟨.operator op, _⟩ =>
    if op.precedence = level.strength then
      { m.advance with
        focus := .call (.read level.operand), frames := .link level first done op :: m.frames }
    else last
  | _ => last

/-- Begins a task. -/
def begin (m : Machine) : Task → Machine
  | .read .atom  => m.atom stop tokens
  | .read .unary => m.unary tokens
  | .read level  =>
    { m with focus := .call (.read level.operand), frames := .chain level :: m.frames }
  | .links level first done => m.links tokens level first done

/-- Closes a parenthesis, with what has been read in it. -/
def close (result : Except Failure Expr) (m : Machine) : Machine :=
  let closed := { m with depth := m.depth - 1 }
  match result with
  | .error e => { closed with focus := .back (.error e) }
  | .ok e =>
    match tokens[m.index]? with
    | none => closed.complain .missingClosing stop
    | some ⟨.closing, _⟩ => { closed.advance with focus := .back (.ok e) }
    | some ⟨found, position⟩ => closed.advance.complain (.expectedClosing found) position

/-- Goes on with what has been left for later, now that there is a result. -/
def resume (result : Except Failure Expr) (m : Machine) : Frame → Machine
  | .minus => { m with focus := .back (result.map .negate) }
  | .group => m.close stop tokens result
  | .chain level =>
    match result with
    | .error e => { m with focus := .back (.error e) }
    | .ok first => { m with focus := .call (.links level first []) }
  | .link level first done op =>
    match result with
    | .error e => { m with focus := .back (.error e) }
    | .ok e => { m with focus := .call (.links level first ((op, e) :: done)) }

/-- The state behind the next step; none if nothing is left to be done. -/
def next? (m : Machine) : Option Machine :=
  match m.focus, m.frames with
  | .call task, _                 => some (m.begin stop tokens task)
  | .back result, frame :: frames => some ({ m with frames }.resume stop tokens result frame)
  | .back _, []                   => none

/-- One step. -/
def Step (m m' : Machine) : Prop :=
  m.next? stop tokens = some m'

/-- Any number of steps. -/
def Steps : Machine → Machine → Prop :=
  Relation.ReflTransGen (Step stop tokens)

/-- Nothing is left to be done. -/
def Stopped (m : Machine) : Prop :=
  m.next? stop tokens = none

end

/-! ### What a step does to index and depth -/

/-- How many parentheses are open around what is read. -/
def opened : List Frame → Nat
  | []               => 0
  | .group :: frames => opened frames + 1
  | .minus :: frames | .chain _ :: frames | .link .. :: frames => opened frames

variable {stop : Nat} {tokens : List PlacedToken}

/-- The index stays, or goes on to the next token where there is one.  The depth stays, or a
parenthesis is opened within the limit, or the innermost one is closed. -/
structure Moves (tokens : List PlacedToken) (m m' : Machine) : Prop where
  index : m'.index = m.index ∨ m'.index = m.index + 1 ∧ m.index < tokens.length
  depth : (m'.depth = m.depth ∧ opened m'.frames = opened m.frames) ∨
    (m'.depth = m.depth + 1 ∧ m.depth < nestingLimit ∧
      opened m'.frames = opened m.frames + 1) ∨
    (m'.depth = m.depth - 1 ∧ opened m.frames = opened m'.frames + 1)

theorem lt_length_of_getElem? {i : Nat} {t : PlacedToken} (h : tokens[i]? = some t) :
    i < tokens.length :=
  (List.getElem?_eq_some_iff.mp h).1

theorem Moves.stays {m m' : Machine} (hi : m'.index = m.index) (hd : m'.depth = m.depth)
    (hf : opened m'.frames = opened m.frames) : Moves tokens m m' :=
  ⟨.inl hi, .inl ⟨hd, hf⟩⟩

theorem Moves.advances {m m' : Machine} {t : PlacedToken} (ht : tokens[m.index]? = some t)
    (hi : m'.index = m.index + 1) (hd : m'.depth = m.depth)
    (hf : opened m'.frames = opened m.frames) : Moves tokens m m' :=
  ⟨.inr ⟨hi, lt_length_of_getElem? ht⟩, .inl ⟨hd, hf⟩⟩

theorem atom_moves (m : Machine) : Moves tokens m (m.atom stop tokens) := by
  unfold atom
  split
  · exact .stays rfl rfl rfl
  · exact .advances ‹_› rfl rfl rfl
  · split
    · exact .advances ‹_› rfl rfl rfl
    · split
      · exact .advances ‹_› rfl rfl rfl
      · refine ⟨.inr ⟨rfl, lt_length_of_getElem? ‹_›⟩, .inr (.inl ⟨rfl, ?_, rfl⟩)⟩
        exact Nat.lt_of_not_le ‹_›
  · exact .advances ‹_› rfl rfl rfl

theorem begin_moves (m : Machine) (task : Task) : Moves tokens m (m.begin stop tokens task) := by
  unfold begin
  split
  · exact atom_moves m
  · unfold unary
    split
    · exact .advances ‹_› rfl rfl rfl
    · exact .stays rfl rfl rfl
  · exact .stays rfl rfl rfl
  · unfold links
    split
    · split
      · exact .advances ‹_› rfl rfl rfl
      · exact .stays rfl rfl rfl
    · exact .stays rfl rfl rfl

theorem close_moves (result : Except Failure Expr) (m : Machine) :
    Moves tokens { m with frames := .group :: m.frames } (m.close stop tokens result) := by
  unfold close
  split
  · exact ⟨.inl rfl, .inr (.inr ⟨rfl, rfl⟩)⟩
  · split
    · exact ⟨.inl rfl, .inr (.inr ⟨rfl, rfl⟩)⟩
    · exact ⟨.inr ⟨rfl, lt_length_of_getElem? ‹_›⟩, .inr (.inr ⟨rfl, rfl⟩)⟩
    · exact ⟨.inr ⟨rfl, lt_length_of_getElem? ‹_›⟩, .inr (.inr ⟨rfl, rfl⟩)⟩

theorem resume_moves (result : Except Failure Expr) (m : Machine) (frame : Frame) :
    Moves tokens { m with frames := frame :: m.frames } (m.resume stop tokens result frame) := by
  cases frame with
  | minus => exact .stays rfl rfl rfl
  | group => exact close_moves result m
  | chain | link => cases result <;> exact .stays rfl rfl rfl

/-- **A step moves the index by one token at most, and counts the parentheses.** -/
theorem Step.moves {m m' : Machine} (h : Step stop tokens m m') : Moves tokens m m' := by
  obtain ⟨focus, frames, index, depth⟩ := m
  match focus, frames, h with
  | .call task, frames, h =>
      cases h
      exact begin_moves _ task
  | .back result, frame :: frames, h =>
      cases h
      exact resume_moves result ⟨.back result, frames, index, depth⟩ frame

theorem Step.index_le {m m' : Machine} (h : Step stop tokens m m') : m.index ≤ m'.index := by
  obtain ⟨hindex | ⟨hindex, -⟩, -⟩ := h.moves <;> omega

/-- No step passes the end of the tokens. -/
theorem Step.index_le_length {m m' : Machine} (h : Step stop tokens m m')
    (hm : m.index ≤ tokens.length) : m'.index ≤ tokens.length := by
  obtain ⟨hindex | ⟨hindex, hlt⟩, -⟩ := h.moves <;> omega

theorem Steps.index_le_length {m m' : Machine} (h : Steps stop tokens m m')
    (hm : m.index ≤ tokens.length) : m'.index ≤ tokens.length := by
  induction h with
  | refl => exact hm
  | tail _ hstep ih => exact hstep.index_le_length ih

/-! ### One step after another -/

/-- A step is the only one from its state. -/
theorem Step.functional {m m₁ m₂ : Machine} (h₁ : Step stop tokens m m₁)
    (h₂ : Step stop tokens m m₂) : m₁ = m₂ :=
  Option.some.inj (h₁.symm.trans h₂)

/-- A machine that has stopped stays where it is. -/
theorem Steps.eq_of_stopped {m m' : Machine} (h : Steps stop tokens m m')
    (hm : m.Stopped stop tokens) : m' = m := by
  rcases h.cases_head with rfl | ⟨next, hnext, -⟩
  · rfl
  · cases hm.symm.trans hnext

/-- Where a machine stops, it comes to from wherever it has been. -/
theorem Steps.of_stopped {m last m' : Machine} (h : Steps stop tokens m last)
    (hlast : last.Stopped stop tokens) (h' : Steps stop tokens m m') :
    Steps stop tokens m' last := by
  induction h' with
  | refl => exact h
  | tail _ hstep ih =>
      rcases ih.cases_head with rfl | ⟨next, hnext, hrest⟩
      · cases hlast.symm.trans hstep
      · rwa [← hnext.functional hstep]

/-- A machine that stops does not go on for ever. -/
theorem Steps.acc {m last : Machine} (h : Steps stop tokens m last)
    (hlast : last.Stopped stop tokens) : Acc (fun m' m => Step stop tokens m m') m := by
  induction h using Relation.ReflTransGen.head_induction_on with
  | refl => exact ⟨_, fun _ hstep => by cases hlast.symm.trans hstep⟩
  | head hstep _ ih => exact ⟨_, fun _ hstep' => hstep.functional hstep' ▸ ih⟩

end Machine

/-! ### Runs by steps -/

/-- The cursor at a place in a list of tokens. -/
def Cursor.ofIndex (tokens : List PlacedToken) (index depth : Nat) : Cursor :=
  ⟨tokens.drop index, depth⟩

theorem Cursor.eq_ofIndex {tokens : List PlacedToken} {index : Nat} {c : Cursor}
    (h : tokens.drop index = c.ahead) : c = ofIndex tokens index c.depth :=
  congrArg (Cursor.mk · c.depth) h.symm

/-- Within a list of tokens, a cursor is at one place. -/
theorem Cursor.ofIndex_inj {tokens : List PlacedToken} {i j d d' : Nat} (hi : i ≤ tokens.length)
    (hj : j ≤ tokens.length) : ofIndex tokens i d = ofIndex tokens j d' ↔ i = j ∧ d = d' := by
  constructor
  · intro h
    have hlength := congrArg (·.ahead.length) h
    simp only [ofIndex, List.length_drop] at hlength
    exact ⟨by omega, congrArg Cursor.depth h⟩
  · rintro ⟨rfl, rfl⟩
    rfl

/-- What is ahead at a place starts with the token there. -/
theorem drop_eq_cons_iff {tokens rest : List PlacedToken} {i : Nat} {t : PlacedToken} :
    tokens.drop i = t :: rest ↔ tokens[i]? = some t ∧ tokens.drop (i + 1) = rest := by
  rw [← List.head?_drop, ← List.tail_drop]
  cases tokens.drop i <;> simp

theorem drop_eq_nil_iff {tokens : List PlacedToken} {i : Nat} :
    tokens.drop i = [] ↔ tokens[i]? = none := by
  rw [List.drop_eq_nil_iff, List.getElem?_eq_none_iff]

namespace Machine

variable {stop : Nat} {tokens : List PlacedToken} {index depth : Nat}

/-- A parenthesis that is not closed at once is opened, if it is not too deep. -/
theorem atom_opening {position : Nat} {rest : List PlacedToken} {focus : Focus}
    {frames : List Frame} (h : tokens.drop index = ⟨.opening, position⟩ :: rest)
    (hc : ∀ closing behind, rest ≠ ⟨.closing, closing⟩ :: behind) :
    (Machine.mk focus frames index depth).atom stop tokens =
      if nestingLimit ≤ depth then
        ⟨.back (.error (.malformed .nestedTooDeeply position)), frames, index + 1, depth⟩
      else ⟨.call (.read .sum), .group :: frames, index + 1, depth + 1⟩ := by
  obtain ⟨hopening, hrest⟩ := drop_eq_cons_iff.mp h
  simp only [atom, hopening]
  split
  · rename_i closing hclosing
    exact absurd (hrest.symm.trans (drop_eq_cons_iff.mpr ⟨hclosing, rfl⟩)) (hc closing _)
  · rfl

/-- What is neither a number nor a parenthesis that opens starts no atom. -/
theorem atom_of_ne {found : Token} {position : Nat} {m : Machine}
    (h : tokens[m.index]? = some ⟨found, position⟩) (hn : ∀ value, found ≠ .number value)
    (ho : found ≠ .opening) :
    m.atom stop tokens = m.advance.complain (.expectedOperand found) position := by
  cases found with
  | number value => exact absurd rfl (hn value)
  | opening => exact absurd rfl ho
  | operator | closing => simp only [atom, h]

theorem unary_of_ne {m : Machine}
    (h : ∀ position, tokens[m.index]? ≠ some ⟨.operator .sub, position⟩) :
    m.unary tokens = { m with focus := .call (.read .atom) } := by
  unfold unary
  split
  · exact absurd ‹_› (h _)
  · rfl

/-- The machine that begins `task` at the one cursor comes back with `r` at the other, whatever it
has left for later. -/
def ComesBack (stop : Nat) (tokens : List PlacedToken) (task : Task) (c : Cursor)
    (r : Except Failure Expr) (c' : Cursor) : Prop :=
  ∀ (i : Nat) (frames : List Frame), tokens.drop i = c.ahead → ∃ j, tokens.drop j = c'.ahead ∧
    Steps stop tokens ⟨.call task, frames, i, c.depth⟩ ⟨.back r, frames, j, c'.depth⟩

/-- From an atom that is a parenthesis the machine comes to its end, with the sum in it. -/
theorem ComesBack.group {position : Nat} {rest : List PlacedToken} {r : Except Failure Expr}
    {after : Cursor} (inner : ComesBack stop tokens (.read .sum) ⟨rest, depth + 1⟩ r after)
    (h : tokens.drop index = ⟨.opening, position⟩ :: rest)
    (hc : ∀ closing behind, rest ≠ ⟨.closing, closing⟩ :: behind) (hd : depth < nestingLimit)
    (frames : List Frame) : ∃ j, tokens.drop j = after.ahead ∧
      Steps stop tokens ⟨.call (.read .atom), frames, index, depth⟩
        ⟨.back r, .group :: frames, j, after.depth⟩ := by
  obtain ⟨-, hrest⟩ := drop_eq_cons_iff.mp h
  obtain ⟨j, hj, hinner⟩ := inner (index + 1) (.group :: frames) hrest
  exact ⟨j, hj, .head (congrArg some ((atom_opening h hc).trans (if_neg (Nat.not_le_of_lt hd))))
    hinner⟩

/-- What is found instead of the parenthesis that closes is complained about. -/
theorem close_of_ne {found : Token} {position : Nat} {e : Expr} {m : Machine}
    (h : tokens[m.index]? = some ⟨found, position⟩) (hf : found ≠ .closing) :
    m.close stop tokens (.ok e) =
      { m.advance.complain (.expectedClosing found) position with depth := m.depth - 1 } := by
  cases found with
  | closing => exact absurd rfl hf
  | number | operator | opening => simp only [close, h]; rfl

/-- Where no operator of its strength is ahead, a chain ends. -/
theorem links_of_none {level : Level} {first : Expr} {done : List (Operator × Expr)} {m : Machine}
    (h : (Cursor.ofIndex tokens m.index m.depth).operator? level.strength = none) :
    m.links tokens level first done =
      { m with focus := .back (.ok (.ofChain first done.reverse)) } := by
  unfold links
  split
  · rename_i op position hop
    have hahead := drop_eq_cons_iff.mpr ⟨hop, rfl⟩
    exact if_neg fun hp => by simp [Cursor.operator?, Cursor.ofIndex, hahead, hp] at h
  · rfl

theorem links_operator {level : Level} {first : Expr} {done : List (Operator × Expr)}
    {m : Machine} {op : Operator} {position : Nat}
    (h : tokens[m.index]? = some ⟨.operator op, position⟩)
    (hp : op.precedence = level.strength) :
    m.links tokens level first done = { m.advance with
      focus := .call (.read level.operand), frames := .link level first done op :: m.frames } := by
  simp only [links, h, if_pos hp]

theorem begin_chained {level : Level} (hl : level.Chained) (m : Machine) :
    m.begin stop tokens (.read level) =
      { m with focus := .call (.read level.operand), frames := .chain level :: m.frames } := by
  cases hl <;> rfl

end Machine

namespace Run

open Machine

variable {stop : Nat}

/-- **The machine comes back from a task as a run of it ends**, whatever it has left for later. -/
theorem comesBack {tokens : List PlacedToken} {task : Task} {c c' : Cursor}
    {r : Except Failure Expr} (h : Run stop task c r c') : ComesBack stop tokens task c r c' := by
  induction h with
  | noToken =>
      intro i frames hi
      have hnone := drop_eq_nil_iff.mp hi
      exact ⟨i, hi, .single (by simp only [Step, next?, begin, atom, hnone]; rfl)⟩
  | noOperand hn ho =>
      intro i frames hi
      obtain ⟨htoken, hrest⟩ := drop_eq_cons_iff.mp hi
      exact ⟨i + 1, hrest, .single (congrArg some (atom_of_ne htoken hn ho))⟩
  | number =>
      intro i frames hi
      obtain ⟨htoken, hrest⟩ := drop_eq_cons_iff.mp hi
      exact ⟨i + 1, hrest, .single (by simp only [Step, next?, begin, atom, htoken]; rfl)⟩
  | emptyGroup =>
      intro i frames hi
      obtain ⟨hopening, hrest⟩ := drop_eq_cons_iff.mp hi
      obtain ⟨hclosing, -⟩ := drop_eq_cons_iff.mp hrest
      refine ⟨i + 1, hrest, .single ?_⟩
      simp only [Step, next?, begin, atom, hopening, hclosing]
      rfl
  | tooDeep hc hd =>
      intro i frames hi
      obtain ⟨-, hrest⟩ := drop_eq_cons_iff.mp hi
      exact ⟨i + 1, hrest, .single (congrArg some ((atom_opening hi hc).trans (if_pos hd)))⟩
  | groupFails hc hd _ ih =>
      intro i frames hi
      obtain ⟨j, hj, hinner⟩ := ih.group hi hc hd frames
      exact ⟨j, hj, hinner.tail rfl⟩
  | groupUnclosed hc hd _ ih =>
      intro i frames hi
      obtain ⟨j, hj, hinner⟩ := ih.group hi hc hd frames
      refine ⟨j, hj, hinner.tail ?_⟩
      simp only [Step, next?, resume, close, drop_eq_nil_iff.mp hj]
      rfl
  | groupBroken hc hd _ hf ih =>
      intro i frames hi
      obtain ⟨j, hj, hinner⟩ := ih.group hi hc hd frames
      obtain ⟨hfound, hbehind⟩ := drop_eq_cons_iff.mp hj
      refine ⟨j + 1, hbehind, hinner.tail ?_⟩
      exact congrArg some (close_of_ne hfound hf)
  | group hc hd _ ih =>
      intro i frames hi
      obtain ⟨j, hj, hinner⟩ := ih.group hi hc hd frames
      obtain ⟨hclosing, hbehind⟩ := drop_eq_cons_iff.mp hj
      refine ⟨j + 1, hbehind, hinner.tail ?_⟩
      simp only [Step, next?, resume, close, hclosing]
      rfl
  | minus _ ih =>
      intro i frames hi
      obtain ⟨hminus, hrest⟩ := drop_eq_cons_iff.mp hi
      obtain ⟨j, hj, hoperand⟩ := ih _ (.minus :: frames) hrest
      refine ⟨j, hj, .head ?_ (hoperand.tail rfl)⟩
      simp only [Step, next?, begin, unary, hminus]
      rfl
  | plain hm _ ih =>
      intro i frames hi
      obtain ⟨j, hj, hoperand⟩ := ih i frames hi
      refine ⟨j, hj, .head (congrArg some (unary_of_ne fun position hminus => ?_)) hoperand⟩
      exact hm position _ (hi.symm.trans (drop_eq_cons_iff.mpr ⟨hminus, rfl⟩))
  | chainFails hl _ ih =>
      intro i frames hi
      obtain ⟨j, hj, hfirst⟩ := ih i (.chain _ :: frames) hi
      exact ⟨j, hj, .head (congrArg some (begin_chained hl _)) (hfirst.tail rfl)⟩
  | chain hl _ _ ihFirst ih =>
      intro i frames hi
      obtain ⟨j, hj, hfirst⟩ := ihFirst i (.chain _ :: frames) hi
      obtain ⟨k, hk, hlinks⟩ := ih j frames hj
      exact ⟨k, hk, .head (congrArg some (begin_chained hl _)) (hfirst.trans (.head rfl hlinks))⟩
  | @linksEnd level first done c ho =>
      intro i frames hi
      obtain ⟨ahead, depth⟩ := c
      cases hi
      exact ⟨i, rfl, .single (congrArg some (links_of_none ho))⟩
  | linkFails ho _ ih =>
      intro i frames hi
      obtain ⟨hop, hrest⟩ := drop_eq_cons_iff.mp hi
      obtain ⟨j, hj, hoperand⟩ := ih _ (.link _ _ _ _ :: frames) hrest
      exact ⟨j, hj, .head (congrArg some (links_operator hop ho)) (hoperand.tail rfl)⟩
  | link ho _ _ ihOperand ih =>
      intro i frames hi
      obtain ⟨hop, hrest⟩ := drop_eq_cons_iff.mp hi
      obtain ⟨j, hj, hoperand⟩ := ihOperand _ (.link _ _ _ _ :: frames) hrest
      obtain ⟨k, hk, hlinks⟩ := ih j frames hj
      exact ⟨k, hk,
        .head (congrArg some (links_operator hop ho)) (hoperand.trans (.head rfl hlinks))⟩

/-- Every task has a run: a level is read, and links are read as their operands are. -/
theorem exists_run (task : Task) (c : Cursor) : ∃ r c', Run stop task c r c' := by
  cases task with
  | read level => exact ⟨_, _, of_read level c⟩
  | links level first done =>
      let operand : Cursor.Operand c := fun c' _ => Cursor.read stop level.operand c'
      have hoperand : ∀ c' hc, (operand c' hc).IsRun stop (.read level.operand) :=
        fun c' _ => of_read level.operand c'
      exact ⟨_, _, of_links first hoperand done c (Nat.le_refl _)⟩

end Run

namespace Machine

variable {stop : Nat} {tokens : List PlacedToken} {index depth : Nat}

/-- **The machine stops where the reader ends, with what comes of the reading**, and nowhere
else. -/
theorem stops_iff {level : Level} {behind depth' : Nat} (hi : index ≤ tokens.length)
    (hb : behind ≤ tokens.length)
    (h : (Cursor.read stop level (.ofIndex tokens index depth)).cursor =
      .ofIndex tokens behind depth') (m : Machine) :
    Steps stop tokens (start level index depth) m ∧ m.Stopped stop tokens ↔
      m = ⟨.back (Cursor.read stop level (.ofIndex tokens index depth)).result, [], behind,
        depth'⟩ := by
  have hrun : (Cursor.read stop level (.ofIndex tokens index depth)).IsRun stop (.read level) :=
    Run.of_read level _
  rw [Reading.IsRun, h] at hrun
  obtain ⟨j, hj, hsteps⟩ := hrun.comesBack index [] rfl
  have hlength : j ≤ tokens.length := hsteps.index_le_length hi
  obtain ⟨rfl, -⟩ := (Cursor.ofIndex_inj hb hlength).mp (Cursor.eq_ofIndex hj)
  constructor
  · rintro ⟨hm, hstopped⟩
    exact ((hsteps.of_stopped rfl hm).eq_of_stopped hstopped).symm
  · rintro rfl
    exact ⟨hsteps, rfl⟩

end Machine

end Reckoner
