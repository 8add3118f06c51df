import Reckoner.Proofs.Grammar.Flat
import Reckoner.Proofs.Grammar.Acceptance
import Reckoner.Proofs.Grammar.Machine
import Reckoner.Proofs.Lexing.Written

/-!
# Grammar — the discipline of a reading

What holds of index and depth on the way of a reading, said of the states that the machine passes
through (`Machine.Within`): the index stays between the start of the reading and the end of the
tokens, the depth within the limit, and the depth counts the parentheses that have been opened and
not yet closed.  One step keeps this (`Machine.Within.step`), and so do any number
(`Machine.Within.steps`).  A run ends at the depth of its start, also where it fails (`Run.keeps`).

**So a reading comes to an end, keeps its depth, stays within the limit on its way, and moves
forward, on success by a balanced part of the tokens** (`Cursor.read_disciplined`).
-/

namespace Reckoner

open Machine

variable {stop : Nat}

/-! ### One run -/

/-- **A run ends at the depth at which it started, and no further back**, whatever it comes to. -/
theorem Run.keeps {task : Task} {c c' : Cursor} {r : Except Failure Expr}
    (h : Run stop task c r c') : c'.depth = c.depth ∧ c'.ahead <:+ c.ahead := by
  induction h with
  | noToken | linksEnd => exact ⟨rfl, List.suffix_rfl⟩
  | noOperand | number | emptyGroup | tooDeep => exact ⟨rfl, List.suffix_cons _ _⟩
  -- the parenthesis is closed again, in whatever way its sum has ended
  | groupFails _ _ _ ih => exact ⟨by rw [ih.1]; rfl, ih.2.trans (List.suffix_cons _ _)⟩
  | groupUnclosed _ _ _ ih => exact ⟨congrArg (· - 1) ih.1, ih.2.trans (List.suffix_cons _ _)⟩
  | groupBroken _ _ _ _ ih | group _ _ _ ih =>
      exact ⟨congrArg (· - 1) ih.1,
        ((List.suffix_cons _ _).trans ih.2).trans (List.suffix_cons _ _)⟩
  | minus _ ih => exact ⟨ih.1, ih.2.trans (List.suffix_cons _ _)⟩
  | plain _ _ ih | chainFails _ _ ih => exact ih
  | chain _ _ _ ihFirst ih => exact ⟨ih.1.trans ihFirst.1, ih.2.trans ihFirst.2⟩
  | linkFails _ _ ih => exact ⟨ih.1, ih.2.trans (List.suffix_cons _ _)⟩
  | link _ _ _ ihOperand ih =>
      exact ⟨ih.1.trans ihOperand.1,
        (ih.2.trans ihOperand.2).trans (List.suffix_cons _ _)⟩

/-- **A reading that succeeds moves forward, by tokens whose parentheses match.** -/
theorem Run.advances {level : Level} {c c' : Cursor} {e : Expr}
    (h : Run stop (.read level) c (.ok e) c') :
    ∃ used, c.ahead = used ++ c'.ahead ∧ used ≠ [] ∧ Token.Matched (used.map (·.token)) := by
  obtain ⟨-, d, used, hused, ht, -, -⟩ := h.derives e rfl
  refine ⟨used, hused, ?_, ?_⟩
  · rintro rfl
    obtain ⟨t, ts, hhead, -⟩ := d.exists_head
    rw [hhead] at ht
    cases ht
  · have hopen := d.openAfter_tokens 0 []
    rw [List.append_nil] at hopen
    rw [Token.matched_iff, ht, hopen]
    rfl

theorem Run.length_lt {level : Level} {c c' : Cursor} {e : Expr}
    (h : Run stop (.read level) c (.ok e) c') : c'.ahead.length < c.ahead.length := by
  obtain ⟨used, hused, hne, -⟩ := h.advances
  have hpos := List.length_pos_iff.mpr hne
  rw [hused, List.length_append]
  omega

/-- **A task is carried out and left at the depth at which it was begun**, wherever that is. -/
theorem Run.exists_steps {tokens : List PlacedToken} (task : Task) (frames : List Frame)
    (i d : Nat) : ∃ r j, Run stop task (.ofIndex tokens i d) r (.ofIndex tokens j d) ∧
      Steps stop tokens ⟨.call task, frames, i, d⟩ ⟨.back r, frames, j, d⟩ := by
  obtain ⟨r, ⟨ahead, d'⟩, hrun⟩ : ∃ r c', Run stop task (.ofIndex tokens i d) r c' :=
    exists_run task _
  obtain rfl : d' = d := hrun.keeps.1
  obtain ⟨j, rfl, hsteps⟩ := hrun.comesBack i frames rfl
  exact ⟨r, j, hrun, hsteps⟩

/-! ### On the way -/

namespace Machine

variable {tokens : List PlacedToken} {index depth : Nat} {m m' : Machine}

/-- A state of a reading that has started at an index and a depth. -/
structure Within (tokens : List PlacedToken) (index depth : Nat) (m : Machine) : Prop where
  le_index : index ≤ m.index
  index_le_length : m.index ≤ tokens.length
  depth_le : m.depth ≤ nestingLimit
  /-- the depth counts the parentheses that are open -/
  depth_eq : m.depth = depth + opened m.frames

theorem Within.start (level : Level) (hi : index ≤ tokens.length) (hd : depth ≤ nestingLimit) :
    Within tokens index depth (start level index depth) :=
  ⟨Nat.le_refl _, hi, hd, rfl⟩

/-- **A step keeps index and depth where they may be.** -/
theorem Within.step (h : Within tokens index depth m) (hstep : Step stop tokens m m') :
    Within tokens index depth m' := by
  obtain ⟨hle, hlength, hlimit, hcount⟩ := h
  have hdepth := hstep.moves.depth
  exact ⟨Nat.le_trans hle hstep.index_le, hstep.index_le_length hlength, by omega, by omega⟩

/-- **So do any number of steps.** -/
theorem Within.steps (h : Within tokens index depth m) (hsteps : Steps stop tokens m m') :
    Within tokens index depth m' := by
  induction hsteps with
  | refl => exact h
  | tail _ hstep ih => exact ih.step hstep

end Machine

/-! ### Places in a list of tokens -/

/-- A cursor no further back than another is at a later place. -/
theorem Cursor.exists_index {tokens : List PlacedToken} {index : Nat} {c : Cursor}
    (hi : index ≤ tokens.length) (h : c.ahead <:+ tokens.drop index) :
    ∃ later, c = ofIndex tokens later c.depth ∧ index ≤ later ∧ later ≤ tokens.length := by
  obtain ⟨ahead, depth⟩ := c
  obtain ⟨used, hused⟩ := h
  have hlength := congrArg List.length hused
  rw [List.length_append, List.length_drop] at hlength
  refine ⟨index + used.length, ?_, Nat.le_add_right _ _, by omega⟩
  rw [ofIndex, ← List.drop_drop, ← hused, List.drop_left]

/-- What is between two places of a list is what stands behind the one in front of the other. -/
theorem drop_take_of_append {tokens used : List PlacedToken} {index later : Nat}
    (hle : index ≤ later) (hlater : later ≤ tokens.length)
    (h : tokens.drop index = used ++ tokens.drop later) :
    (tokens.take later).drop index = used := by
  have hlength := congrArg List.length h
  rw [List.length_append, List.length_drop, List.length_drop] at hlength
  have hused : later - index = used.length := by omega
  rw [List.drop_take, h, hused, List.take_left]

/-- A level that is read from one place to another takes up the tokens between them. -/
theorem Run.advances_ofIndex {tokens : List PlacedToken} {level : Level} {i j d d' : Nat}
    {e : Expr} (hij : i ≤ j) (hj : j ≤ tokens.length)
    (h : Run stop (.read level) (.ofIndex tokens i d) (.ok e) (.ofIndex tokens j d')) :
    i < j ∧ Token.Matched (((tokens.take j).drop i).map (·.token)) := by
  obtain ⟨used, hused, -, hmatched⟩ := h.advances
  rw [drop_take_of_append hij hj hused]
  have hlt := h.length_lt
  simp only [Cursor.ofIndex, List.length_drop] at hlt
  exact ⟨by omega, hmatched⟩

/-- How a level is read from a place in a list of tokens. -/
structure Disciplined (stop : Nat) (tokens : List PlacedToken) (index depth : Nat)
    (level : Level) : Prop where
  /-- No sequence of steps goes on for ever. -/
  accessible : Acc (fun m' m => Step stop tokens m m') (start level index depth)
  /-- On the way the index stays between the start and the end of the tokens, and the depth, which
  counts the parentheses that are open, within the limit. -/
  inside : ∀ m, Steps stop tokens (start level index depth) m → Within tokens index depth m
  /-- No step on the way goes back. -/
  forward : ∀ m m', Steps stop tokens (start level index depth) m → Step stop tokens m m' →
    m.index ≤ m'.index
  /-- Every task that is begun on the way is carried out as the reader does it (`Run.run_iff`), and
  left at the depth at which it was begun. -/
  returns : ∀ task frames i d,
    Steps stop tokens (start level index depth) ⟨.call task, frames, i, d⟩ →
      ∃ r j, Run stop task (.ofIndex tokens i d) r (.ofIndex tokens j d) ∧
        Steps stop tokens ⟨.call task, frames, i, d⟩ ⟨.back r, frames, j, d⟩
  /-- The machine stops where the reader ends and nowhere else, at the depth at which it started,
  also if the reading fails.  If it succeeds, it has read some tokens, and their parentheses
  match. -/
  ends : ∃ behind, (Cursor.read stop level (.ofIndex tokens index depth)).cursor =
      .ofIndex tokens behind depth ∧ index ≤ behind ∧ behind ≤ tokens.length ∧
    (∀ m, Steps stop tokens (start level index depth) m ∧ m.Stopped stop tokens ↔
      m = ⟨.back (Cursor.read stop level (.ofIndex tokens index depth)).result, [], behind,
        depth⟩) ∧
    ∀ e, (Cursor.read stop level (.ofIndex tokens index depth)).result = .ok e →
      index < behind ∧ Token.Matched (((tokens.take behind).drop index).map (·.token))

/-- **Each level is read with discipline**, wherever in a list of tokens and at whatever depth
within the limit: it comes to an end, at the depth at which it started; on the way the limit is
kept and nothing is stepped back over; and what is read on success is some balanced tokens. -/
theorem Cursor.read_disciplined (stop : Nat) (tokens : List PlacedToken) (index depth : Nat)
    (level : Level) (hi : index ≤ tokens.length) (hd : depth ≤ nestingLimit) :
    Disciplined stop tokens index depth level := by
  have hrun : (read stop level (ofIndex tokens index depth)).IsRun stop (.read level) :=
    Run.of_read level _
  obtain ⟨hsame, hforward⟩ := hrun.keeps
  obtain ⟨behind, hcursor, hle, hbehind⟩ := exists_index hi hforward
  rw [hsame] at hcursor
  refine ⟨?_, fun m hm => (Within.start level hi hd).steps hm, fun m m' _ hstep => hstep.index_le,
    fun task frames i d _ => Run.exists_steps task frames i d, behind, hcursor, hle, hbehind,
    stops_iff hi hbehind hcursor, fun e he => ?_⟩
  · obtain ⟨hsteps, hstopped⟩ := (stops_iff hi hbehind hcursor _).mpr rfl
    exact hsteps.acc hstopped
  · rw [Reading.IsRun, he, hcursor] at hrun
    exact hrun.advances_ofIndex hle hbehind

/-- The second parenthesis in `((1))`, at a depth where no other could be opened in it and where
it could not be opened itself. -/
theorem Cursor.read_disciplined_at_limit :
    Disciplined 5 [⟨.opening, 0⟩, ⟨.opening, 1⟩, ⟨.number 1, 2⟩, ⟨.closing, 3⟩, ⟨.closing, 4⟩]
      1 199 .atom ∧
    Disciplined 5 [⟨.opening, 0⟩, ⟨.opening, 1⟩, ⟨.number 1, 2⟩, ⟨.closing, 3⟩, ⟨.closing, 4⟩]
      1 200 .atom :=
  ⟨read_disciplined 5 _ 1 199 .atom (by decide) (by decide),
    read_disciplined 5 _ 1 200 .atom (by decide) (by decide)⟩

end Reckoner
