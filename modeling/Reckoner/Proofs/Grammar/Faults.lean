import Reckoner.Proofs.Grammar.Outlook

/-!
# Grammar — where a reading fails

A reading that fails stops at an outlook that its tokens do not meet, and its complaint says which
(`Objection`): tokens that end too early, parentheses around nothing, a parenthesis that is one too
many, or a token that cannot stand there.  Tokens are `Viable` if some list that starts with them
is read as a tree.

**Tokens are read as a tree exactly if they lead from the outlook at the start to that behind
everything** (`Expr.exists_ofTokens_iff`), **and they are viable exactly if they lead anywhere**
(`viable_iff`).  So a complaint points at the first token that no continuation can put right
(`Expr.ofTokens_error_at_first_fault`).
-/

namespace Reckoner

/-! ### Where a level ends -/

/-- Behind what a task has read to a tree, nothing continues its level; for the links of a chain,
if nothing continued an operand in front of them. -/
def Task.Stops (c c' : Cursor) : Task → Prop
  | .read level      => level.StopsAt (c'.ahead.map (·.token))
  | .links level _ _ => level.operand.StopsAt (c.ahead.map (·.token)) →
      level.StopsAt (c'.ahead.map (·.token))

/-- In front of anything but its operators a chain ends where its operands end. -/
theorem Level.StopsAt.of_operand {level : Level} {c : Cursor}
    (h : level.operand.StopsAt (c.ahead.map (·.token)))
    (ho : c.operator? level.strength = none) : level.StopsAt (c.ahead.map (·.token)) := by
  intro op rest e
  obtain ⟨⟨_, position⟩, behind, hahead, rfl, -⟩ := List.map_eq_cons_iff.mp e
  have hne : op.precedence ≠ level.strength := by
    intro heq
    simp [Cursor.operator?, hahead, heq] at ho
  have hlt := h op rest e
  have hle : level.operand.strength ≤ level.strength + 1 := by cases level <;> decide
  omega

/-- A level is read as far as it goes. -/
theorem Run.stops {stop : Nat} {task : Task} {c c' : Cursor} {r : Except Failure Expr}
    (h : Run stop task c r c') : ∀ e, r = .ok e → task.Stops c c' := by
  induction h with
  | noToken | noOperand | emptyGroup | tooDeep | groupFails | groupUnclosed | groupBroken
  | chainFails | linkFails => intro e h; cases h
  | number | group => exact fun _ _ => Level.stopsAt_atom _
  | minus | plain => exact fun _ _ => Level.stopsAt_unary _
  | chain _ _ _ ihFirst ih => exact fun e he => ih e he (ihFirst _ rfl)
  | linksEnd ho => exact fun _ _ hs => hs.of_operand ho
  | link _ _ _ ihOperand ih => exact fun e he _ => ih e he (ihOperand _ rfl)

/-- No operator follows a sum that is read. -/
theorem Level.StopsAt.ne_operator {t : Token} {ts : List Token} (h : Level.sum.StopsAt (t :: ts))
    (op : Operator) : t ≠ .operator op := by
  rintro rfl
  have hlt := h op ts rfl
  cases op <;> exact absurd hlt (by decide)

/-! ### Objections -/

/-- What is objected to at an outlook, in front of some tokens and at which place.  `stop` is the
end of the text. -/
inductive Objection (stop : Nat) : Outlook → List PlacedToken → Complaint → Nat → Prop where
  | unexpectedEnd {o : Outlook} (hdue : o.due ≠ .link) : Objection stop o [] .unexpectedEnd stop
  | missingClosing {depth : Nat} : Objection stop ⟨.link, depth + 1⟩ [] .missingClosing stop
  | emptyParentheses {o : Outlook} {position closing : Nat} {rest : List PlacedToken}
      (hdue : o.due ≠ .link) :
      Objection stop o (⟨.opening, position⟩ :: ⟨.closing, closing⟩ :: rest) .emptyParentheses
        position
  | nestedTooDeeply {o : Outlook} {position : Nat} {rest : List PlacedToken}
      (hdue : o.due ≠ .link) (hfull : nestingLimit ≤ o.depth) :
      Objection stop o (⟨.opening, position⟩ :: rest) .nestedTooDeeply position
  | expectedOperand {o : Outlook} {found : Token} {position : Nat} {rest : List PlacedToken}
      (hdue : o.due ≠ .link) (hfound : o.next? found = none) :
      Objection stop o (⟨found, position⟩ :: rest) (.expectedOperand found) position
  | expectedClosing {depth : Nat} {found : Token} {position : Nat} {rest : List PlacedToken}
      (hfound : Outlook.next? ⟨.link, depth + 1⟩ found = none) :
      Objection stop ⟨.link, depth + 1⟩ (⟨found, position⟩ :: rest) (.expectedClosing found)
        position
  | unexpectedToken {found : Token} {position : Nat} {rest : List PlacedToken}
      (hfound : Outlook.complete.next? found = none) :
      Objection stop .complete (⟨found, position⟩ :: rest) (.unexpectedToken found) position

/-- Tokens lead from an outlook to an objection. -/
def Outlook.Objects (stop : Nat) (o : Outlook) (tokens : List PlacedToken) (complaint : Complaint)
    (position : Nat) : Prop :=
  ∃ used ahead o', tokens = used ++ ahead ∧ o.after? (used.map (·.token)) = some o' ∧
    Objection stop o' ahead complaint position

namespace Outlook.Objects

variable {stop position : Nat} {o o' : Outlook} {tokens : List PlacedToken} {complaint : Complaint}

theorem here (h : Objection stop o tokens complaint position) :
    o.Objects stop tokens complaint position :=
  ⟨[], tokens, o, rfl, rfl, h⟩

/-- An objection is met behind tokens that lead to it. -/
theorem append (h : o'.Objects stop tokens complaint position) {front : List PlacedToken}
    (hfront : o.after? (front.map (·.token)) = some o') :
    o.Objects stop (front ++ tokens) complaint position := by
  obtain ⟨used, ahead, o'', rfl, hafter, hobjection⟩ := h
  refine ⟨front ++ used, ahead, o'', (List.append_assoc ..).symm, ?_, hobjection⟩
  rw [List.map_append, after?_append, hfront, Option.bind_some, hafter]

theorem cons (h : o'.Objects stop tokens complaint position) {t : PlacedToken}
    (hnext : o.next? t.token = some o') :
    o.Objects stop (t :: tokens) complaint position := by
  have hafter : o.after? ([t].map (·.token)) = some o' := by
    rw [List.map_singleton, after?_cons hnext, after?_nil]
  exact h.append hafter

end Outlook.Objects

/-! ### Runs that fail -/

/-- What is due where a task starts.  An atom is read where a term is due if there is no minus sign
in front of it. -/
def Task.StartsAt (c : Cursor) (due : Due) : Task → Prop
  | .read .atom  => due = .atom ∨
      due = .term ∧ ∀ position rest, c.ahead ≠ ⟨.operator .sub, position⟩ :: rest
  | .read _      => due = .term
  | .links _ _ _ => due = .link

theorem Level.Chained.eq_term {level : Level} (hl : level.Chained) {c : Cursor} {due : Due}
    (h : (Task.read level).StartsAt c due) : due = .term := by
  cases hl <;> exact h

theorem Level.Chained.startsAt_operand {level : Level} (hl : level.Chained) (c : Cursor) :
    (Task.read level.operand).StartsAt c .term := by
  cases hl <;> exact rfl

theorem Task.StartsAt.ne_link {c : Cursor} {due : Due} (h : (Task.read .atom).StartsAt c due) :
    due ≠ .link := by
  rcases h with rfl | ⟨rfl, -⟩ <;> decide

/-- A level with operators is a chain. -/
theorem Level.chained_of_precedence_eq {level : Level} {op : Operator}
    (h : op.precedence = level.strength) : level.Chained := by
  cases level with
  | sum => exact .sum
  | product => exact .product
  | power => exact .power
  | unary | atom => cases op <;> exact absurd h (by decide)

/-- Where an atom is to be read, neither an operator nor a closing parenthesis can stand. -/
theorem Outlook.next?_eq_none {found : Token} {position depth : Nat} {rest : List PlacedToken}
    {due : Due} (hn : ∀ value, found ≠ .number value) (ho : found ≠ .opening)
    (hs : (Task.read .atom).StartsAt ⟨⟨found, position⟩ :: rest, depth⟩ due) :
    next? ⟨due, depth⟩ found = none := by
  cases found with
  | number value => exact absurd rfl (hn value)
  | opening => exact absurd rfl ho
  | closing => rcases hs with rfl | ⟨rfl, -⟩ <;> rfl
  | operator op =>
      rcases hs with rfl | ⟨rfl, hm⟩
      · rfl
      · cases op with
        | sub => exact absurd rfl (hm position rest)
        | add | mul | div | pow | mod | floorDiv => rfl

/-- Behind an operand only an operator or a closing parenthesis that closes one can stand. -/
theorem Outlook.next?_link_eq_none {found : Token} {depth : Nat}
    (ho : ∀ op, found ≠ .operator op) (hc : found = .closing → depth = 0) :
    next? ⟨.link, depth⟩ found = none := by
  cases found with
  | operator op => exact absurd rfl (ho op)
  | closing => rw [hc rfl]; rfl
  | number | opening => cases depth <;> rfl

/-- What is read to a tree leads to an operand that is complete. -/
theorem Run.after?_of_ok {stop : Nat} {level : Level} {c c' : Cursor} {e : Expr}
    (h : Run stop (.read level) c (.ok e) c') {due : Due} (hs : level.StartsAt due) :
    c'.depth = c.depth ∧ ∃ used, c.ahead = used ++ c'.ahead ∧
      Outlook.after? ⟨due, c.depth⟩ (used.map (·.token)) = some ⟨.link, c.depth⟩ := by
  obtain ⟨hdepth, d, used, hused, ht, hn, -⟩ := h.derives e rfl
  refine ⟨hdepth, used, hused, ?_⟩
  rw [ht, ← List.append_nil d.tokens, d.after?_tokens hs hn, Outlook.after?_nil]

/-- **A run that fails meets an objection.** -/
theorem Run.objects {stop : Nat} {task : Task} {c c' : Cursor} {r : Except Failure Expr}
    (h : Run stop task c r c') : ∀ complaint position, r = .error (.malformed complaint position) →
      ∀ due, task.StartsAt c due →
        Outlook.Objects stop ⟨due, c.depth⟩ c.ahead complaint position := by
  induction h with
  | number | group | linksEnd => intro complaint position h; cases h
  | noToken =>
      rintro complaint position ⟨⟩ due hs
      exact .here (.unexpectedEnd hs.ne_link)
  | noOperand hn ho =>
      rintro complaint position ⟨⟩ due hs
      exact .here (.expectedOperand hs.ne_link (Outlook.next?_eq_none hn ho hs))
  | emptyGroup =>
      rintro complaint position ⟨⟩ due hs
      exact .here (.emptyParentheses hs.ne_link)
  | tooDeep _ hd =>
      rintro complaint position ⟨⟩ due hs
      exact .here (.nestedTooDeeply hs.ne_link hd)
  | groupFails _ hd _ ih =>
      intro complaint position h due hs
      exact (ih complaint position h .term rfl).cons (Outlook.next?_opening hs.ne_link hd)
  | @groupUnclosed position depth depth' rest e _ hd inner =>
      rintro complaint position' ⟨⟩ due hs
      obtain ⟨-, used, hused, hafter⟩ := inner.after?_of_ok (.inl rfl)
      have hobjects : Outlook.Objects stop ⟨.term, depth + 1⟩ rest .missingClosing stop := by
        rw [show rest = used ++ [] from hused]
        exact (Outlook.Objects.here .missingClosing).append hafter
      exact hobjects.cons (Outlook.next?_opening hs.ne_link hd)
  | @groupBroken position depth position' depth' found rest behind e _ hd inner hf =>
      rintro complaint position'' ⟨⟩ due hs
      obtain ⟨-, used, hused, hafter⟩ := inner.after?_of_ok (.inl rfl)
      have hstops : Level.sum.StopsAt (found :: behind.map (·.token)) := inner.stops e rfl
      have hobjects : Outlook.Objects stop ⟨.term, depth + 1⟩ rest (.expectedClosing found)
          position' := by
        rw [show rest = used ++ ⟨found, position'⟩ :: behind from hused]
        refine (Outlook.Objects.here (.expectedClosing ?_)).append hafter
        exact Outlook.next?_link_eq_none hstops.ne_operator fun heq => absurd heq hf
      exact hobjects.cons (Outlook.next?_opening hs.ne_link hd)
  | @minus position depth rest r after _ ih =>
      intro complaint position' h due hs
      obtain rfl : due = .term := hs
      cases r with
      | ok e => cases h
      | error failure =>
          cases h
          exact (ih complaint position' rfl .atom (.inl rfl)).cons rfl
  | plain hm _ ih =>
      intro complaint position h due hs
      obtain rfl : due = .term := hs
      exact ih complaint position h .term (.inr ⟨rfl, hm⟩)
  | chainFails hl _ ih =>
      intro complaint position h due hs
      obtain rfl := hl.eq_term hs
      exact ih complaint position h .term (hl.startsAt_operand _)
  | @chain level c after c' first r hl operand _ _ ih =>
      intro complaint position h due hs
      obtain rfl := hl.eq_term hs
      obtain ⟨hdepth, used, hused, hafter⟩ := operand.after?_of_ok (.inl rfl)
      have hlinks := ih complaint position h .link rfl
      rw [hdepth] at hlinks
      rw [hused]
      exact hlinks.append hafter
  | linkFails ho _ ih =>
      intro complaint position h due hs
      obtain rfl : due = .link := hs
      have hl := Level.chained_of_precedence_eq ho
      exact (ih complaint position h .term (hl.startsAt_operand _)).cons rfl
  | @link level first e done op position depth rest after c' r ho operand _ _ ih =>
      intro complaint position' h due hs
      obtain rfl : due = .link := hs
      obtain ⟨hdepth, used, hused, hafter⟩ := operand.after?_of_ok (.inl rfl)
      have hlinks := ih complaint position' h .link rfl
      rw [hdepth] at hlinks
      have hrest : Outlook.Objects stop ⟨.term, depth⟩ rest complaint position' := by
        rw [show rest = used ++ after.ahead from hused]
        exact hlinks.append hafter
      exact hrest.cons rfl

/-! ### The reader of whole lists of tokens -/

/-- A list of tokens that is not read meets an objection. -/
theorem Expr.objects_of_ofTokens {tokens : List PlacedToken} (hne : tokens ≠ [])
    {complaint : Complaint} {position : Nat}
    (h : ofTokens tokens = .error (.malformed complaint position)) :
    Outlook.start.Objects (endOf tokens) tokens complaint position := by
  have hrun : (Cursor.read (endOf tokens) .sum ⟨tokens, 0⟩).IsRun (endOf tokens) (.read .sum) :=
    Run.of_read .sum _
  unfold ofTokens at h
  rw [if_neg (by simpa using hne)] at h
  split at h
  · rename_i heq
    cases h
    rw [heq] at hrun
    exact Run.objects hrun complaint position rfl .term rfl
  · rename_i e after _ heq
    rw [heq] at hrun
    obtain ⟨hdepth, used, hused, hafter⟩ := Run.after?_of_ok hrun (.inl rfl)
    have hstops : Level.sum.StopsAt (after.ahead.map (·.token)) := Run.stops hrun e rfl
    split at h
    · cases h
    · rename_i found place rest hahead
      cases h
      rw [hahead] at hused hstops
      dsimp only at hused
      rw [hused]
      refine (Outlook.Objects.here (.unexpectedToken ?_)).append hafter
      exact Outlook.next?_link_eq_none hstops.ne_operator fun _ => rfl

/-! ### Tokens that lead nowhere -/

/-- No outlook meets parentheses around nothing. -/
theorem Outlook.after?_empty_group (o : Outlook) (ts : List Token) :
    o.after? (.opening :: .closing :: ts) = none := by
  obtain ⟨due, depth⟩ := o
  rcases Nat.lt_or_ge depth nestingLimit with hd | hd
  · cases due with
    | term | atom => rw [after?_cons (next?_opening (by decide) hd)]; rfl
    | link => rw [after?, next?_link_eq_none (by simp) (by simp)]; rfl
  · rw [after?, next?_opening_of_le hd]; rfl

/-- In front of an objection the tokens do not lead to a complete expression. -/
theorem Objection.after?_ne {stop position : Nat} {o : Outlook} {ahead : List PlacedToken}
    {complaint : Complaint} (h : Objection stop o ahead complaint position) :
    o.after? (ahead.map (·.token)) ≠ some .complete := by
  cases h with
  | unexpectedEnd hdue =>
      rintro ⟨⟩
      exact hdue rfl
  | missingClosing => rintro ⟨⟩
  | emptyParentheses => simp [Outlook.after?_empty_group]
  | nestedTooDeeply _ hfull => simp [Outlook.after?, Outlook.next?_opening_of_le hfull]
  | expectedOperand _ hfound | expectedClosing hfound | unexpectedToken hfound =>
      simp [Outlook.after?, hfound]

/-- **Tokens are read as a tree exactly if they lead from the start to a complete expression.** -/
theorem Expr.exists_ofTokens_iff (tokens : List PlacedToken) :
    (∃ e, ofTokens tokens = .ok e) ↔
      Outlook.start.after? (tokens.map (·.token)) = some .complete := by
  constructor
  · rintro ⟨e, h⟩
    obtain ⟨d, ht, hn, -⟩ := ofTokens_eq_ok_iff.mp h
    have hafter : Outlook.after? ⟨.term, 0⟩ (d.tokens ++ []) = _ := d.after?_tokens (.inl rfl) hn []
    rwa [List.append_nil, ht] at hafter
  · intro hafter
    have hne : tokens ≠ [] := by
      rintro rfl
      cases hafter
    cases h : ofTokens tokens with
    | ok e => exact ⟨e, rfl⟩
    | error failure =>
        obtain ⟨complaint, position, rfl⟩ := malformed_of_ofTokens h
        obtain ⟨used, ahead, o, rfl, hused, hobjection⟩ := objects_of_ofTokens hne h
        rw [List.map_append, Outlook.after?_append, hused, Option.bind_some] at hafter
        exact absurd hafter hobjection.after?_ne

/-- Some tokens that start with these are read as a tree. -/
def Viable (tokens : List PlacedToken) : Prop :=
  ∃ more e, Expr.ofTokens (tokens ++ more) = .ok e

/-- **Tokens are viable exactly if they lead anywhere.** -/
theorem viable_iff (tokens : List PlacedToken) :
    Viable tokens ↔ ∃ o, Outlook.start.after? (tokens.map (·.token)) = some o := by
  unfold Viable
  simp only [Expr.exists_ofTokens_iff, List.map_append, Outlook.after?_append]
  constructor
  · rintro ⟨more, h⟩
    obtain ⟨o, hafter, -⟩ := Option.bind_eq_some_iff.mp h
    exact ⟨o, hafter⟩
  · rintro ⟨o, hafter⟩
    -- where the tokens of the completion stand does not matter
    refine ⟨o.completion.map (⟨·, 0⟩), ?_⟩
    rw [hafter, Option.bind_some, List.map_map]
    exact (congrArg _ (List.map_id _)).trans o.after?_completion

/-- Tokens behind viable ones that the outlook there does not meet are not viable. -/
theorem not_viable_append {used ahead : List PlacedToken} {o : Outlook}
    (hused : Outlook.start.after? (used.map (·.token)) = some o)
    (hahead : o.after? (ahead.map (·.token)) = none) : ¬ Viable (used ++ ahead) := by
  rw [viable_iff, List.map_append, Outlook.after?_append, hused, Option.bind_some, hahead]
  simp

/-! ### The first fault -/

/-- Complaints about an end that comes too early. -/
def Complaint.isOfEnd : Complaint → Bool
  | .emptyExpression | .unexpectedEnd | .missingClosing => true
  | _                                                   => false

/-- The tokens end too early: they could go on. -/
def EndsEarly (tokens : List PlacedToken) (complaint : Complaint) : Prop :=
  complaint.isOfEnd = true ∧ Viable tokens

/-- Where the tokens could go on, two parentheses follow with nothing in them; the first is at
`position`. -/
def EmptyGroupAt (tokens : List PlacedToken) (complaint : Complaint) (position : Nat) : Prop :=
  complaint = .emptyParentheses ∧ ∃ k closing, tokens[k]? = some ⟨.opening, position⟩ ∧
    tokens[k + 1]? = some ⟨.closing, closing⟩ ∧ Viable (tokens.take k) ∧
      ¬ Viable (tokens.take (k + 2))

/-- Where the tokens could go on, one follows at `position` that nothing behind it puts right; if
they nest too deeply, it is the parenthesis that would be open beyond the limit. -/
def FaultAt (tokens : List PlacedToken) (complaint : Complaint) (position : Nat) : Prop :=
  complaint.isOfEnd = false ∧ complaint ≠ .emptyParentheses ∧ ∃ k t, tokens[k]? = some t ∧
    t.position = position ∧ Viable (tokens.take k) ∧ ¬ Viable (tokens.take (k + 1)) ∧
      (complaint = .nestedTooDeeply → t.token = .opening ∧
        Token.openAfter 0 ((tokens.take k).map (·.token)) = some nestingLimit)

/-- A token that the outlook behind others does not meet is at fault. -/
theorem FaultAt.of_next? {used rest : List PlacedToken} {t : PlacedToken} {o : Outlook}
    {complaint : Complaint} (hend : complaint.isOfEnd = false)
    (hempty : complaint ≠ .emptyParentheses)
    (hused : Outlook.start.after? (used.map (·.token)) = some o)
    (hnext : o.next? t.token = none)
    (hdeep : complaint = .nestedTooDeeply → t.token = .opening ∧
      Token.openAfter 0 (used.map (·.token)) = some nestingLimit) :
    FaultAt (used ++ t :: rest) complaint t.position := by
  refine ⟨hend, hempty, used.length, t, by simp, rfl, ?_, ?_, ?_⟩
  · rw [List.take_left, viable_iff]
    exact ⟨o, hused⟩
  · rw [List.take_length_add_append]
    exact not_viable_append hused (by simp [Outlook.after?, hnext])
  · rwa [List.take_left]

/-- **A complaint points at the first token that cannot be right.**  Tokens that are not read as a
tree fail by a complaint, and it is of one of three kinds: the tokens end too early; parentheses
have nothing in them; or a token stands where no continuation can put it right, which is the
parenthesis beyond the limit if they nest too deeply. -/
theorem Expr.ofTokens_error_at_first_fault (tokens : List PlacedToken) (failure : Failure)
    (h : ofTokens tokens = .error failure) :
    ∃ complaint position, failure = .malformed complaint position ∧
      (EndsEarly tokens complaint ∨ EmptyGroupAt tokens complaint position ∨
        FaultAt tokens complaint position) ∧
      ¬ (EndsEarly tokens complaint ∧ EmptyGroupAt tokens complaint position) ∧
      ¬ (EndsEarly tokens complaint ∧ FaultAt tokens complaint position) ∧
      ¬ (EmptyGroupAt tokens complaint position ∧ FaultAt tokens complaint position) := by
  obtain ⟨complaint, position, rfl⟩ := malformed_of_ofTokens h
  refine ⟨complaint, position, rfl, ?_, ?_, ?_, ?_⟩
  · rcases eq_or_ne tokens [] with rfl | hne
    · cases h
      exact .inl ⟨rfl, (viable_iff []).mpr ⟨.start, rfl⟩⟩
    · obtain ⟨used, ahead, o, rfl, hused, hobjection⟩ := objects_of_ofTokens hne h
      cases hobjection with
      | unexpectedEnd | missingClosing =>
          rw [List.append_nil]
          exact .inl ⟨rfl, (viable_iff used).mpr ⟨_, hused⟩⟩
      | @emptyParentheses _ _ closing rest hdue =>
          refine .inr (.inl ⟨rfl, used.length, closing, by simp, by simp, ?_, ?_⟩)
          · rw [List.take_left, viable_iff]
            exact ⟨o, hused⟩
          · rw [List.take_length_add_append]
            exact not_viable_append hused (o.after?_empty_group [])
      | nestedTooDeeply hdue hfull =>
          obtain ⟨hopen, hle⟩ := Outlook.depth_of_after? hused (Nat.zero_le _)
          rw [Nat.le_antisymm hle hfull] at hopen
          exact .inr (.inr (.of_next? rfl (by simp) hused (Outlook.next?_opening_of_le hfull _)
            fun _ => ⟨rfl, hopen⟩))
      | expectedOperand _ hfound | expectedClosing hfound | unexpectedToken hfound =>
          exact .inr (.inr (.of_next? rfl (by simp) hused hfound (by simp)))
  · rintro ⟨⟨hend, -⟩, rfl, -⟩
    cases hend
  · rintro ⟨⟨hend, -⟩, hend', -⟩
    rw [hend] at hend'
    cases hend'
  · rintro ⟨⟨rfl, -⟩, -, hne, -⟩
    exact hne rfl

/-- The second operator in `(1 + / 2)` is at fault: `(1 +` could still be completed. -/
theorem Expr.faultAt_second_operator :
    FaultAt [⟨.opening, 0⟩, ⟨.number 1, 1⟩, ⟨.operator .add, 2⟩, ⟨.operator .div, 3⟩,
      ⟨.number 2, 4⟩, ⟨.closing, 5⟩] (.expectedOperand (.operator .div)) 3 := by
  have hread : ofTokens [⟨.opening, 0⟩, ⟨.number 1, 1⟩, ⟨.operator .add, 2⟩, ⟨.operator .div, 3⟩,
      ⟨.number 2, 4⟩, ⟨.closing, 5⟩] = .error (.malformed (.expectedOperand (.operator .div)) 3) := by
    unfold ofTokens
    -- where the tokens end plays no part in this
    generalize endOf _ = stop
    cbv
  obtain ⟨complaint, position, hfailure, hkind, -⟩ := ofTokens_error_at_first_fault _ _ hread
  cases hfailure
  rcases hkind with ⟨hend, -⟩ | ⟨hempty, -⟩ | hfault
  · cases hend
  · cases hempty
  · exact hfault

end Reckoner
