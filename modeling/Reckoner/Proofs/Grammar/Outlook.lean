import Reckoner.Proofs.Grammar.Acceptance
import Reckoner.Proofs.Lexing.Tiling

/-!
# Grammar — what may come next

Read from left to right, tokens leave an outlook: what is due next, and how many parentheses are
open.  `Outlook.next?` is the outlook behind one more token, or none where that token cannot stand,
and `Outlook.after?` is the outlook behind several.  It knows the two numbers alone, and neither
levels nor trees.

**A derivation that fits under the nesting limit takes the outlook of its level to that of an
operand which is complete** (`Derivation.after?_tokens`).  Every outlook has tokens that complete
it (`Outlook.after?_completion`).
-/

namespace Reckoner

/-- What is due at a place of an expression. -/
inductive Due where
  /-- an operand, which may have a minus sign in front of it -/
  | term
  /-- the operand of a minus sign -/
  | atom
  /-- something behind an operand: an operator, a closing parenthesis or the end -/
  | link
  deriving DecidableEq

/-- What is due, and how many parentheses are open. -/
structure Outlook where
  due   : Due
  depth : Nat

namespace Outlook

/-- The outlook at the start: an operand is due, and nothing is open. -/
def start : Outlook := ⟨.term, 0⟩

/-- The outlook behind everything: an operand is complete, and nothing is open. -/
def complete : Outlook := ⟨.link, 0⟩

/-- The outlook behind a token, if the token can stand here. -/
def next? : Outlook → Token → Option Outlook
  | ⟨.link, depth⟩, .operator _    => some ⟨.term, depth⟩
  | ⟨.link, depth + 1⟩, .closing   => some ⟨.link, depth⟩
  | ⟨.link, _⟩, _                  => none
  | ⟨.term, depth⟩, .operator .sub => some ⟨.atom, depth⟩
  | ⟨_, depth⟩, .number _          => some ⟨.link, depth⟩
  | ⟨_, depth⟩, .opening           => if depth < nestingLimit then some ⟨.term, depth + 1⟩ else none
  | _, _                           => none

/-- The outlook behind several tokens. -/
def after? (o : Outlook) : List Token → Option Outlook
  | []      => some o
  | t :: ts => (o.next? t).bind (after? · ts)

@[simp] theorem after?_nil (o : Outlook) : o.after? [] = some o := rfl

theorem after?_cons {o o' : Outlook} {t : Token} (h : o.next? t = some o') (ts : List Token) :
    o.after? (t :: ts) = o'.after? ts := by
  rw [after?, h, Option.bind_some]

theorem after?_append (o : Outlook) (ts us : List Token) :
    o.after? (ts ++ us) = (o.after? ts).bind (·.after? us) := by
  induction ts generalizing o with
  | nil => rfl
  | cons t ts ih =>
      rw [List.cons_append, after?, after?, Option.bind_assoc]
      exact congrArg _ (funext fun o' => ih o')

theorem next?_number {due : Due} (h : due ≠ .link) (depth : Nat) (value : Float) :
    next? ⟨due, depth⟩ (.number value) = some ⟨.link, depth⟩ := by
  cases due <;> first | rfl | exact absurd rfl h

theorem next?_opening {due : Due} (h : due ≠ .link) {depth : Nat} (hd : depth < nestingLimit) :
    next? ⟨due, depth⟩ .opening = some ⟨.term, depth + 1⟩ := by
  cases due with
  | term | atom => exact if_pos hd
  | link => exact absurd rfl h

/-- A parenthesis that is one too many cannot stand anywhere. -/
theorem next?_opening_of_le {depth : Nat} (hd : nestingLimit ≤ depth) (due : Due) :
    next? ⟨due, depth⟩ .opening = none := by
  cases due with
  | term | atom => exact if_neg (Nat.not_lt.mpr hd)
  | link => cases depth <;> rfl

end Outlook

/-! ### Derivations -/

/-- Where a level can start: where a term is due, and an atom also behind a minus sign. -/
def Level.StartsAt (level : Level) (due : Due) : Prop :=
  due = .term ∨ level = .atom ∧ due = .atom

theorem Level.StartsAt.ne_link {level : Level} {due : Due} (h : level.StartsAt due) :
    due ≠ .link := by
  rcases h with rfl | ⟨-, rfl⟩ <;> decide

theorem Level.StartsAt.eq_term {level : Level} {due : Due} (h : level.StartsAt due)
    (hl : level ≠ .atom) : due = .term :=
  h.resolve_right fun hatom => hl hatom.1

open Outlook (next?_number next?_opening after?_cons)

mutual
/-- **A derivation leads to an operand that is complete**, at the depth where it started. -/
theorem Derivation.after?_tokens : ∀ {level : Level} (d : Derivation level) {due : Due}
    {depth : Nat}, level.StartsAt due → d.nesting ≤ nestingLimit - depth → ∀ rest : List Token,
      Outlook.after? ⟨due, depth⟩ (d.tokens ++ rest) = Outlook.after? ⟨.link, depth⟩ rest
  | _, .number value, due, depth, hs, _, rest => after?_cons (next?_number hs.ne_link depth value) rest
  | _, .group inner, due, depth, hs, hn, rest => by
      simp only [Derivation.nesting] at hn
      rw [Derivation.tokens, List.cons_append, List.append_assoc,
        after?_cons (next?_opening hs.ne_link (by omega)),
        inner.after?_tokens (.inl rfl) (by omega)]
      rfl
  | _, .plain operand, due, depth, hs, hn, rest => by
      obtain rfl := hs.eq_term nofun
      exact operand.after?_tokens (.inl rfl) hn rest
  | _, .minus operand, due, depth, hs, hn, rest => by
      obtain rfl := hs.eq_term nofun
      exact operand.after?_tokens (.inr ⟨rfl, rfl⟩) hn rest
  | _, .base operand, due, depth, hs, hn, rest => by
      obtain rfl := hs.eq_term nofun
      exact operand.after?_tokens (.inl rfl) hn rest
  | _, .raised operand exponent, due, depth, hs, hn, rest => by
      obtain rfl := hs.eq_term nofun
      simp only [Derivation.nesting, Nat.max_le] at hn
      rw [Derivation.tokens, List.append_assoc, operand.after?_tokens (.inl rfl) hn.1]
      exact exponent.after?_tokens (.inl rfl) hn.2 rest
  | _, .product first tail, due, depth, hs, hn, rest => by
      obtain rfl := hs.eq_term nofun
      simp only [Derivation.nesting, Nat.max_le] at hn
      rw [Derivation.tokens, List.append_assoc, first.after?_tokens (.inl rfl) hn.1,
        tail.after?_tokens hn.2]
  | _, .sum first tail, due, depth, hs, hn, rest => by
      obtain rfl := hs.eq_term nofun
      simp only [Derivation.nesting, Nat.max_le] at hn
      rw [Derivation.tokens, List.append_assoc, first.after?_tokens (.inl rfl) hn.1,
        tail.after?_tokens hn.2]

/-- A tail leads from one complete operand to another. -/
theorem Tail.after?_tokens : ∀ {level : Level} (tail : Tail level) {depth : Nat},
    tail.nesting ≤ nestingLimit - depth → ∀ rest : List Token,
      Outlook.after? ⟨.link, depth⟩ (tail.tokens ++ rest) = Outlook.after? ⟨.link, depth⟩ rest
  | _, .done, depth, _, rest => rfl
  | _, .link op mem operand tail, depth, hn, rest => by
      simp only [Tail.nesting, Nat.max_le] at hn
      rw [Tail.tokens, List.cons_append, List.append_assoc, after?_cons rfl,
        operand.after?_tokens (.inl rfl) hn.1, tail.after?_tokens hn.2]
end

namespace Outlook

/-! ### Completions -/

/-- Tokens that complete an outlook: a number if an operand is due, and a closing parenthesis for
each one that is open. -/
def completion (o : Outlook) : List Token :=
  (if o.due = .link then [] else [.number 0]) ++ List.replicate o.depth .closing

theorem after?_replicate (depth : Nat) :
    after? ⟨.link, depth⟩ (List.replicate depth .closing) = some complete := by
  induction depth with
  | zero => rfl
  | succ depth ih => rw [List.replicate_succ, after?_cons rfl, ih]

theorem after?_completion (o : Outlook) : o.after? o.completion = some complete := by
  obtain ⟨due, depth⟩ := o
  unfold completion
  split
  · rename_i h
    obtain rfl : due = .link := h
    exact after?_replicate depth
  · rename_i h
    rw [List.singleton_append, after?_cons (next?_number h depth 0), after?_replicate]

/-! ### Depth -/

/-- An outlook counts the parentheses that are open. -/
theorem openAfter_of_next? {o o' : Outlook} {t : Token} (h : o.next? t = some o')
    (ts : List Token) : Token.openAfter o.depth (t :: ts) = Token.openAfter o'.depth ts := by
  unfold next? at h
  split at h
  case h_6 =>
    split at h
    · cases h
      rfl
    · cases h
  all_goals cases h
  all_goals rfl

/-- No token opens a parenthesis beyond the limit. -/
theorem depth_le_of_next? {o o' : Outlook} {t : Token} (h : o.next? t = some o')
    (hd : o.depth ≤ nestingLimit) : o'.depth ≤ nestingLimit := by
  unfold next? at h
  split at h
  case h_6 =>
    split at h
    · cases h
      assumption
    · cases h
  all_goals cases h
  all_goals
    dsimp only at hd ⊢
    omega

/-- Behind several tokens an outlook knows how many parentheses are open, and there are never more
than the limit. -/
theorem depth_of_after? {ts : List Token} {o o' : Outlook} (h : o.after? ts = some o')
    (hd : o.depth ≤ nestingLimit) :
    Token.openAfter o.depth ts = some o'.depth ∧ o'.depth ≤ nestingLimit := by
  induction ts generalizing o with
  | nil =>
      cases h
      exact ⟨rfl, hd⟩
  | cons t ts ih =>
      obtain ⟨o₁, hnext, hafter⟩ := Option.bind_eq_some_iff.mp h
      rw [openAfter_of_next? hnext]
      exact ih hafter (depth_le_of_next? hnext hd)

end Outlook

end Reckoner
