import Reckoner.Proofs.Grammar.Derivation
import Reckoner.Proofs.Lexing.Tiling

/-!
# Grammar — the flat grammar

Where no two operators meet, strength does not matter to what is a word.  The flat grammar has one
kind of chain,

    word    := "-"? chain
    chain   := operand (operator operand)*
    operand := NUMBER | "(" word ")"

with any of the seven operators as a link; `Flat part n tokens` says that the tokens are such a
part, with parentheses nesting at most `n` deep.

**The tokens that have a derivation and no two operators side by side are the words of the flat
grammar** (`flat_iff_derivation`).  From left to right, a word places every operator behind an
operand, except for a minus sign in front of it or behind an opening parenthesis
(`Flat.placed`).  Parentheses are balanced already in the derivation
(`Derivation.openAfter_tokens`).
-/

namespace Reckoner

/-! ### Words -/

/-- The parts of the flat grammar. -/
inductive Part where
  | word
  | chain
  | operand

/-- The tokens of a part, with parentheses nesting no deeper than a bound. -/
inductive Flat : Part → Nat → List Token → Prop where
  | positive {n : Nat} {ts : List Token} (chain : Flat .chain n ts) : Flat .word n ts
  | negative {n : Nat} {ts : List Token} (chain : Flat .chain n ts) :
      Flat .word n (.operator .sub :: ts)
  | single {n : Nat} {ts : List Token} (operand : Flat .operand n ts) : Flat .chain n ts
  | link {n : Nat} {ts us : List Token} (operand : Flat .operand n ts) (op : Operator)
      (chain : Flat .chain n us) : Flat .chain n (ts ++ .operator op :: us)
  | number {n : Nat} {value : Float} : Flat .operand n [.number value]
  | group {n : Nat} {ts : List Token} (word : Flat .word n ts) :
      Flat .operand (n + 1) (.opening :: (ts ++ [.closing]))

namespace Flat

/-- A bound may be raised. -/
theorem mono {part : Part} {n : Nat} {ts : List Token} (h : Flat part n ts) :
    ∀ {m : Nat}, n ≤ m → Flat part m ts := by
  induction h with
  | positive _ ih => exact fun hle => .positive (ih hle)
  | negative _ ih => exact fun hle => .negative (ih hle)
  | single _ ih => exact fun hle => .single (ih hle)
  | link _ op _ ihOperand ih => exact fun hle => .link (ihOperand hle) op (ih hle)
  | number => exact fun _ => .number
  | group _ ih =>
      intro m hle
      obtain ⟨m, rfl⟩ := Nat.exists_eq_add_one_of_ne_zero (Nat.ne_of_gt (Nat.lt_of_lt_of_le
        (Nat.succ_pos _) hle))
      exact .group (ih (Nat.le_of_succ_le_succ hle))

/-- Two chains with an operator between them are a chain. -/
theorem append {part : Part} {n : Nat} {ts us : List Token} (h : Flat part n ts)
    (hpart : part = .chain) (op : Operator) (hus : Flat .chain n us) :
    Flat .chain n (ts ++ .operator op :: us) := by
  induction h with
  | single operand => exact .link operand op hus
  | link operand op' _ _ ih =>
      rw [List.append_assoc, List.cons_append]
      exact .link operand op' (ih hpart hus)
  | positive | negative | number | group => cases hpart

/-- A word may go on with an operator and a chain. -/
theorem word_append {n : Nat} {ts us : List Token} (h : Flat .word n ts) (op : Operator)
    (hus : Flat .chain n us) : Flat .word n (ts ++ .operator op :: us) := by
  cases h with
  | positive chain => exact .positive (chain.append rfl op hus)
  | negative chain => exact .negative (chain.append rfl op hus)

/-- A word that follows an operator, without a second one, has no sign. -/
theorem chain_of_spaced {n : Nat} {ts us : List Token} {op : Operator} (h : Flat .word n ts)
    (hs : Token.Spaced (.operator op :: (ts ++ us))) : Flat .chain n ts := by
  cases h with
  | positive chain => exact chain
  | negative chain =>
      -- its sign would follow `op`
      rw [Token.Spaced, List.cons_append, List.isChain_cons_cons] at hs
      exact absurd ⟨rfl, rfl⟩ hs.1

end Flat

/-! ### From derivations to words -/

namespace Token.Spaced

theorem left {ts us : List Token} (h : Spaced (ts ++ us)) : Spaced ts :=
  List.IsChain.left_of_append h

theorem right {ts us : List Token} (h : Spaced (ts ++ us)) : Spaced us :=
  List.IsChain.right_of_append h

theorem behind {t : Token} {ts : List Token} (h : Spaced (t :: ts)) : Spaced ts :=
  List.IsChain.tail h

end Token.Spaced

mutual
/-- **A derivation without two operators side by side derives a word.** -/
theorem Derivation.flat : ∀ {level : Level} (d : Derivation level), Token.Spaced d.tokens →
    Flat .word d.nesting d.tokens
  | _, .number value, _ => .positive (.single .number)
  | _, .group inner, hs => by
      have hs : Token.Spaced (.opening :: (inner.tokens ++ [.closing])) := hs
      exact .positive (.single (.group (inner.flat hs.behind.left)))
  | _, .plain operand, hs => operand.flat hs
  | _, .minus operand, hs => by
      have hs : Token.Spaced (.operator .sub :: operand.tokens) := hs
      have hs' : Token.Spaced (.operator .sub :: (operand.tokens ++ [])) := by simpa using hs
      exact .negative ((operand.flat hs.behind).chain_of_spaced hs')
  | _, .base operand, hs => operand.flat hs
  | _, .raised operand exponent, hs => by
      have hs : Token.Spaced (operand.tokens ++ .operator .pow :: exponent.tokens) := hs
      have hs' : Token.Spaced (.operator .pow :: (exponent.tokens ++ [])) := by
        simpa using hs.right
      have left := (operand.flat hs.left).mono (Nat.le_max_left _ exponent.nesting)
      have right := ((exponent.flat hs.right.behind).chain_of_spaced hs').mono
        (Nat.le_max_right operand.nesting _)
      exact left.word_append .pow right
  | _, .product first tail, hs => tail.flat (first.flat (Token.Spaced.left hs)) hs
  | _, .sum first tail, hs => tail.flat (first.flat (Token.Spaced.left hs)) hs

/-- A tail goes on with the word in front of it. -/
theorem Tail.flat : ∀ {level : Level} (tail : Tail level) {n : Nat} {ts : List Token},
    Flat .word n ts → Token.Spaced (ts ++ tail.tokens) →
    Flat .word (max n tail.nesting) (ts ++ tail.tokens)
  | _, .done, n, ts, h, _ => by simpa [Tail.tokens, Tail.nesting] using h
  | _, .link op mem operand rest, n, ts, h, hs => by
      have hlink : Flat .word (max n operand.nesting) (ts ++ .operator op :: operand.tokens) := by
        have hs' : Token.Spaced (.operator op :: (operand.tokens ++ rest.tokens)) := hs.right
        have right := (operand.flat hs'.behind.left).chain_of_spaced hs'
        exact (h.mono (Nat.le_max_left _ _)).word_append op (right.mono (Nat.le_max_right _ _))
      have hrest := rest.flat hlink (by simpa [Tail.tokens] using hs)
      simpa [Tail.tokens, Tail.nesting, Nat.max_assoc] using hrest
end

/-! ### From words to derivations -/

/-- A unary term and an operator in front of a sum make up a sum, whatever the operator. -/
theorem Derivation.exists_prepend (operand : Derivation .unary) (op : Operator) :
    ∀ d : Derivation .sum, ∃ d' : Derivation .sum,
      d'.tokens = operand.tokens ++ .operator op :: d.tokens ∧
      d'.nesting = max operand.nesting d.nesting ∧
      ∀ single, d = ofUnary single → d'.tree = .binary op operand.tree single.tree
  | .sum (.product first links) tail => by
      -- the operator is a link of the sum, of its first product, or of the first power in that
      rcases Level.mem_operators_cases op with mem | mem | rfl
      · refine ⟨.sum (.product (.base operand) .done) (.link op mem (.product first links) tail),
          ?_, ?_, ?_⟩
        · simp [tokens, Tail.tokens]
        · simp [nesting, Tail.nesting]
        · rintro single ⟨⟩
          simp [tree, Tail.treeFrom]
      · refine ⟨.sum (.product (.base operand) (.link op mem first links)) tail, ?_, ?_, ?_⟩
        · simp only [tokens, Tail.tokens, List.append_assoc, List.cons_append]
          rfl
        · simp only [nesting, Tail.nesting, Nat.max_assoc]
          rfl
        · rintro single ⟨⟩
          simp only [tree, Tail.treeFrom]
      · refine ⟨.sum (.product (.raised operand first) links) tail, ?_, ?_, ?_⟩
        · simp [tokens]
        · simp [nesting, Nat.max_assoc]
        · rintro single ⟨⟩
          simp [tree, Tail.treeFrom]

/-- What a part of a word derives: a word a sum, an operand an atom, and a chain a sum with or
without a minus sign in front of its first operand. -/
def Part.Derived (n : Nat) (ts : List Token) : Part → Prop
  | .word    => ∃ d : Derivation .sum, d.tokens = ts ∧ d.nesting ≤ n
  | .chain   => (∃ d : Derivation .sum, d.tokens = ts ∧ d.nesting ≤ n) ∧
      ∃ d : Derivation .sum, d.tokens = .operator .sub :: ts ∧ d.nesting ≤ n
  | .operand => ∃ d : Derivation .atom, d.tokens = ts ∧ d.nesting ≤ n

/-- **A word has a derivation.** -/
theorem Flat.derived {part : Part} {n : Nat} {ts : List Token} (h : Flat part n ts) :
    part.Derived n ts := by
  induction h with
  | positive _ ih => exact ih.1
  | negative _ ih => exact ih.2
  | single _ ih =>
      obtain ⟨d, rfl, hn⟩ := ih
      refine ⟨⟨.ofUnary (.plain d), Derivation.tokens_ofUnary _, ?_⟩,
        ⟨.ofUnary (.minus d), Derivation.tokens_ofUnary _, ?_⟩⟩
      · simpa [Derivation.nesting] using hn
      · simpa [Derivation.nesting] using hn
  | link _ op _ ihOperand ih =>
      obtain ⟨d, rfl, hd⟩ := ihOperand
      obtain ⟨⟨e, rfl, he⟩, -⟩ := ih
      obtain ⟨p, hp, hpn, -⟩ := (Derivation.plain d).exists_prepend op e
      obtain ⟨m, hm, hmn, -⟩ := (Derivation.minus d).exists_prepend op e
      exact ⟨⟨p, hp, hpn ▸ Nat.max_le.mpr ⟨hd, he⟩⟩, ⟨m, hm, hmn ▸ Nat.max_le.mpr ⟨hd, he⟩⟩⟩
  | @number n value => exact ⟨.number value, rfl, Nat.zero_le n⟩
  | group _ ih =>
      obtain ⟨d, rfl, hn⟩ := ih
      exact ⟨.group d, rfl, Nat.succ_le_succ hn⟩

/-! ### Where operators stand -/

/-- Behind an operator or an opening parenthesis an operand is due. -/
def Token.leavesDue : Token → Bool
  | .operator _ | .opening => true
  | .number _ | .closing   => false

/-- What may stand behind a token of a word: where an operand is due its first token, or a minus
sign behind a parenthesis; elsewhere an operator or a closing parenthesis. -/
def Token.MayPrecede (a b : Token) : Prop :=
  if a.leavesDue then (∃ value, b = .number value) ∨ b = .opening ∨ a = .opening ∧ b = .operator .sub
  else (∃ op, b = .operator op) ∨ b = .closing

/-- Tokens that may stand behind an operand of a word. -/
def Token.Behind (rest : List Token) : Prop :=
  (Token.closing :: rest).IsChain Token.MayPrecede

/-- What each part of a word needs in front of it and behind it. -/
def Part.Placed (ts : List Token) : Part → Prop
  | .word => ∀ rest, Token.Behind rest →
      (Token.opening :: (ts ++ rest)).IsChain Token.MayPrecede
  | .chain | .operand => ∀ t rest, t.leavesDue = true → Token.Behind rest →
      (t :: (ts ++ rest)).IsChain Token.MayPrecede

/-- **A word places its operators behind operands**, its signs aside. -/
theorem Flat.placed {part : Part} {n : Nat} {ts : List Token} (h : Flat part n ts) :
    part.Placed ts := by
  induction h with
  | positive _ ih => exact fun rest hr => ih .opening rest rfl hr
  | negative _ ih =>
      intro rest hr
      refine List.isChain_cons_cons.mpr ⟨?_, ih (.operator .sub) rest rfl hr⟩
      exact .inr (.inr ⟨rfl, rfl⟩)
  | single _ ih => exact ih
  | @link n ts us _ op _ ihOperand ih =>
      intro t rest ht hr
      have hus := ih (.operator op) rest rfl hr
      rw [List.append_assoc, List.cons_append]
      refine ihOperand t _ ht (List.isChain_cons_cons.mpr ⟨?_, hus⟩)
      exact .inl ⟨op, rfl⟩
  | @number n value =>
      intro t rest ht hr
      refine List.isChain_cons_cons.mpr ⟨?_, ?_⟩
      · simp [Token.MayPrecede, ht]
      · cases rest with
        | nil => exact .singleton _
        | cons b rest =>
            obtain ⟨hb, hrest⟩ := List.isChain_cons_cons.mp hr
            exact List.isChain_cons_cons.mpr ⟨hb, hrest⟩
  | @group n ts _ ih =>
      intro t rest ht hr
      have hinner := ih (.closing :: rest) (List.isChain_cons_cons.mpr ⟨.inr rfl, hr⟩)
      rw [List.cons_append, List.append_assoc]
      refine List.isChain_cons_cons.mpr ⟨?_, hinner⟩
      simp [Token.MayPrecede, ht]

/-- A word has no two operators side by side. -/
theorem Flat.spaced {n : Nat} {ts : List Token} (h : Flat .word n ts) : Token.Spaced ts := by
  have hchain : (ts ++ []).IsChain Token.MayPrecede := (h.placed [] (.singleton _)).tail
  rw [List.append_nil] at hchain
  refine hchain.imp fun a b hab ⟨ha, hb⟩ => ?_
  cases a <;> cases b <;> simp_all [Token.MayPrecede, Token.isOperator, Token.leavesDue]

/-- **Words are the tokens with a derivation and no two operators side by side.** -/
theorem flat_iff_derivation {n : Nat} {ts : List Token} :
    Flat .word n ts ↔
      Token.Spaced ts ∧ ∃ d : Derivation .sum, d.tokens = ts ∧ d.nesting ≤ n := by
  constructor
  · intro h
    exact ⟨h.spaced, h.derived⟩
  · rintro ⟨hs, d, rfl, hn⟩
    exact (d.flat hs).mono hn

/-! ### Balance -/

mutual
/-- **The tokens of a derivation close the parentheses that they open**, and no others. -/
theorem Derivation.openAfter_tokens : ∀ {level : Level} (d : Derivation level) (depth : Nat)
    (rest : List Token), Token.openAfter depth (d.tokens ++ rest) = Token.openAfter depth rest
  | _, .number value, depth, rest => by simp [Derivation.tokens, Token.openAfter]
  | _, .group inner, depth, rest => by
      simp [Derivation.tokens, Token.openAfter, inner.openAfter_tokens]
  | _, .plain operand, depth, rest => operand.openAfter_tokens depth rest
  | _, .minus operand, depth, rest => by
      simp [Derivation.tokens, Token.openAfter, operand.openAfter_tokens]
  | _, .base operand, depth, rest => operand.openAfter_tokens depth rest
  | _, .raised operand exponent, depth, rest => by
      simp [Derivation.tokens, Token.openAfter, operand.openAfter_tokens, exponent.openAfter_tokens]
  | _, .product first tail, depth, rest => by
      simp [Derivation.tokens, first.openAfter_tokens, tail.openAfter_tokens]
  | _, .sum first tail, depth, rest => by
      simp [Derivation.tokens, first.openAfter_tokens, tail.openAfter_tokens]

theorem Tail.openAfter_tokens : ∀ {level : Level} (tail : Tail level) (depth : Nat)
    (rest : List Token), Token.openAfter depth (tail.tokens ++ rest) = Token.openAfter depth rest
  | _, .done, depth, rest => rfl
  | _, .link op mem operand tail, depth, rest => by
      simp [Tail.tokens, Token.openAfter, operand.openAfter_tokens, tail.openAfter_tokens]
end

end Reckoner
