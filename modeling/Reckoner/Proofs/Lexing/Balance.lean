import Reckoner.Proofs.Lexing.Tiling

/-!
# Lexing — parentheses counted

What the scanner decides with one running number, said of the whole text.  A text is `Balanced` if
no front part of it closes more parentheses than it opens and the whole of it closes as many as it
opens; it `NestsWithin n` if no front part leaves more than `n` of them open.

**The running number decides balance** (`Token.balanced_iff`), as every running count compares how
often things are opened and closed (`RunningCount.iff`).  Nesting can be counted before or
after a text is normalized, and before or after it is cut into lexemes (`NestsWithin.normalize`,
`Token.Cuts.nestsWithin`).
-/

namespace Reckoner

/-- What holds of every front part of a list holds of the empty one and of those that start with
its first element. -/
theorem forall_front_cons {α : Type} {a : α} {s : List α} {p : List α → Prop} :
    (∀ front, front <+: a :: s → p front) ↔ p [] ∧ ∀ front, front <+: s → p (a :: front) := by
  constructor
  · intro h
    exact ⟨h [] List.nil_prefix, fun front hf => h _ (List.cons_prefix_cons.mpr ⟨rfl, hf⟩)⟩
  · rintro ⟨hnil, hcons⟩ front hf
    rcases List.prefix_cons_iff.mp hf with rfl | ⟨front, rfl, hfront⟩
    · exact hnil
    · exact hcons front hfront

/-! ### Running counts -/

/-- `p depth s` is decided by a running count of what `s` leaves open, which starts at `depth` and
ends at zero, and never closes what is not open. -/
structure RunningCount {α : Type} (opening closing : α) (p : Nat → List α → Prop) : Prop where
  nil (depth : Nat) : p depth [] ↔ depth = 0
  opens (depth : Nat) (s : List α) : p depth (opening :: s) ↔ p (depth + 1) s
  not_closes (s : List α) : ¬ p 0 (closing :: s)
  closes (depth : Nat) (s : List α) : p (depth + 1) (closing :: s) ↔ p depth s
  other {a : α} (ho : a ≠ opening) (hc : a ≠ closing) (depth : Nat) (s : List α) :
    p depth (a :: s) ↔ p depth s

/-- **A running count compares how often things are opened and closed**: in no front part is more
closed than is open, and in the whole as much. -/
theorem RunningCount.iff {α : Type} [BEq α] [LawfulBEq α] {opening closing : α}
    {p : Nat → List α → Prop} (h : RunningCount opening closing p) (hne : opening ≠ closing)
    (depth : Nat) (s : List α) :
    p depth s ↔ (∀ front, front <+: s → front.count closing ≤ front.count opening + depth) ∧
      s.count opening + depth = s.count closing := by
  induction s generalizing depth with
  | nil =>
      rw [h.nil]
      simp
  | cons a s ih =>
      rw [forall_front_cons]
      by_cases ho : a = opening
      · subst ho
        rw [h.opens, ih]
        simp [hne, Nat.add_assoc, Nat.add_comm 1 depth]
      · by_cases hc : a = closing
        · subst hc
          cases depth with
          | zero =>
              -- already the front part that is this sign alone closes what is not open
              refine iff_of_false (h.not_closes s) ?_
              rintro ⟨⟨-, hfront⟩, -⟩
              have hone := hfront [] List.nil_prefix
              simp [hne.symm] at hone
          | succ depth =>
              rw [h.closes, ih]
              simp [hne.symm, ← Nat.add_assoc]
        · rw [h.other ho hc, ih]
          simp [ho, hc]

/-! ### Balance -/

/-- Every front part of `s` has at least as many `(` as `)`, and `s` itself has as many. -/
def Balanced (s : List Char) : Prop :=
  (∀ front, front <+: s → front.count ')' ≤ front.count '(') ∧ s.count '(' = s.count ')'

namespace Token

theorem balancedFrom_runningCount :
    RunningCount '(' ')' fun depth s => balancedFrom depth s = true where
  nil depth := by simp [balancedFrom]
  opens _ _ := Iff.rfl
  not_closes _ := Bool.false_ne_true
  closes _ _ := Iff.rfl
  other ho hc depth s := by rw [balancedFrom] <;> simp [ho, hc]

/-- **The running number decides balance.** -/
theorem balanced_iff (s : List Char) : balanced s = true ↔ Balanced s :=
  balancedFrom_runningCount.iff (by decide) 0 s

end Token

/-! ### Nesting -/

/-- No front part of `s` leaves more than `n` of the `opening` signs open. -/
def NestsWithin {α : Type} [BEq α] (opening closing : α) (n : Nat) (s : List α) : Prop :=
  ∀ front, front <+: s → front.count opening ≤ front.count closing + n

namespace NestsWithin

variable {α : Type} [BEq α] {opening closing : α} {n : Nat}

/-- A text leaves no more signs open than it has. -/
theorem of_count_le {s : List α} (h : s.count opening ≤ n) : NestsWithin opening closing n s :=
  fun _ hf => Nat.le_trans (Nat.le_trans (hf.sublist.count_le opening) h) (Nat.le_add_left _ _)

variable [LawfulBEq α]

theorem cons_opening_iff (h : opening ≠ closing) {s : List α} :
    NestsWithin opening closing n (opening :: s) ↔
      ∃ m, n = m + 1 ∧ NestsWithin opening closing m s := by
  unfold NestsWithin
  rw [forall_front_cons]
  simp only [List.count_cons_self, List.count_cons_of_ne h]
  constructor
  · rintro ⟨-, hcons⟩
    -- already the front part that is this sign alone leaves one open
    have hpos : 1 ≤ n := by simpa using hcons [] List.nil_prefix
    obtain ⟨m, rfl⟩ := Nat.exists_eq_add_of_le' hpos
    exact ⟨m, rfl, fun front hf => Nat.le_of_succ_le_succ (hcons front hf)⟩
  · rintro ⟨m, rfl, hm⟩
    exact ⟨Nat.zero_le _, fun front hf => Nat.succ_le_succ (hm front hf)⟩

theorem cons_closing_iff (h : opening ≠ closing) {s : List α} :
    NestsWithin opening closing n (closing :: s) ↔ NestsWithin opening closing (n + 1) s := by
  unfold NestsWithin
  rw [forall_front_cons]
  simp [h.symm, Nat.add_assoc, Nat.add_comm 1 n]

/-- Other signs open nothing and close nothing. -/
theorem append_iff {text s : List α} (h : ∀ a ∈ text, a ≠ opening ∧ a ≠ closing) :
    NestsWithin opening closing n (text ++ s) ↔ NestsWithin opening closing n s := by
  induction text with
  | nil => rfl
  | cons a text ih =>
      obtain ⟨hopening, hclosing⟩ := h a (by simp)
      rw [← ih fun b hb => h b (by simp [hb]), List.cons_append]
      unfold NestsWithin
      rw [forall_front_cons]
      simp [hopening, hclosing]

theorem ne_parenthesis_of_plainSpelling {c : Char} (hopening : c ≠ '(') (hclosing : c ≠ ')') :
    ∀ d ∈ Text.plainSpelling c, d ≠ '(' ∧ d ≠ ')' := by
  unfold Text.plainSpelling
  split
  · simp
  · split
    case h_4 => simpa using ⟨hopening, hclosing⟩
    all_goals simp

/-- Leaving blanks out and spelling signs out neither opens nor closes a parenthesis. -/
theorem normalize {n : Nat} {s : List Char} (h : NestsWithin '(' ')' n s) :
    NestsWithin '(' ')' n (Text.normalize s) := by
  induction s generalizing n with
  | nil => exact h
  | cons c s ih =>
      have hsplit : Text.normalize (c :: s) = Text.plainSpelling c ++ Text.normalize s :=
        List.flatMap_cons
      rw [hsplit]
      by_cases hopening : c = '('
      · subst hopening
        obtain ⟨m, rfl, hm⟩ := (cons_opening_iff (by decide)).mp h
        exact (cons_opening_iff (by decide)).mpr ⟨m, rfl, ih hm⟩
      · by_cases hclosing : c = ')'
        · subst hclosing
          exact (cons_closing_iff (by decide)).mpr (ih ((cons_closing_iff (by decide)).mp h))
        · have hc : NestsWithin '(' ')' n ([c] ++ s) := h
          rw [append_iff (by simpa using ⟨hopening, hclosing⟩)] at hc
          exact (append_iff (ne_parenthesis_of_plainSpelling hopening hclosing)).mpr (ih hc)

end NestsWithin

/-- The lexemes of a text nest as its characters do. -/
theorem Token.Cuts.nestsWithin {position stop : Nat} {s rest : List Char}
    {tokens : List PlacedToken} (h : Cuts position s tokens stop rest) :
    ∀ {n : Nat}, NestsWithin '(' ')' n s →
      NestsWithin .opening .closing n (tokens.map (·.token)) := by
  induction h with
  | done =>
      intro n _ front hf
      obtain rfl := List.prefix_nil.mp hf
      exact Nat.zero_le _
  | @more position stop s text behind rest token tokens longest _ ih =>
      obtain ⟨rfl, hspells, -⟩ := longest
      intro n hn
      have hplain := ne_parenthesis_of_spells hspells
      rw [List.map_cons]
      cases hspells with
      | opening =>
          obtain ⟨m, rfl, hm⟩ := (NestsWithin.cons_opening_iff (by decide)).mp hn
          exact (NestsWithin.cons_opening_iff (by decide)).mpr ⟨m, rfl, ih hm⟩
      | closing =>
          exact (NestsWithin.cons_closing_iff (by decide)).mpr
            (ih ((NestsWithin.cons_closing_iff (by decide)).mp hn))
      | operator | whole | pointed =>
          rw [NestsWithin.append_iff (hplain nofun nofun)] at hn
          rw [← List.singleton_append]
          exact (NestsWithin.append_iff (by simp)).mpr (ih hn)

end Reckoner
