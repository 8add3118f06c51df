import Reckoner.Proofs.Lexing.Balance
import Reckoner.Proofs.Lexing.Placing

/-!
# Lexing — tokens that are written and split again

Tokens written one behind the other are split into themselves again if three things hold of them:
their parentheses are `Matched`, no two operators meet (`Spaced`), and no two numbers meet
(`NumbersApart`).  None of the three can be left out.  The first two are what the scanner itself
checks; and numbers that meet run together, for the text of a number starts with a digit
(`Layout.exists_digit_spell`), which the literal in front of it takes in
(`Lexeme.Spells.append_digit`).

**So a list of tokens whose numbers can be written at all is given back by its text exactly if
these three hold**, each token at the place where its text starts (`Token.tokenize_join_text_iff`).
-/

namespace Reckoner

/-! ### Literals that meet -/

/-- A digit behind a literal makes it a longer one. -/
theorem Lexeme.Spells.append_digit {text : List Char} {value : Float}
    (h : Spells text (.number value)) {c : Char} (hc : c.isDigit = true) :
    ∃ value', Spells (text ++ [c]) (.number value') := by
  have hdigit : ∀ d ∈ [c], d.isDigit = true := by simpa using hc
  generalize ht : Token.number value = token at h
  cases h with
  | operator | opening | closing => cases ht
  | whole hne hd =>
      exact ⟨_, .whole (by simp) fun d hd' => (List.mem_append.mp hd').elim (hd d) (hdigit d)⟩
  | @pointed digits places hne hd hp =>
      have hlonger : Spells (digits ++ '.' :: (places ++ [c]))
          (.number (Decimal.ofDigits digits (places ++ [c])).toFloat) :=
        .pointed (.inr (by simp)) hd fun d hd' => (List.mem_append.mp hd').elim (hp d) (hdigit d)
      exact ⟨_, by rwa [List.append_assoc]⟩

namespace Layout

/-- Written without an exponent, digits start with a digit. -/
theorem exists_digit_positionalText {digits : List Char} (hne : digits ≠ [])
    (hd : ∀ c ∈ digits, c.isDigit = true) (exponent : Int) :
    ∃ c rest, positionalText [] digits exponent = c :: rest ∧ c.isDigit = true := by
  unfold positionalText
  split
  · obtain ⟨c, digits, rfl⟩ := List.exists_cons_of_ne_nil hne
    exact ⟨c, _, rfl, hd c (by simp)⟩
  · dsimp only
    split
    · rename_i hlt
      -- the point stands behind one of the digits at least
      have htake : digits.take (digits.length - (-exponent).toNat) ≠ [] := by
        rw [← List.length_pos_iff, List.length_take]
        omega
      obtain ⟨c, front, hfront⟩ := List.exists_cons_of_ne_nil htake
      have hmem : c ∈ digits.take (digits.length - (-exponent).toNat) := by simp [hfront]
      exact ⟨c, _, by rw [hfront, List.cons_append], hd c (List.mem_of_mem_take hmem)⟩
    · exact ⟨'0', _, rfl, rfl⟩

theorem exists_digit_decimalText (d : Decimal) :
    ∃ c rest, plain.decimalText d = c :: rest ∧ c.isDigit = true :=
  exists_digit_positionalText Nat.toDigits_ne_nil
    (fun _ hc => Nat.isDigit_of_mem_toDigits (by decide) (by decide) hc) d.exponent

/-- **The text of a number starts with a digit**, if the number is finite and its sign is clear. -/
theorem exists_digit_spell {x : Float} (hf : Binary64.isFinite x = true)
    (hs : Binary64.isNegative x = false) :
    ∃ c rest, plain.spell x = c :: rest ∧ c.isDigit = true := by
  rw [spell_eq_wordText hf hs, wordText]
  split
  · exact ⟨'0', [], rfl, rfl⟩
  · exact exists_digit_decimalText _

end Layout

namespace Token

/-! ### Parentheses -/

/-- No front part of the tokens closes more parentheses than it opens, and all of them close as
many. -/
def Matched (ts : List Token) : Prop :=
  (∀ front, front <+: ts → front.count .closing ≤ front.count .opening) ∧
    ts.count .opening = ts.count .closing

theorem openAfter_runningCount :
    RunningCount opening closing fun depth ts => openAfter depth ts = some 0 where
  nil depth := by simp [openAfter]
  opens _ _ := Iff.rfl
  not_closes _ := (Option.some_ne_none 0).symm
  closes _ _ := Iff.rfl
  other {t} ho hc depth ts := by
    cases t with
    | number | operator => rfl
    | opening => exact absurd rfl ho
    | closing => exact absurd rfl hc

/-- Parentheses are matched if none is open in the end. -/
theorem matched_iff (ts : List Token) : Matched ts ↔ openAfter 0 ts = some 0 :=
  (openAfter_runningCount.iff (by decide) 0 ts).symm

/-! ### Their text -/

/-- The literal in front of a number takes in the first digit of it. -/
theorem not_longest_of_numbers {a b : Token} {behind rest : List Char}
    (h : Lexeme.Longest (a.text.toList ++ behind) a.text.toList a behind) (hb : b.Spellable)
    (hbehind : behind = b.text.toList ++ rest) : ¬ (a.IsNumber ∧ b.IsNumber) := by
  rintro ⟨ha, hb'⟩
  cases a with
  | operator | opening | closing => exact ha
  | number value =>
      cases b with
      | operator | opening | closing => exact hb'
      | number value' =>
          obtain ⟨c, digits, hdigits, hc⟩ := Layout.exists_digit_spell hb.1 hb.2
          obtain ⟨longer, hlonger⟩ := h.spells.append_digit hc
          have hsplit : (number value).text.toList ++ [c] ++ (digits ++ rest) =
              (number value).text.toList ++ behind := by
            rw [hbehind, toList_text_number value', hdigits, List.append_assoc]
            rfl
          have hle := h.longest _ _ _ hsplit hlonger
          rw [List.length_append, List.length_singleton] at hle
          omega

/-- The first token of a cut is placed where the cut starts. -/
theorem Cuts.position_eq {position stop : Nat} {s rest : List Char} {t : PlacedToken}
    {tokens : List PlacedToken} (h : Cuts position s (t :: tokens) stop rest) :
    t.position = position := by
  cases h
  rfl

/-- **Where a cut gives back all tokens that are written, no two numbers meet.** -/
theorem numbersApart_of_cuts {ts : List Token} (hs : ∀ t ∈ ts, t.Spellable) {position stop : Nat}
    (h : Cuts position (texts ts) (place position ts) stop []) : NumbersApart ts := by
  induction ts generalizing position with
  | nil => exact .nil
  | cons a ts ih =>
      cases ts with
      | nil => exact .singleton a
      | cons b ts =>
          cases h with
          | @more _ _ _ lexeme behind _ _ _ longest tail =>
              have hspells := (hs a (by simp)).spells
              -- the next token stands behind the text of this one, so that no more was taken in
              have hposition : position + a.text.utf8ByteSize = position + Lexeme.bytes lexeme :=
                tail.position_eq
              have hbytes : Lexeme.bytes a.text.toList = a.text.utf8ByteSize := by
                rw [Lexeme.bytes, String.ofList_toList]
              have hlength : lexeme.length = a.text.toList.length := by
                rw [← longest.spells.bytes_eq_length, ← hspells.bytes_eq_length]
                omega
              have hsplit : lexeme ++ behind = a.text.toList ++ texts (b :: ts) := longest.append_eq
              obtain ⟨rfl, rfl⟩ := List.append_inj hsplit hlength
              refine List.isChain_cons_cons.mpr
                ⟨not_longest_of_numbers longest (hs b (by simp)) List.flatMap_cons, ?_⟩
              rw [hbytes] at tail
              exact ih (fun t ht => hs t (by simp [ht])) tail

/-- The text of tokens in a row. -/
theorem toList_join_text (ts : List Token) : (String.join (ts.map text)).toList = texts ts := by
  rw [String.toList_join, List.flatMap_map, texts]

/-- A token is placed behind the texts of those in front of it. -/
theorem getElem?_place (position : Nat) (ts : List Token) (i : Nat) :
    (place position ts)[i]? = ts[i]?.map fun t =>
      ⟨t, position + (String.join ((ts.take i).map text)).utf8ByteSize⟩ := by
  induction ts generalizing position i with
  | nil => rfl
  | cons t ts ih =>
      cases i with
      | zero => simp [place]
      | succ i =>
          rw [place, List.getElem?_cons_succ, List.getElem?_cons_succ, ih, List.take_succ_cons,
            List.map_cons, String.join_cons, String.utf8ByteSize_append]
          simp only [Nat.add_assoc]

/-- **Tokens are given back by their text.**  Let all numbers among some tokens be finite, with a
clear sign.  What the tokens are written as, one behind the other, is split into the same tokens,
each placed behind the texts of those in front of it, exactly if their parentheses are matched, no
two operators meet, and no two numbers meet. -/
theorem tokenize_join_text_iff (ts : List Token) (hs : ∀ t ∈ ts, t.Spellable) :
    (tokenize (String.join (ts.map text)) = .ok (place 0 ts) ↔
      Matched ts ∧ Spaced ts ∧ NumbersApart ts) ∧
    ∀ i : Nat, (place 0 ts)[i]? = ts[i]?.map fun t =>
      ⟨t, (String.join ((ts.take i).map text)).utf8ByteSize⟩ := by
  have htext : Text.normalize (String.join (ts.map text)).toList = texts ts := by
    rw [toList_join_text, normalize_texts hs]
  refine ⟨⟨fun h => ?_, fun ⟨hmatched, hspaced, hnumbers⟩ => ?_⟩, fun i => ?_⟩
  · rw [tokenize, tokenizeChars_eq_ok_iff, htext, map_token_place] at h
    obtain ⟨hbalanced, ⟨stop, hcuts⟩, hspaced⟩ := h
    rw [hcuts.balanced_iff, map_token_place] at hbalanced
    exact ⟨(matched_iff ts).mpr hbalanced, hspaced, numbersApart_of_cuts hs hcuts⟩
  · exact tokenize_of_texts htext hs ((isChain_apart_iff ts).mpr ⟨hspaced, hnumbers⟩)
      ((matched_iff ts).mp hmatched)
  · rw [getElem?_place]
    simp only [Nat.zero_add]

/-- A literal between parentheses, operators that start alike, and a sign behind a parenthesis. -/
theorem tokenize_join_extremes :
    ∃ ts : List Token, ts = [.opening, .number (Binary64.ofWord false 1), .operator .pow,
        .number (Binary64.ofWord false 0x7FEFFFFFFFFFFFFF), .closing, .operator .mul,
        .opening, .operator .sub, .number 2.5, .closing] ∧
      (∀ t ∈ ts, t.Spellable) ∧ Matched ts ∧ Spaced ts ∧ NumbersApart ts ∧
      tokenize (String.join (ts.map text)) = .ok (place 0 ts) := by
  obtain ⟨ts, hts⟩ : ∃ ts : List Token, ts = [.opening, .number (Binary64.ofWord false 1),
      .operator .pow, .number (Binary64.ofWord false 0x7FEFFFFFFFFFFFFF), .closing, .operator .mul,
      .opening, .operator .sub, .number 2.5, .closing] := ⟨_, rfl⟩
  have hs : ∀ t ∈ ts, t.Spellable := by
    rw [hts]
    simp only [List.forall_mem_cons]
    exact ⟨trivial, ⟨by decide, by decide⟩, trivial, ⟨by decide, by decide⟩, trivial, trivial,
      trivial, trivial, ⟨by decide, by decide⟩, trivial, nofun⟩
  have hmatched : Matched ts := by
    rw [matched_iff, hts]
    rfl
  have hspaced : Spaced ts := by simp [hts, Spaced, isOperator]
  have hnumbers : NumbersApart ts := by simp [hts, NumbersApart, IsNumber]
  exact ⟨ts, hts, hs, hmatched, hspaced, hnumbers,
    (tokenize_join_text_iff ts hs).1.mpr ⟨hmatched, hspaced, hnumbers⟩⟩

end Token

end Reckoner
