import Mathlib
import Reckoner.Decimal.Layout
import Reckoner.Proofs.Lexing.Longest
import Reckoner.Proofs.Numbers.Rounding

/-!
# Numbers — the text of a double reads back

`Decimal.shortest` looks for digits on a handful of grids and takes those that read back; where it
finds none it takes all the digits there are, which do so anyway.  So **the shortest decimal of a
double reads back as the double** (`Decimal.toWord_shortest`), however many grids are tried.

A decimal written without an exponent is a literal of the language that stands for it
(`exists_ofDigits_eq`), and therefore **a finite double with a clear sign is written as a literal
that stands for itself** (`Layout.spells_spell`).
-/

namespace Reckoner

/-- A double with a clear sign is the one with its word. -/
theorem Binary64.ofWord_word {x : Float} (h : isNegative x = false) :
    ofWord false (word x) = x := by
  have hlt : x.toBits.toNat < signBit := by simpa [isNegative] using h
  rw [word, Nat.mod_eq_of_lt hlt, ofWord]
  simp

namespace Decimal

open Binary64 (nearestWord wordMagnitude infinityWord grainsPerOne)

/-! ### Equal decimals -/

/-- Decimals whose ratios differ by a common factor have the same word. -/
theorem toWord_congr {a b : Decimal} {k : Nat} (hk : 0 < k) (h₁ : a.ratio.1 = b.ratio.1 * k)
    (h₂ : a.ratio.2 = b.ratio.2 * k) : a.toWord = b.toWord := by
  rw [toWord, toWord, h₁, h₂, Nat.mul_right_comm, Binary64.nearestWord_scale hk]

/-- A trailing zero is the same as one more in the exponent. -/
theorem toWord_mul_ten (digits : Nat) (exponent : Int) :
    toWord ⟨digits * 10, exponent⟩ = toWord ⟨digits, exponent + 1⟩ := by
  by_cases h : 0 ≤ exponent
  · have hneg : (-exponent).toNat = 0 := by omega
    have hneg' : (-(exponent + 1)).toNat = 0 := by omega
    have hpos : (exponent + 1).toNat = exponent.toNat + 1 := by omega
    refine toWord_congr Nat.one_pos ?_ ?_
    · simp only [ratio, hpos, Nat.pow_eq, Nat.pow_succ]
      ac_rfl
    · simp only [ratio, hneg, hneg', Nat.mul_one]
  · have hpos : exponent.toNat = 0 := by omega
    have hpos' : (exponent + 1).toNat = 0 := by omega
    have hneg : (-exponent).toNat = (-(exponent + 1)).toNat + 1 := by omega
    refine toWord_congr (by decide : 0 < 10) ?_ ?_
    · simp only [ratio, hpos, hpos', Nat.pow_eq, Nat.pow_zero, Nat.mul_one]
    · simp only [ratio, hneg, Nat.pow_eq, Nat.pow_succ]

/-- Zeros behind the digits are the same as a larger exponent. -/
theorem toWord_mul_pow (digits n : Nat) (exponent : Int) :
    toWord ⟨digits * 10 ^ n, exponent⟩ = toWord ⟨digits, exponent + n⟩ := by
  induction n generalizing exponent with
  | zero => simp
  | succ n ih =>
      rw [Nat.pow_succ, ← Nat.mul_assoc, toWord_mul_ten, ih]
      congr 2
      omega

/-- Leaving out trailing zeros does not change the number. -/
theorem toWord_trim (d : Decimal) : d.trim.toWord = d.toWord := by
  fun_induction trim d with
  | case1 d h ih =>
      rw [ih, ← toWord_mul_ten, Nat.div_mul_cancel (Nat.dvd_of_mod_eq_zero h.2)]
  | case2 => rfl

/-! ### The search -/

/-- As many factors of two as of five make up tens. -/
theorem nearestWord_tens (grains n : Nat) :
    nearestWord (grains * Nat.pow 5 n * 2 ^ n) (10 ^ n) = nearestWord grains 1 := by
  calc nearestWord (grains * Nat.pow 5 n * 2 ^ n) (10 ^ n)
      = nearestWord (grains * 10 ^ n) (1 * 10 ^ n) := by
        rw [Nat.pow_eq, Nat.mul_assoc, ← Nat.mul_pow, Nat.one_mul]
    _ = nearestWord grains 1 := Binary64.nearestWord_scale (Nat.pow_pos (by decide)) grains 1

/-- The ratio of a decimal with `places` digits behind the point. -/
theorem ratio_neg (digits places : Nat) : ratio ⟨digits, -places⟩ = (digits, 10 ^ places) := by
  have hpos : (-(places : Int)).toNat = 0 := by omega
  simp [ratio, hpos]

/-- All digits of a number of grains read back as it. -/
theorem toWord_exact {w : Nat} (hw : w < infinityWord) : (exact (wordMagnitude w)).toWord = w := by
  -- the powers are kept out of sight, for nothing depends on how many places there are
  obtain ⟨places, hplaces⟩ : ∃ places, places = 1074 := ⟨_, rfl⟩
  have hgrains : grainsPerOne = 2 ^ places := by
    rw [← Nat.one_shiftLeft, hplaces, grainsPerOne]
  have hexponent : (-1074 : Int) = -places := by rw [hplaces]; rfl
  have hratio : (exact (wordMagnitude w)).ratio =
      (wordMagnitude w * Nat.pow 5 places, 10 ^ places) := by
    rw [exact, hexponent, ← hplaces, ratio_neg]
  rw [toWord, hratio, hgrains, nearestWord_tens, Binary64.nearestWord_wordMagnitude hw]

/-- What is found on a grid reads back. -/
theorem toWord_of_onGrid? {tie : Tie} {w : Nat} {exponent : Int} {d : Decimal}
    (h : onGrid? tie w exponent = some d) : d.toWord = w := by
  unfold onGrid? at h
  dsimp only at h
  split at h
  · cases h
    assumption
  · split at h
    · cases h
      assumption
    · cases h

/-- Whatever grids are searched, what comes of it reads back. -/
theorem toWord_search (tie : Tie) {w : Nat} (hw : w < infinityWord) (count : Nat)
    (exponent : Int) : (search tie w count exponent).toWord = w := by
  unfold search
  cases h : (List.range count).findSome? fun (finer : Nat) => onGrid? tie w (exponent - finer) with
  | none => exact toWord_exact hw
  | some d =>
      obtain ⟨finer, -, hfound⟩ := List.exists_of_findSome?_eq_some h
      exact toWord_of_onGrid? hfound

/-- **The shortest decimal of a double reads back as the double.** -/
theorem toWord_shortest (tie : Tie) {w : Nat} (hw : w < infinityWord) :
    (shortest tie w).toWord = w := by
  rw [shortest, toWord_trim, toWord_search tie hw]

/-! ### Digits -/

/-- The digits on either side of a point make up one run of digits. -/
theorem ofDigits_eq (whole places : List Char) :
    ofDigits whole places = ⟨Nat.ofDigitChars 10 (whole ++ places) 0, -places.length⟩ := by
  rw [ofDigits, Nat.ofDigitChars_append]

/-- Decimals of the same word stand for the same double. -/
theorem toFloat_congr {d d' : Decimal} (h : d.toWord = d'.toWord) : d.toFloat = d'.toFloat := by
  rw [toFloat, h, toFloat]

end Decimal

namespace Lexeme

theorem isDigit_of_mem_replicate {n : Nat} {c : Char} (h : c ∈ List.replicate n '0') :
    c.isDigit = true := by
  rw [List.eq_of_mem_replicate h]
  rfl

theorem isDigit_of_mem_zero (c : Char) (h : c ∈ ['0']) : c.isDigit = true :=
  isDigit_of_mem_replicate (n := 1) h

/-- **A decimal without an exponent is written as a literal that stands for it**, from any digits
that spell its own. -/
theorem spells_positionalText {d : Decimal} {digits : List Char} (hne : digits ≠ [])
    (hd : ∀ c ∈ digits, c.isDigit = true) (hvalue : Nat.ofDigitChars 10 digits 0 = d.digits) :
    Spells (Layout.positionalText [] digits d.exponent) (.number d.toFloat) := by
  unfold Layout.positionalText
  split
  · rename_i hexp
    -- zeros behind the digits, and no point
    have hword : (Decimal.ofDigits (digits ++ List.replicate d.exponent.toNat '0') []).toWord =
        d.toWord := by
      rw [Decimal.ofDigits_eq, List.append_nil, Nat.ofDigitChars_append,
        Nat.ofDigitChars_replicate_zero, hvalue, Nat.mul_comm, Decimal.toWord_mul_pow]
      simp [Int.toNat_of_nonneg hexp]
    rw [List.append_nil, ← Decimal.toFloat_congr hword]
    refine .whole (by simp [hne]) fun c hc => ?_
    exact (List.mem_append.mp hc).elim (hd c) isDigit_of_mem_replicate
  · rename_i hexp
    have hplaces : -((-d.exponent).toNat : Int) = d.exponent := by omega
    generalize (-d.exponent).toNat = places at hplaces
    dsimp only
    split
    · rename_i hlt
      -- the point among the digits
      have hword : (Decimal.ofDigits (digits.take (digits.length - places))
          (digits.drop (digits.length - places))).toWord = d.toWord := by
        rw [Decimal.ofDigits_eq, List.take_append_drop, hvalue, List.length_drop,
          Nat.sub_sub_self (Nat.le_of_lt hlt), hplaces]
      have htake : digits.take (digits.length - places) ≠ [] := by
        rw [← List.length_pos_iff, List.length_take]
        omega
      rw [← Decimal.toFloat_congr hword]
      exact .pointed (.inl htake) (fun c hc => hd c (List.mem_of_mem_take hc))
        (fun c hc => hd c (List.mem_of_mem_drop hc))
    · rename_i hge
      -- a zero, the point, and zeros in front of the digits
      have hword : (Decimal.ofDigits ['0']
          (List.replicate (places - digits.length) '0' ++ digits)).toWord = d.toWord := by
        rw [Decimal.ofDigits_eq, List.length_append, List.length_replicate,
          Nat.sub_add_cancel (Nat.le_of_not_lt hge), hplaces, List.singleton_append,
          ← List.cons_append, ← List.replicate_succ, Nat.ofDigitChars_append,
          Nat.ofDigitChars_replicate_zero, Nat.mul_zero, hvalue]
      rw [← Decimal.toFloat_congr hword]
      exact .pointed (.inl (List.cons_ne_nil _ _)) isDigit_of_mem_zero fun c hc =>
        (List.mem_append.mp hc).elim isDigit_of_mem_replicate (hd c)

end Lexeme

namespace Layout

/-- Every decimal is written as a literal that stands for it. -/
theorem spells_decimalText (d : Decimal) :
    Lexeme.Spells (plain.decimalText d) (.number d.toFloat) :=
  Lexeme.spells_positionalText Nat.toDigits_ne_nil
    (fun _ hc => Nat.isDigit_of_mem_toDigits (by decide) (by decide) hc)
    Nat.ofDigitChars_ten_toDigits

/-- A finite double with a clear sign is written as its word. -/
theorem spell_eq_wordText {x : Float} (hf : Binary64.isFinite x = true)
    (hs : Binary64.isNegative x = false) : plain.spell x = plain.wordText (Binary64.word x) := by
  have hw : Binary64.word x < Binary64.infinityWord := by simpa [Binary64.isFinite] using hf
  have hnan : Binary64.isNaN x = false := by
    simpa [Binary64.isNaN] using Nat.le_of_lt hw
  simp [spell, hnan, hf, hs]

/-- **A finite double with a clear sign is written as a literal that stands for itself.** -/
theorem spells_spell {x : Float} (hf : Binary64.isFinite x = true)
    (hs : Binary64.isNegative x = false) : Lexeme.Spells (plain.spell x) (.number x) := by
  have hw : Binary64.word x < Binary64.infinityWord := by simpa [Binary64.isFinite] using hf
  have hx : ∀ d : Decimal, d.toWord = Binary64.word x → d.toFloat = x := by
    intro d hd
    rw [Decimal.toFloat, hd, Binary64.ofWord_word hs]
  rw [spell_eq_wordText hf hs, wordText]
  split
  · rename_i hzero
    have hword : (Decimal.ofDigits ['0'] []).toWord = Binary64.word x := by
      rw [hzero]
      decide
    have hone : Lexeme.Spells ['0'] (.number (Decimal.ofDigits ['0'] []).toFloat) :=
      .whole (List.cons_ne_nil _ _) Lexeme.isDigit_of_mem_zero
    rwa [hx _ hword] at hone
  · have hword := Decimal.toWord_shortest plain.tie hw
    have hone := spells_decimalText (Decimal.shortest plain.tie (Binary64.word x))
    rwa [hx _ hword] at hone

end Layout

end Reckoner
