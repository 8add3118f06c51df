import Reckoner.Proofs.Numbers.Words

/-!
# Numbers — doubles as the machine takes them apart

The machine computes on doubles that it has taken apart: into a sign, a mantissa and an exponent, or
into what they are instead of a finite number.  `unpacked` says the same of a sign and a word.
**Bits are taken apart as their sign and word** (`unpack_eq`), **and are put together again as they
were** (`toNat_pack`), so that an operation of the machine is known once it is known on `unpacked`
words: its value is the double of the word that it gives (`ofWord_eq`).
-/

namespace Reckoner.Binary64

open Float.Model (UnpackedFloat Format)
open Float.Model.UnpackedFloat (Sign)

/-! ### Words apart -/

/-- The sign of the machine. -/
def sign (negative : Bool) : Sign :=
  if negative then .negative else .positive

/-- A number with a sign. -/
def signed (negative : Bool) (a : Nat) : Int :=
  if negative then -a else a

@[simp] theorem signed_zero (negative : Bool) : signed negative 0 = 0 := by
  cases negative <;> rfl

theorem natAbs_signed (negative : Bool) (a : Nat) : (signed negative a).natAbs = a := by
  cases negative <;> simp [signed]

theorem signed_mul (negative : Bool) (a b : Nat) :
    signed negative (a * b) = signed negative a * b := by
  cases negative with
  | false => exact Int.natCast_mul a b
  | true => exact (congrArg (- ·) (Int.natCast_mul a b)).trans (Int.neg_mul _ _).symm

theorem apply_sign (negative : Bool) (a : Nat) : (sign negative).apply a = signed negative a := by
  cases negative <;> rfl

/-- A word other than zero is more than its exponent. -/
theorem mantissa_pos {w : Nat} (hw : w ≠ 0) : 0 < w - (w / exponentBit - 1) * exponentBit := by
  simp only [exponentBit]
  omega

/-- What the machine takes a sign and a word for. -/
def unpacked (negative : Bool) (w : Nat) : UnpackedFloat :=
  if infinityWord < w then .notANumber
  else if w = infinityWord then .infinity (sign negative)
  else if h : w = 0 then .zero (sign negative)
  else
    let k := w / exponentBit - 1
    .finite (sign negative) (w - k * exponentBit) (k - 1074) (mantissa_pos h)

variable {negative : Bool} {m k w : Nat}

@[simp] theorem unpacked_infinityWord :
    unpacked negative infinityWord = .infinity (sign negative) :=
  rfl

@[simp] theorem unpacked_zero : unpacked negative 0 = .zero (sign negative) :=
  rfl

theorem unpacked_of_lt (h : infinityWord < w) : unpacked negative w = .notANumber :=
  if_pos h

/-- Two finite numbers are one if their parts are. -/
theorem finite_congr {s : Sign} {m m' : Nat} {e e' : Int} {h : 0 < m} {h' : 0 < m'} (hm : m = m')
    (he : e = e') : UnpackedFloat.finite s m e h = .finite s m' e' h' := by
  subst hm he
  rfl

/-- A word below infinity's is a number of at most 53 bits and a power of two. -/
theorem unpacked_canonical (h : Canonical m k) (hk : k ≤ lastExponent) :
    unpacked negative (k * exponentBit + m) = .finite (sign negative) m (k - 1074) h.pos := by
  have hword := h.word_lt hk
  have hexponent : (k * exponentBit + m) / exponentBit - 1 = k := by
    obtain ⟨-, hlt, hfull⟩ := h
    simp only [exponentBit] at *
    omega
  rw [unpacked, if_neg (by omega), if_neg hword.ne, dif_neg (by have := h.pos; omega)]
  exact finite_congr (by rw [hexponent, Nat.add_sub_cancel_left]) (by rw [hexponent])

/-- What a word stands for that is not past infinity's. -/
theorem word_cases (hw : w ≤ infinityWord) : w = 0 ∨ w = infinityWord ∨
    ∃ m k, Canonical m k ∧ k ≤ lastExponent ∧ w = k * exponentBit + m := by
  rcases Nat.eq_zero_or_pos w with hzero | hpos
  · exact .inl hzero
  rcases Nat.lt_or_eq_of_le hw with hlt | heq
  · obtain ⟨m, k, h, rfl⟩ := exists_canonical (Nat.ne_of_gt hpos)
    exact .inr (.inr ⟨m, k, h, h.le_lastExponent hlt, rfl⟩)
  · exact .inr (.inl heq)

/-! ### Bits -/

section

variable (b : BitVec 64)

theorem toNat_unpackExponent :
    (@UnpackedFloat.unpackExponent .binary64 b).toNat = b.toNat % signBit / exponentBit := by
  simp [UnpackedFloat.unpackExponent, Nat.shiftRight_eq_div_pow, signBit, exponentBit]
  omega

theorem toNat_unpackMantissa :
    (@UnpackedFloat.unpackMantissa .binary64 b).toNat = b.toNat % signBit % exponentBit := by
  simp [UnpackedFloat.unpackMantissa, signBit, exponentBit]

theorem toNat_unpackSign :
    (@UnpackedFloat.unpackSign .binary64 b).toNat = b.toNat / signBit := by
  have hb := b.isLt
  simp [UnpackedFloat.unpackSign, Nat.shiftRight_eq_div_pow, signBit]
  omega

theorem ofBitVec_unpackSign :
    Sign.ofBitVec (@UnpackedFloat.unpackSign .binary64 b) = sign (signBit ≤ b.toNat) := by
  by_cases h : signBit ≤ b.toNat
  · have hset : @UnpackedFloat.unpackSign .binary64 b ≠ 0#1 := by
      rw [ne_eq, ← BitVec.toNat_inj, toNat_unpackSign]
      exact Nat.ne_of_gt (Nat.div_pos h (by decide))
    simp [Sign.ofBitVec, sign, h, hset]
  · have hclear : @UnpackedFloat.unpackSign .binary64 b = 0#1 := by
      rw [← BitVec.toNat_inj, toNat_unpackSign]
      exact Nat.div_eq_of_lt (Nat.lt_of_not_le h)
    simp [Sign.ofBitVec, sign, h, hclear]

end

/-- The leading bit of a mantissa, which is not written. -/
theorem toNat_append_one (fraction : BitVec 52) :
    (1#1 ++ fraction).toNat = exponentBit + fraction.toNat := by
  rw [BitVec.toNat_append, ← Nat.shiftLeft_add_eq_or_of_lt fraction.isLt]
  rfl

/-- **Bits are taken apart as their sign and word.** -/
theorem unpack_eq (b : BitVec 64) :
    UnpackedFloat.unpack .binary64 b = unpacked (signBit ≤ b.toNat) (b.toNat % signBit) := by
  have hbias : (Format.exponentBias .binary64 : Int) + (52 : Nat) = 1075 := by decide
  have hones : (-1#(11)).toNat = 2047 := by decide
  have hexponent := toNat_unpackExponent b
  have hmantissa := toNat_unpackMantissa b
  have hw : b.toNat % signBit < signBit := Nat.mod_lt _ (by decide)
  generalize b.toNat % signBit = w at *
  unfold UnpackedFloat.unpack
  simp only [← BitVec.toNat_inj, BitVec.toNat_zero, hexponent, hmantissa, ofBitVec_unpackSign,
    toNat_append_one, hbias, hones]
  by_cases hspecial : w / exponentBit = 2047
  · rw [if_pos hspecial]
    by_cases hfraction : w % exponentBit = 0
    · rw [if_pos hfraction]
      obtain rfl : w = infinityWord := by
        simp only [exponentBit, infinityWord] at *
        omega
      rfl
    · rw [if_neg hfraction, unpacked_of_lt]
      simp only [exponentBit, infinityWord] at *
      omega
  · rw [if_neg hspecial]
    rcases Nat.eq_zero_or_pos w with rfl | hpos
    · rfl
    obtain ⟨m, k, h, rfl⟩ := exists_canonical (Nat.ne_of_gt hpos)
    have hlt : k * exponentBit + m < infinityWord := by
      simp only [exponentBit, infinityWord, signBit] at *
      omega
    rw [unpacked_canonical h (h.le_lastExponent hlt)]
    -- the exponent that is written is zero for the least power if the leading bit is missing
    obtain ⟨hm, hbits, hfull⟩ := h
    split
    · rw [dif_neg (by simp only [exponentBit] at *; omega)]
      apply finite_congr <;> simp only [exponentBit] at * <;> omega
    · apply finite_congr <;> simp only [exponentBit] at * <;> omega

theorem toNat_packComponents (exponent : BitVec 11) (fraction : BitVec 52) :
    (UnpackedFloat.packComponents .binary64 (sign negative) exponent fraction).toNat =
      (if negative then signBit else 0) + (exponent.toNat * exponentBit + fraction.toNat) := by
  have hsplit : (UnpackedFloat.packComponents .binary64 (sign negative) exponent fraction).toNat =
      ((sign negative).toBitVec.toNat * 2 ^ 11 + exponent.toNat) * 2 ^ 52 + fraction.toNat := by
    simp only [UnpackedFloat.packComponents, BitVec.toNat_append]
    rw [← Nat.shiftLeft_add_eq_or_of_lt fraction.isLt,
      ← Nat.shiftLeft_add_eq_or_of_lt exponent.isLt, Nat.shiftLeft_eq, Nat.shiftLeft_eq]
  rw [hsplit]
  cases negative
  · simp [sign, Sign.toBitVec, exponentBit]
  · simp [sign, Sign.toBitVec, exponentBit, signBit]
    omega

/-- A mantissa has its leading bit if and only if the machine leaves it out. -/
theorem log2_eq_mantissaBits_iff (h : Canonical m k) :
    m.log2 + 1 = Format.mantissaBits .binary64 ↔ exponentBit ≤ m := by
  have hlog : m.log2 = 52 ↔ 2 ^ 52 ≤ m ∧ m < 2 ^ 53 := Nat.log2_eq_iff (Nat.ne_of_gt h.pos)
  have hsize : Format.mantissaBits .binary64 = 53 := by decide
  have hlt := h.lt
  simp only [exponentBit] at *
  omega

/-- **Bits are put together again as they were taken apart.** -/
theorem toNat_pack (hw : w ≤ infinityWord) :
    (UnpackedFloat.pack .binary64 (unpacked negative w)).toNat =
      if negative then signBit + w else w := by
  rcases word_cases hw with rfl | rfl | ⟨m, k, h, hk, rfl⟩
  · cases negative <;> decide
  · cases negative <;> decide
  have hbias : Format.exponentBias .binary64 = 1023 := by decide
  have hbiased : ((k : Int) - 1074 + (Format.exponentBias .binary64 : Nat) + (52 : Nat)).toNat =
      k + 1 := by
    omega
  rw [unpacked_canonical h hk]
  unfold UnpackedFloat.pack
  dsimp only
  rw [hbiased, if_neg (by simp only [lastExponent] at hk; omega)]
  simp only [log2_eq_mantissaBits_iff h]
  obtain ⟨-, hbits, hfull⟩ := h
  split <;> rw [toNat_packComponents, BitVec.toNat_ofNat, BitVec.toNat_ofNat] <;>
    cases negative <;>
    simp only [exponentBit, lastExponent, Bool.false_eq_true, if_true, if_false] at * <;> omega

/-! ### Doubles -/

variable {x : Float}

theorem toModel_unpack (x : Float) : x.toModel.unpack = unpacked (isNegative x) (word x) :=
  unpack_eq _

/-- **What is put together from a sign and a word is their double.** -/
theorem ofWord_eq (hw : w < signBit) :
    ofWord negative w = .ofModel (.pack (unpacked negative w)) := by
  have hbits : (if negative then signBit + w else w) < 2 ^ 64 := by
    cases negative <;> simp only [signBit] at * <;> simp <;> omega
  have htoNat : (UInt64.ofNat (if negative then signBit + w else w)).toBitVec.toNat =
      if negative then signBit + w else w :=
    Nat.mod_eq_of_lt hbits
  rw [ofWord, Float.ofBits, Float.Model.ofBits, unpack_eq, htoNat]
  cases negative
  · simp [Nat.mod_eq_of_lt hw, Nat.not_le_of_lt hw]
  · simp [Nat.mod_eq_of_lt hw]

theorem toNat_toBits_ofWord (hw : w ≤ infinityWord) :
    (ofWord negative w).toBits.toNat = if negative then signBit + w else w := by
  rw [ofWord_eq (Nat.lt_of_le_of_lt hw (by decide))]
  exact toNat_pack hw

theorem isNegative_ofWord (hw : w ≤ infinityWord) : isNegative (ofWord negative w) = negative := by
  have hlt : w < signBit := Nat.lt_of_le_of_lt hw (by decide)
  cases negative <;> simp [isNegative, toNat_toBits_ofWord hw, hlt]

theorem word_ofWord (hw : w ≤ infinityWord) : word (ofWord negative w) = w := by
  have hlt : w < signBit := Nat.lt_of_le_of_lt hw (by decide)
  cases negative <;> simp [word, toNat_toBits_ofWord hw, Nat.mod_eq_of_lt hlt]

theorem isFinite_ofWord (hw : w < infinityWord) : isFinite (ofWord negative w) = true := by
  rw [isFinite, word_ofWord (Nat.le_of_lt hw)]
  exact decide_eq_true hw

theorem word_le_of_not_isNaN (hx : isNaN x = false) : word x ≤ infinityWord :=
  Nat.le_of_not_lt (of_decide_eq_false hx)

/-- The words past infinity's are those that the machine takes for no number. -/
theorem isNaN_eq (x : Float) : x.isNaN = isNaN x := by
  rw [Float.isNaN, Float.Model.isNaN, toModel_unpack, unpacked, isNaN]
  split_ifs <;> simp_all [UnpackedFloat.isNaN]

theorem isInf_eq (x : Float) : x.isInf = decide (word x = infinityWord) := by
  rw [Float.isInf, Float.Model.isInf, toModel_unpack, unpacked]
  split_ifs <;> simp_all [UnpackedFloat.isInf]
  omega

theorem isFinite_of_ne (hnan : isNaN x = false) (hinfinite : word x ≠ infinityWord) :
    isFinite x = true :=
  decide_eq_true (Nat.lt_of_le_of_ne (word_le_of_not_isNaN hnan) hinfinite)

/-! ### Absolute values -/

theorem abs_eq (hx : isNaN x = false) : x.abs = ofWord false (word x) := by
  have hw := word_le_of_not_isNaN hx
  rw [ofWord_eq (Nat.lt_of_le_of_lt hw (by decide)), Float.abs, Float.Model.abs, toModel_unpack]
  rcases word_cases hw with hzero | hinfinite | ⟨m, k, h, hk, hword⟩
  · rw [hzero]
    rfl
  · rw [hinfinite]
    rfl
  · rw [hword, unpacked_canonical h hk, unpacked_canonical h hk]
    rfl

theorem isNaN_ofModel_notANumber : isNaN (.ofModel (.pack .notANumber)) = true := by
  decide

theorem isNaN_abs (hx : isNaN x = true) : isNaN x.abs = true := by
  have hunpack : x.toModel.unpack.abs = .notANumber := by
    rw [toModel_unpack, unpacked_of_lt (of_decide_eq_true hx)]
    rfl
  rw [Float.abs, Float.Model.abs, hunpack, isNaN_ofModel_notANumber]

end Reckoner.Binary64
