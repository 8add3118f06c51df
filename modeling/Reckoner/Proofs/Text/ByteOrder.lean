import Mathlib.Data.String.Basic

/-!
# Text — byte order

Texts are ordered by their characters, and characters by their code points.  A code point is encoded
in one to four bytes, of which the first tells how many there are, and a larger one has a larger
first byte or the same and larger ones behind it (`Text.encodeChar_lt`).  **So the order of texts is
that of their bytes** (`Text.encoding_lt`).
-/

namespace Reckoner.Text

/-- The bytes of a text in UTF-8. -/
def encoding (s : String) : List UInt8 :=
  s.toByteArray.data.toList

theorem encoding_eq (s : String) : encoding s = s.toList.flatMap String.utf8EncodeChar := by
  rw [encoding, ← String.utf8Encode_toList, List.utf8Encode]
  simp

/-- Lists are in the order of their first bytes. -/
theorem cons_lt_of_lt {m n : Nat} (hn : n < 256) (h : m < n) (u v : List UInt8) :
    UInt8.ofNat m :: u < UInt8.ofNat n :: v := by
  refine List.cons_lt_cons_iff.mpr (.inl ?_)
  rw [UInt8.lt_iff_toNat_lt, UInt8.toNat_ofNat', UInt8.toNat_ofNat']
  omega

/-- Lists whose first bytes do not descend are in the order of what is behind these, if they are in
order at all. -/
theorem cons_lt_of_le {m n : Nat} (hn : n < 256) (h : m ≤ n) {u v : List UInt8}
    (hrest : m = n → u < v) : UInt8.ofNat m :: u < UInt8.ofNat n :: v := by
  rcases Nat.lt_or_eq_of_le h with hlt | rfl
  · exact cons_lt_of_lt hn hlt u v
  · exact List.cons_lt_cons_iff.mpr (.inr ⟨rfl, hrest rfl⟩)

theorem toNat_lt (c : Char) : c.val.toNat < 0x110000 := by
  have := c.valid
  unfold UInt32.isValidChar Nat.isValidChar at this
  omega

/-- A larger character has larger bytes, whatever stands behind it. -/
theorem encodeChar_lt {c d : Char} (h : c < d) (u v : List UInt8) :
    String.utf8EncodeChar c ++ u < String.utf8EncodeChar d ++ v := by
  have hcd : c.val.toNat < d.val.toNat := h
  have hd := toNat_lt d
  unfold String.utf8EncodeChar
  dsimp only
  generalize c.val.toNat = m at *
  generalize d.val.toNat = n at *
  -- by the number of bytes of the one, and then of the other, which has no fewer
  split
  · repeat' split
    all_goals exact cons_lt_of_lt (by omega) (by omega) _ _
  · split
    · rw [if_neg (by omega)]
      split
      · exact cons_lt_of_le (by omega) (by omega) fun _ => cons_lt_of_lt (by omega) (by omega) _ _
      · split <;> exact cons_lt_of_lt (by omega) (by omega) _ _
    · split
      · rw [if_neg (by omega), if_neg (by omega)]
        split
        · exact cons_lt_of_le (by omega) (by omega) fun _ =>
            cons_lt_of_le (by omega) (by omega) fun _ => cons_lt_of_lt (by omega) (by omega) _ _
        · exact cons_lt_of_lt (by omega) (by omega) _ _
      · rw [if_neg (by omega), if_neg (by omega), if_neg (by omega)]
        exact cons_lt_of_le (by omega) (by omega) fun _ =>
          cons_lt_of_le (by omega) (by omega) fun _ =>
            cons_lt_of_le (by omega) (by omega) fun _ => cons_lt_of_lt (by omega) (by omega) _ _

/-- **Texts in order have their bytes in order.** -/
theorem encoding_lt {s t : String} (h : s < t) : encoding s < encoding t := by
  rw [String.lt_iff_toList_lt] at h
  rw [encoding_eq, encoding_eq]
  generalize s.toList = s at *
  generalize t.toList = t at *
  induction s generalizing t with
  | nil =>
      cases t with
      | nil => cases h
      | cons d t =>
          rw [List.flatMap_nil, List.flatMap_cons]
          cases hd : String.utf8EncodeChar d with
          | nil =>
              have hlength := String.length_utf8EncodeChar d
              have hpos := d.utf8Size_pos
              rw [hd, List.length_nil] at hlength
              omega
          | cons b bs => exact List.nil_lt_cons b _
  | cons c s ih =>
      cases t with
      | nil => cases h
      | cons d t =>
          rw [List.flatMap_cons, List.flatMap_cons]
          rcases List.cons_lt_cons_iff.mp h with hcd | ⟨rfl, hst⟩
          · exact encodeChar_lt hcd _ _
          · exact List.append_left_lt (ih t hst)

end Reckoner.Text
