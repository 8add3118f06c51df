import Mathlib.Data.List.TakeWhile
import Mathlib.Tactic.IntervalCases
import Reckoner.Proofs.Json.Numerals

/-!
# Json — written values are read back

A text `Spells` a value if the value is read off wherever the text stands, with blanks in front of
it and with something behind it that no number goes on with; of what is left there, only blanks are
lost.  Words, texts between quotation marks and numbers that are read back by themselves are spelled
by what is written for them, and from the items of an array and the members of an object this
carries over to the whole, whatever blanks stand between the parts (`Spacing.Blank`).

Reading puts the members of an object in order, and of repeated members the last one counts
(`Json.normal`).  But for that, **a written value is read back** (`Json.read_write`), if there is
room for the nesting in it and every number in it is read back by itself (`Json.Faithful`).
-/

namespace Reckoner.Json

/-! ### Blanks -/

theorem skipSpace_append {b : List Char} (hb : ∀ c ∈ b, isSpace c = true) (s : List Char) :
    skipSpace (b ++ s) = skipSpace s :=
  List.dropWhile_append_of_pos hb

theorem skipSpace_cons (c : Char) (s : List Char) :
    skipSpace (c :: s) = if isSpace c then skipSpace s else c :: s :=
  List.dropWhile_cons

theorem skipSpace_skipSpace (s : List Char) : skipSpace (skipSpace s) = skipSpace s := by
  induction s with
  | nil => rfl
  | cons c s ih =>
      rw [skipSpace_cons]
      split
      · exact ih
      · rw [skipSpace_cons, if_neg ‹_›]

theorem skipSpace_append_of_eq_cons {s rest : List Char} {c : Char} (h : skipSpace s = c :: rest)
    (t : List Char) : skipSpace (s ++ t) = c :: (rest ++ t) := by
  induction s with
  | nil => cases h
  | cons d s ih =>
      rw [skipSpace_cons] at h
      rw [List.cons_append, skipSpace_cons]
      split at h
      · rw [if_pos ‹_›, ih h]
      · rw [if_neg ‹_›, ← List.cons_append, h, List.cons_append]

/-! ### Characters -/

theorem escape_of_control : ∀ n < 0x20, ∃ body, escaped (Char.ofNat n) = '\\' :: body ∧
    ∀ s, escape (body ++ s) = .ok (Char.ofNat n, s) := by
  intro n hn
  -- seven controls have letters of their own and the others are spelled by their codes
  interval_cases n <;> exact ⟨_, rfl, fun _ => rfl⟩

theorem escaped_of_ne {c : Char} (hmark : c ≠ '"') (hslash : c ≠ '\\') (hc : ¬c.toNat < 0x20) :
    escaped c = [c] := by
  unfold escaped
  split
  all_goals first
    | contradiction
    | exact absurd (by decide) hc
    | rw [if_neg (by omega), if_neg hc]

theorem chars_backslash (done : List Char) {s rest : List Char} {c : Char}
    (h : escape s = .ok (c, rest)) : chars done ('\\' :: s) = chars (c :: done) rest := by
  rw [chars]
  split
  · rename_i he
    rw [h] at he
    cases he
  · rename_i he
    rw [h] at he
    cases he
    rfl

/-- **An escaped character is read as itself.** -/
theorem chars_escaped (done : List Char) (c : Char) (s : List Char) :
    chars done (escaped c ++ s) = chars (c :: done) s := by
  by_cases hcontrol : c.toNat < 0x20
  · obtain ⟨body, hbody, hescape⟩ := escape_of_control c.toNat hcontrol
    rw [Char.ofNat_toNat] at hbody hescape
    rw [hbody, List.cons_append, chars_backslash done (hescape s)]
  · by_cases hmark : c = '"'
    · subst hmark
      exact chars_backslash done rfl
    · by_cases hslash : c = '\\'
      · subst hslash
        exact chars_backslash done rfl
      · rw [escaped_of_ne hmark hslash hcontrol, List.singleton_append, chars, if_neg hcontrol]
        · exact hmark
        · exact hslash

/-- **What stands between quotation marks is read as it was written.** -/
theorem chars_flatMap_escaped (done s t : List Char) :
    chars done (s.flatMap escaped ++ '"' :: t) = .ok (String.ofList (done.reverse ++ s), t) := by
  induction s generalizing done with
  | nil => rw [List.flatMap_nil, List.nil_append, chars, List.append_nil]
  | cons c s ih =>
      rw [List.flatMap_cons, List.append_assoc, chars_escaped, ih, List.reverse_cons,
        List.append_assoc, List.singleton_append]

/-! ### Values off the front of a text -/

/-- A value is read off the front of `s`, with `room` for nesting in it, and `rest` is left. -/
def ReadsOff (room : Nat) (s : List Char) (j : Json) (rest : List Char) : Prop :=
  ∃ h, value room s = .ok ⟨j, rest, h⟩

/-- The items of an array are read up to its end, wherever the array began. -/
def ReadsItems (room : Nat) (first : Bool) (done : List Json) (s : List Char) (all : List Json)
    (rest : List Char) : Prop :=
  ∀ (start : List Char) (hs : s.length ≤ start.length),
    ∃ h, @items room first done start s hs = .ok ⟨all, rest, h⟩

/-- The members of an object are read up to its end, wherever the object began. -/
def ReadsMembers (room : Nat) (first : Bool) (done : NameMap Json) (s : List Char)
    (all : NameMap Json) (rest : List Char) : Prop :=
  ∀ (start : List Char) (hs : s.length ≤ start.length),
    ∃ h, @members room first done start s hs = .ok ⟨all, rest, h⟩

/-- Something is in front, and it does not close an array. -/
def Opens (s : List Char) : Prop :=
  ∃ c r, skipSpace s = c :: r ∧ c ≠ ']'

section

variable {room : Nat} {s rest : List Char}

theorem value_of_front {c : Char} {r : List Char} (hs : skipSpace s = c :: r) (harray : c ≠ '[')
    (hobject : c ≠ '\x7b') : value room s = simpleValue c r (length_lt_of_skipSpace hs) := by
  rw [value]
  split
  case h_1 h => cases hs.symm.trans h
  case h_2 h => exact absurd (List.cons.inj (hs.symm.trans h)).1 harray
  case h_3 h => exact absurd (List.cons.inj (hs.symm.trans h)).1 hobject
  case h_4 h =>
    cases hs.symm.trans h
    rfl

theorem readsOff_array {r : List Char} {all : List Json} (hs : skipSpace s = '[' :: r)
    (h : ReadsItems room true [] r all rest) : ReadsOff (room + 1) s (.array all) rest := by
  obtain ⟨hlt, hall⟩ := h r (Nat.le_refl r.length)
  refine ⟨Nat.lt_trans hlt (length_lt_of_skipSpace hs), ?_⟩
  rw [value]
  split
  case h_2 h =>
    cases hs.symm.trans h
    simp only [hall]
  case h_4 harray _ h => exact absurd (List.cons.inj (hs.symm.trans h)).1.symm harray
  all_goals cases hs.symm.trans ‹_›

theorem readsOff_object {r : List Char} {all : NameMap Json} (hs : skipSpace s = '\x7b' :: r)
    (h : ReadsMembers room true [] r all rest) : ReadsOff (room + 1) s (.object all) rest := by
  obtain ⟨hlt, hall⟩ := h r (Nat.le_refl r.length)
  refine ⟨Nat.lt_trans hlt (length_lt_of_skipSpace hs), ?_⟩
  rw [value]
  split
  case h_3 h =>
    cases hs.symm.trans h
    simp only [hall]
  case h_4 hobject h => exact absurd (List.cons.inj (hs.symm.trans h)).1.symm hobject
  all_goals cases hs.symm.trans ‹_›

/-- No value begins with the bracket that closes an array. -/
theorem ReadsOff.opens {j : Json} (h : ReadsOff room s j rest) : Opens s := by
  obtain ⟨hlt, h⟩ := h
  cases hs : skipSpace s with
  | nil =>
      rw [value] at h
      split at h
      · cases h
      all_goals cases hs.symm.trans ‹_›
  | cons c r =>
      refine ⟨c, r, hs, ?_⟩
      rintro rfl
      rw [value_of_front hs (by decide) (by decide)] at h
      cases h

/-! ### Items and members -/

theorem nextItem_true (h : Opens s) : nextItem true s = .ok (.part (skipSpace s)) := by
  obtain ⟨c, r, hs, hc⟩ := h
  unfold nextItem
  rw [hs]
  split
  case h_2 h => exact absurd (List.cons.inj h).1 hc
  all_goals cases ‹c :: r = _›
  rfl

theorem nextItem_false {r : List Char} (hs : skipSpace s = ',' :: r) (h : Opens r) :
    nextItem false s = .ok (.part (skipSpace r)) := by
  obtain ⟨c, r', hr, hc⟩ := h
  unfold nextItem
  split
  case h_3 h =>
    cases hs.symm.trans h
    rw [if_neg (by decide), if_neg (by decide)]
    split
    case h_1 h => cases hr.symm.trans h
    case h_2 h => exact absurd (List.cons.inj (hr.symm.trans h)).1 hc
    case h_3 => rfl
  all_goals cases hs.symm.trans ‹_›

theorem nextItem_closed (first : Bool) (hs : skipSpace s = ']' :: rest) :
    nextItem first s = .ok (.closed rest) := by
  unfold nextItem
  split
  case h_2 h =>
    cases hs.symm.trans h
    rfl
  case h_3 hc h => exact absurd (List.cons.inj (hs.symm.trans h)).1.symm hc
  case h_1 h => cases hs.symm.trans h

theorem nextMember_true {r : List Char} (hs : skipSpace s = '"' :: r) :
    nextMember true s = .ok (.part r) := by
  unfold nextMember
  split
  case h_3 h =>
    cases hs.symm.trans h
    rfl
  all_goals cases hs.symm.trans ‹_›

theorem nextMember_false {r r' : List Char} (hs : skipSpace s = ',' :: r)
    (hr : skipSpace r = '"' :: r') : nextMember false s = .ok (.part r') := by
  unfold nextMember
  split
  case h_3 h =>
    cases hs.symm.trans h
    rw [if_neg (by decide), if_neg (by decide)]
    split
    case h_2 h =>
      cases hr.symm.trans h
      rfl
    case h_4 _ hmark _ => exact absurd hr (hmark r')
    all_goals cases hr.symm.trans ‹_›
  all_goals cases hs.symm.trans ‹_›

theorem nextMember_closed (first : Bool) (hs : skipSpace s = '\x7d' :: rest) :
    nextMember first s = .ok (.closed rest) := by
  unfold nextMember
  split
  case h_2 h =>
    cases hs.symm.trans h
    rfl
  case h_3 hc h => exact absurd (List.cons.inj (hs.symm.trans h)).1.symm hc
  case h_1 h => cases hs.symm.trans h

theorem memberName_quoted (name : String) {t : List Char} (ht : skipSpace t = ':' :: rest) :
    memberName (name.toList.flatMap escaped ++ '"' :: t) = .ok (name, rest) := by
  unfold memberName
  rw [chars_flatMap_escaped, List.reverse_nil, List.nil_append, String.ofList_toList]
  unfold afterColon
  dsimp only
  split
  case h_2 h =>
    cases ht.symm.trans h
    rfl
  case h_3 _ hcolon => exact absurd ht (hcolon rest)
  case h_1 h => cases ht.symm.trans h

theorem readsItems_closed {first : Bool} {done : List Json}
    (h : nextItem first s = .ok (.closed rest)) :
    ReadsItems room first done s done.reverse rest := by
  intro start hs
  refine ⟨Nat.lt_of_lt_of_le (length_of_nextItem h) hs, ?_⟩
  rw [items]
  split
  case h_2 h' =>
    cases h.symm.trans h'
    rfl
  all_goals cases h.symm.trans ‹_›

theorem readsItems_part {first : Bool} {done all : List Json} {item : Json} {part after : List Char}
    (h : nextItem first s = .ok (.part part)) (hitem : ReadsOff room part item after)
    (hrest : ReadsItems room false (item :: done) after all rest) :
    ReadsItems room first done s all rest := by
  intro start hs
  obtain ⟨hlt, hvalue⟩ := hitem
  have hpart : part.length ≤ s.length := length_of_nextItem h
  obtain ⟨hshorter, hall⟩ := hrest start (Nat.le_trans (Nat.le_of_lt hlt) (Nat.le_trans hpart hs))
  refine ⟨hshorter, ?_⟩
  rw [items]
  split
  case h_3 h' =>
    cases h.symm.trans h'
    simp only [hvalue]
    exact hall
  all_goals cases h.symm.trans ‹_›

theorem readsMembers_closed {first : Bool} {done : NameMap Json}
    (h : nextMember first s = .ok (.closed rest)) : ReadsMembers room first done s done rest := by
  intro start hs
  refine ⟨Nat.lt_of_lt_of_le (length_of_nextMember h) hs, ?_⟩
  rw [members]
  split
  case h_2 h' =>
    cases h.symm.trans h'
    rfl
  all_goals cases h.symm.trans ‹_›

theorem readsMembers_part {first : Bool} {done all : NameMap Json} {name : String} {member : Json}
    {part behind after : List Char} (h : nextMember first s = .ok (.part part))
    (hname : memberName part = .ok (name, behind)) (hmember : ReadsOff room behind member after)
    (hrest : ReadsMembers room false (done.insert name member) after all rest) :
    ReadsMembers room first done s all rest := by
  intro start hs
  obtain ⟨hlt, hvalue⟩ := hmember
  have hpart : part.length < s.length := length_of_nextMember h
  have hbehind := length_lt_of_memberName hname
  obtain ⟨hshorter, hall⟩ := hrest start (by omega)
  refine ⟨hshorter, ?_⟩
  rw [members]
  split
  case h_3 h' =>
    cases h.symm.trans h'
    dsimp only
    split
    case h_1 h' => cases hname.symm.trans h'
    case h_2 h' =>
      cases hname.symm.trans h'
      simp only [hvalue]
      exact hall
  all_goals cases h.symm.trans ‹_›

/-! ### Values without parts -/

theorem wordValue_iff {letters : List Char} {word j : Json} {r : List Char}
    (hr : r.length < s.length) : (∃ h, wordValue letters word r hr = .ok ⟨j, rest, h⟩) ↔
      j = word ∧ afterWord letters r = .ok rest := by
  unfold wordValue
  split
  case h_1 h => simp [h]
  case h_2 h =>
    constructor
    · rintro ⟨_, ⟨⟩⟩
      exact ⟨rfl, h⟩
    · rintro ⟨rfl, h'⟩
      cases h.symm.trans h'
      exact ⟨Nat.lt_of_le_of_lt (length_le_of_afterWord h') hr, rfl⟩

theorem numberValue_iff {negative : Bool} {j : Json} {r : List Char} (hr : r.length ≤ s.length) :
    (∃ h, numberValue negative r hr = .ok ⟨j, rest, h⟩) ↔
      ∃ n, j = .number n ∧ unsigned negative r = .ok (n, rest) := by
  unfold numberValue
  split
  case h_1 h => simp [h]
  case h_2 h =>
    constructor
    · rintro ⟨_, ⟨⟩⟩
      exact ⟨_, rfl, h⟩
    · rintro ⟨n, rfl, h'⟩
      cases h.symm.trans h'
      exact ⟨Nat.lt_of_lt_of_le (length_lt_of_unsigned h') hr, rfl⟩

theorem textValue_iff {j : Json} {r : List Char} (hr : r.length < s.length) :
    (∃ h, textValue r hr = .ok ⟨j, rest, h⟩) ↔
      ∃ text, j = .string text ∧ chars [] r = .ok (text, rest) := by
  unfold textValue
  split
  case h_1 h => simp [h]
  case h_2 h =>
    constructor
    · rintro ⟨_, ⟨⟩⟩
      exact ⟨_, rfl, h⟩
    · rintro ⟨text, rfl, h'⟩
      cases h.symm.trans h'
      exact ⟨Nat.lt_trans (length_lt_of_chars h') hr, rfl⟩

/-- How a number is read off: behind its sign, or from its first digit on. -/
theorem simpleValue_eq_number_iff {c : Char} {r : List Char} {n : JsonNumber}
    (hr : r.length < s.length) : (∃ h, simpleValue c r hr = .ok ⟨.number n, rest, h⟩) ↔
      if c = '-' then unsigned true r = .ok (n, rest)
      else c.isDigit = true ∧ unsigned false (c :: r) = .ok (n, rest) := by
  unfold simpleValue
  split
  case h_1 | h_2 | h_3 => simp [wordValue_iff]
  case h_4 => simp [textValue_iff]
  case h_5 => simp [numberValue_iff]
  case h_6 hminus =>
    rw [if_neg hminus]
    split
    case isTrue hdigit => simp [numberValue_iff, hdigit]
    case isFalse hdigit => simp [hdigit]

end

/-! ### What a text spells -/

/-- A text spells a value: wherever it stands, the value is read off, as long as no number goes on
behind it. -/
def Spells (room : Nat) (w : List Char) (j : Json) : Prop :=
  ∀ s t, Ends t → skipSpace s = skipSpace (w ++ t) →
    ∃ rest, ReadsOff room s j rest ∧ skipSpace rest = skipSpace t

section

variable {room : Nat}

/-- A value that stands behind blanks is read off without them. -/
theorem Spells.readsOff_skipSpace {w s t : List Char} {j : Json} (h : Spells room w j)
    (hs : skipSpace s = skipSpace (w ++ t)) (ht : Ends t) :
    ∃ rest, ReadsOff room (skipSpace s) j rest ∧ skipSpace rest = skipSpace t ∧ Opens s := by
  obtain ⟨rest, hread, hrest⟩ := h (skipSpace s) t ht (by rw [skipSpace_skipSpace, hs])
  obtain ⟨c, r, hfront, hc⟩ := hread.opens
  rw [skipSpace_skipSpace] at hfront
  exact ⟨rest, hread, hrest, c, r, hfront, hc⟩

theorem afterWord_append (letters t : List Char) : afterWord letters (letters ++ t) = .ok t := by
  induction letters with
  | nil => rfl
  | cons letter letters ih => rw [List.cons_append, afterWord, if_pos rfl, ih]

theorem spells_word {c : Char} {letters : List Char} {word : Json}
    (hc : isSpace c = false ∧ c ≠ '[' ∧ c ≠ '\x7b')
    (hword : ∀ {s : List Char} (r : List Char) (hr : r.length < s.length),
      simpleValue c r hr = wordValue letters word r hr) : Spells room (c :: letters) word := by
  intro s t _ hs
  rw [List.cons_append, skipSpace_cons, if_neg (by simp [hc.1])] at hs
  refine ⟨t, ?_, rfl⟩
  rw [ReadsOff, value_of_front hs hc.2.1 hc.2.2, hword, wordValue_iff]
  exact ⟨rfl, afterWord_append letters t⟩

theorem spells_string (text : String) : Spells room (quoted text).toList (.string text) := by
  intro s t _ hs
  rw [quoted, String.toList_ofList, List.cons_append, List.cons_append, List.append_assoc,
    List.singleton_append, skipSpace_cons, if_neg (by decide)] at hs
  refine ⟨t, ?_, rfl⟩
  rw [ReadsOff, value_of_front hs (by decide) (by decide), simpleValue, textValue_iff,
    chars_flatMap_escaped]
  exact ⟨text, rfl, by rw [List.reverse_nil, List.nil_append, String.ofList_toList]⟩

/-- Nothing but a number is read off as one. -/
theorem ReadsOff.number_front {s rest : List Char} {n : JsonNumber}
    (h : ReadsOff room s (.number n) rest) : ∃ c r, skipSpace s = c :: r ∧
      c ≠ '[' ∧ c ≠ '\x7b' ∧ if c = '-' then unsigned true r = .ok (n, rest)
        else c.isDigit = true ∧ unsigned false (c :: r) = .ok (n, rest) := by
  obtain ⟨hlt, h⟩ := h
  rw [value] at h
  split at h
  case h_1 => cases h
  case h_2 | h_3 =>
    dsimp only at h
    split at h
    · cases h
    · split at h <;> cases h
  case h_4 c r harray hobject hs =>
    exact ⟨c, r, hs, harray, hobject,
      (simpleValue_eq_number_iff (length_lt_of_skipSpace hs)).mp ⟨hlt, h⟩⟩

/-- A text is read as a value if that is read off and only blanks are left. -/
theorem read_eq_ok_iff {text : String} {j : Json} : read text = .ok j ↔
    ∃ rest, ReadsOff nestingRoom text.toList j rest ∧ skipSpace rest = [] := by
  unfold read readChars
  constructor
  · intro h
    split at h
    · cases h
    · rename_i hlt hvalue
      split at h
      · cases h
        exact ⟨_, ⟨hlt, hvalue⟩, ‹_›⟩
      · cases h
  · rintro ⟨rest, ⟨hlt, hvalue⟩, hrest⟩
    rw [hvalue]
    dsimp only
    rw [hrest]

/-- **A number that is read back by itself is read back wherever it stands.** -/
theorem spells_number {n : JsonNumber} (h : read n.text = .ok (.number n)) :
    Spells room n.text.toList (.number n) := by
  obtain ⟨rest, hreads, hrest⟩ := read_eq_ok_iff.mp h
  obtain ⟨c, r, hfront, harray, hobject, hread⟩ := hreads.number_front
  intro s t ht hs
  -- blanks may be left of the number's own text; with `t` behind them they are passed over
  rw [skipSpace_append_of_eq_cons hfront] at hs
  refine ⟨rest ++ t, ?_, skipSpace_append (List.dropWhile_eq_nil_iff.mp hrest) t⟩
  rw [ReadsOff, value_of_front hs harray hobject, simpleValue_eq_number_iff]
  split
  · rw [if_pos ‹_›] at hread
    exact unsigned_append ht hread
  · rw [if_neg ‹_›] at hread
    exact ⟨hread.1, unsigned_append ht hread.2⟩

/-- A text that is nothing but a number without a sign is read as that number. -/
theorem read_of_unsigned {text : String} {c : Char} {r : List Char} {n : JsonNumber}
    (htext : text.toList = c :: r) (hc : c.isDigit = true)
    (h : unsigned false (c :: r) = .ok (n, [])) : read text = .ok (.number n) := by
  have hne : ∀ d : Char, d.isDigit = false → c ≠ d := by
    rintro d hd rfl
    simp [hc] at hd
  have hblank : ¬ isSpace c = true := by
    intro hspace
    have hdigit := isDigit_eq_false_of_isEnd (show isEnd c = true by simp [isEnd, hspace])
    rw [hc] at hdigit
    cases hdigit
  have hfront : skipSpace text.toList = c :: r := by rw [htext, skipSpace_cons, if_neg hblank]
  refine read_eq_ok_iff.mpr ⟨[], ?_, rfl⟩
  rw [ReadsOff, value_of_front hfront (hne _ rfl) (hne _ rfl), simpleValue_eq_number_iff,
    if_neg (hne _ rfl)]
  exact ⟨hc, h⟩

end

/-! ### Values with parts -/

/-- A way of spacing that puts nothing but blanks between the parts. -/
structure Spacing.Blank (spacing : Spacing) : Prop where
  first : ∀ c ∈ spacing.first.toList, isSpace c = true
  further : ∃ blanks, spacing.further.toList = ',' :: blanks ∧ ∀ c ∈ blanks, isSpace c = true
  colon : ∃ blanks, spacing.colon.toList = ':' :: blanks ∧ ∀ c ∈ blanks, isSpace c = true
  last : ∀ c ∈ spacing.last.toList, isSpace c = true

theorem ends_blanks {b : List Char} (hb : ∀ c ∈ b, isSpace c = true) {c : Char}
    (hc : isEnd c = true) (s : List Char) : Ends (b ++ c :: s) := by
  cases b with
  | nil => exact .mark hc s
  | cons d b => exact .mark (by simp [isEnd, hb d List.mem_cons_self]) (b ++ c :: s)

mutual

/-- A value with the members of its objects in order; of repeated members the last one counts. -/
def normal : Json → Json
  | array items => array (normalItems items)
  | object members => object (normalMembers [] members)
  | j => j

/-- The items of an array, each in order. -/
def normalItems : List Json → List Json
  | [] => []
  | item :: items => item.normal :: normalItems items

/-- The members of an object, each in order, added to `done`. -/
def normalMembers (done : NameMap Json) : List (String × Json) → NameMap Json
  | [] => done
  | (name, member) :: members => normalMembers (done.insert name member.normal) members

end

theorem normalMembers_eq_foldl (done : NameMap Json) (members : List (String × Json)) :
    normalMembers done members = (members.map fun member => (member.1, member.2.normal)).foldl
      (fun m (name, value) => m.insert name value) done := by
  induction members generalizing done with
  | nil => rfl
  | cons member members ih => exact ih _

/-- The members of an object are put in order as where an object is made of them. -/
theorem normal_object (members : List (String × Json)) :
    (object members).normal =
      ofMembers (members.map fun member => (member.1, member.2.normal)) := by
  rw [normal, normalMembers_eq_foldl]
  rfl

/-- A value that can be read back: there is room for the nesting in it, and the numbers in it can
be read back. -/
inductive Faithful : Nat → Json → Prop where
  | null {room : Nat} : Faithful room .null
  | bool {room : Nat} (b : Bool) : Faithful room (.bool b)
  | string {room : Nat} (s : String) : Faithful room (.string s)
  | number {room : Nat} {n : JsonNumber} (h : read n.text = .ok (.number n)) :
      Faithful room (.number n)
  | array {room : Nat} {items : List Json} (h : ∀ item ∈ items, Faithful room item) :
      Faithful (room + 1) (.array items)
  | object {room : Nat} {members : List (String × Json)}
      (h : ∀ member ∈ members, Faithful room member.2) : Faithful (room + 1) (.object members)

/-- Behind anything, `write` puts a text that spells `j`. -/
def WritesSpelled (room : Nat) (write : String → String) (j : Json) : Prop :=
  ∃ w, (∀ out, (write out).toList = out.toList ++ w) ∧ Spells room w j

section

variable {style : Style} (hstyle : ∀ depth, (style depth).Blank) {room : Nat}

include hstyle

/-- The further items of an array, with what closes it. -/
theorem exists_items_spelled (depth : Nat) {items : List Json}
    (h : ∀ item ∈ items,
      WritesSpelled room (fun out => item.write style (depth + 1) out) item.normal) :
    ∃ w, (∀ out, (writeItems style depth out items).toList = out.toList ++ w) ∧
      (∀ t, Ends (w ++ t)) ∧
      ∀ done s t, skipSpace s = skipSpace (w ++ t) →
        ReadsItems room false done s (done.reverse ++ normalItems items) t := by
  -- what is written first is read first, so the items already read stay arbitrary
  induction items with
  | nil =>
      refine ⟨(style depth).last.toList ++ [']'], fun out => ?_, fun t => ?_, fun done s t hs => ?_⟩
      · rw [writeItems, String.toList_append, String.toList_append, List.append_assoc]
        rfl
      · rw [List.append_assoc]
        exact ends_blanks (hstyle depth).last rfl t
      · rw [List.append_assoc, skipSpace_append (hstyle depth).last] at hs
        rw [normalItems, List.append_nil]
        exact readsItems_closed (nextItem_closed false hs)
  | cons item items ih =>
      obtain ⟨w, hw, hspells⟩ := h item List.mem_cons_self
      obtain ⟨w', hw', hends, hrest⟩ := ih fun item hitem => h item (List.mem_cons_of_mem _ hitem)
      obtain ⟨blanks, hfurther, hblanks⟩ := (hstyle depth).further
      refine ⟨',' :: (blanks ++ (w ++ w')), fun out => ?_, fun t => .mark rfl _,
        fun done s t hs => ?_⟩
      · simp only [writeItems, hw', hw, String.toList_append, hfurther, List.append_assoc,
          List.cons_append]
      · simp only [List.cons_append, List.append_assoc] at hs
        obtain ⟨u, hitem, hu, hnext⟩ :=
          hspells.readsOff_skipSpace (skipSpace_append hblanks _) (hends t)
        have hitems := hrest (item.normal :: done) u t hu
        rw [List.reverse_cons, List.append_assoc, List.singleton_append] at hitems
        exact readsItems_part (nextItem_false hs hnext) hitem hitems

/-- The further members of an object, with what closes it. -/
theorem exists_members_spelled (depth : Nat) {members : List (String × Json)}
    (h : ∀ member ∈ members,
      WritesSpelled room (fun out => member.2.write style (depth + 1) out) member.2.normal) :
    ∃ w, (∀ out, (writeMembers style depth out members).toList = out.toList ++ w) ∧
      (∀ t, Ends (w ++ t)) ∧
      ∀ done s t, skipSpace s = skipSpace (w ++ t) →
        ReadsMembers room false done s (normalMembers done members) t := by
  induction members with
  | nil =>
      refine ⟨(style depth).last.toList ++ ['\x7d'], fun out => ?_, fun t => ?_,
        fun done s t hs => ?_⟩
      · rw [writeMembers, String.toList_append, String.toList_append, List.append_assoc]
        rfl
      · rw [List.append_assoc]
        exact ends_blanks (hstyle depth).last rfl t
      · rw [List.append_assoc, skipSpace_append (hstyle depth).last] at hs
        exact readsMembers_closed (nextMember_closed false hs)
  | cons member members ih =>
      obtain ⟨name, member⟩ := member
      obtain ⟨w, hw, hspells⟩ := h (name, member) List.mem_cons_self
      obtain ⟨w', hw', hends, hrest⟩ := ih fun m hm => h m (List.mem_cons_of_mem _ hm)
      obtain ⟨blanks, hfurther, hblanks⟩ := (hstyle depth).further
      obtain ⟨gap, hcolon, hgap⟩ := (hstyle depth).colon
      refine ⟨',' :: (blanks ++ '"' :: (name.toList.flatMap escaped ++ '"' :: ':' ::
        (gap ++ (w ++ w')))), fun out => ?_, fun t => .mark rfl _, fun done s t hs => ?_⟩
      · simp only [writeMembers, hw', hw, String.toList_append, hfurther, hcolon, quoted,
          String.toList_ofList, List.append_assoc, List.cons_append, List.nil_append]
      · simp only [List.cons_append, List.append_assoc] at hs
        obtain ⟨u, hmember, hu⟩ := hspells (gap ++ (w ++ (w' ++ t))) (w' ++ t) (hends t)
          (skipSpace_append hgap _)
        exact readsMembers_part (nextMember_false hs (skipSpace_append hblanks _))
          (memberName_quoted name rfl) hmember (hrest (done.insert name member.normal) u t hu)

/-- An array whose items are spelled is spelled. -/
theorem writesSpelled_array (depth : Nat) {items : List Json}
    (h : ∀ item ∈ items,
      WritesSpelled room (fun out => item.write style (depth + 1) out) item.normal) :
    WritesSpelled (room + 1) (fun out => (array items).write style depth out)
      (array items).normal := by
  cases items with
  | nil =>
      refine ⟨_, fun out => String.toList_append, fun s t _ hs => ⟨t, ?_, rfl⟩⟩
      exact readsOff_array hs (readsItems_closed (nextItem_closed true rfl))
  | cons item items =>
      obtain ⟨w, hw, hspells⟩ := h item List.mem_cons_self
      obtain ⟨w', hw', hends, hrest⟩ := exists_items_spelled hstyle depth
        fun item hitem => h item (List.mem_cons_of_mem _ hitem)
      refine ⟨'[' :: ((style depth).first.toList ++ (w ++ w')), fun out => ?_,
        fun s t _ hs => ⟨t, ?_, rfl⟩⟩
      · simp only [write, hw', hw, String.toList_append, List.append_assoc]
        rfl
      · simp only [List.cons_append, List.append_assoc] at hs
        obtain ⟨u, hitem, hu, hnext⟩ :=
          hspells.readsOff_skipSpace (skipSpace_append (hstyle depth).first _) (hends t)
        exact readsOff_array hs
          (readsItems_part (nextItem_true hnext) hitem (hrest [item.normal] u t hu))

/-- An object whose members are spelled is spelled. -/
theorem writesSpelled_object (depth : Nat) {members : List (String × Json)}
    (h : ∀ member ∈ members,
      WritesSpelled room (fun out => member.2.write style (depth + 1) out) member.2.normal) :
    WritesSpelled (room + 1) (fun out => (object members).write style depth out)
      (object members).normal := by
  cases members with
  | nil =>
      refine ⟨_, fun out => String.toList_append, fun s t _ hs => ⟨t, ?_, rfl⟩⟩
      exact readsOff_object hs (readsMembers_closed (nextMember_closed true rfl))
  | cons member members =>
      obtain ⟨name, member⟩ := member
      obtain ⟨w, hw, hspells⟩ := h (name, member) List.mem_cons_self
      obtain ⟨w', hw', hends, hrest⟩ := exists_members_spelled hstyle depth
        fun m hm => h m (List.mem_cons_of_mem _ hm)
      obtain ⟨gap, hcolon, hgap⟩ := (hstyle depth).colon
      refine ⟨'\x7b' :: ((style depth).first.toList ++ '"' :: (name.toList.flatMap escaped ++
        '"' :: ':' :: (gap ++ (w ++ w')))), fun out => ?_, fun s t _ hs => ⟨t, ?_, rfl⟩⟩
      · simp only [write, hw', hw, String.toList_append, hcolon, quoted, String.toList_ofList,
          List.append_assoc, List.cons_append, List.nil_append]
        rfl
      · simp only [List.cons_append, List.append_assoc] at hs
        obtain ⟨u, hmember, hu⟩ := hspells (gap ++ (w ++ (w' ++ t))) (w' ++ t) (hends t)
          (skipSpace_append hgap _)
        exact readsOff_object hs (readsMembers_part
          (nextMember_true (skipSpace_append (hstyle depth).first _))
          (memberName_quoted name rfl) hmember
          (hrest (NameMap.insert name member.normal []) u t hu))

theorem Faithful.writesSpelled {j : Json} (h : j.Faithful room) (depth : Nat) :
    WritesSpelled room (fun out => j.write style depth out) j.normal := by
  induction h generalizing depth with
  | null => exact ⟨_, fun out => String.toList_append, spells_word (by decide) fun _ _ => rfl⟩
  | bool b =>
      cases b with
      | true => exact ⟨_, fun out => String.toList_append, spells_word (by decide) fun _ _ => rfl⟩
      | false => exact ⟨_, fun out => String.toList_append, spells_word (by decide) fun _ _ => rfl⟩
  | string s => exact ⟨_, fun out => String.toList_append, spells_string s⟩
  | number h => exact ⟨_, fun out => String.toList_append, spells_number h⟩
  | array _ ih =>
      exact writesSpelled_array hstyle depth fun item hitem => ih item hitem (depth + 1)
  | object _ ih =>
      exact writesSpelled_object hstyle depth fun member hmem => ih member hmem (depth + 1)

/-- **A written value is read back**, with the members of its objects in order. -/
theorem read_write {j : Json} (h : j.Faithful nestingRoom) :
    read (j.write style 0 "") = .ok j.normal := by
  obtain ⟨w, hw, hspells⟩ := h.writesSpelled hstyle 0
  have htext := hw ""
  rw [String.toList_empty, List.nil_append] at htext
  exact read_eq_ok_iff.mpr (hspells _ [] .nothing (by rw [htext, List.append_nil]))

end

theorem compactStyle_blank (depth : Nat) : (compactStyle depth).Blank where
  first := by simp [compactStyle]
  further := ⟨[], by simp [compactStyle]⟩
  colon := ⟨[], by simp [compactStyle]⟩
  last := by simp [compactStyle]

end Reckoner.Json
