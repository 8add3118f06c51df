import Mathlib.Data.List.Forall2
import Mathlib.Data.List.Nodup
import Reckoner.Conversion.Rule

/-!
# Conversion — which rule is found

A unit is known by its spellings, in capital or small ASCII letters (`CaseVariant`).  No spelling
of a unit is one of another unit, so that a text is written for one unit at most
(`ConversionRule.eq_of_isWritten`) and at most one rule leads from one text to another
(`ConversionRule.eq_of_leads`).  Every rule has one back, and no rule leads from a unit to itself.
These are facts on the entries of the table, checked entry by entry; what follows from them holds
of all texts.

**Finding a rule is unambiguous, symmetric, blind to case, and does not chain**
(`ConversionRule.find?_by_spellings`).
-/

namespace Reckoner

/-! ### Letters -/

/-- One character, or the capital and the small form of one ASCII letter. -/
def SameLetter (c d : Char) : Prop :=
  c = d ∨ ∃ n < 26, (c.toNat = 'A'.toNat + n ∧ d.toNat = 'a'.toNat + n) ∨
    (c.toNat = 'a'.toNat + n ∧ d.toNat = 'A'.toNat + n)

/-- Texts that differ at most in the case of ASCII letters. -/
def CaseVariant (a b : String) : Prop :=
  List.Forall₂ SameLetter a.toList b.toList

theorem toNat_toLower (c : Char) :
    c.toLower.toNat = if 65 ≤ c.toNat ∧ c.toNat ≤ 90 then c.toNat + 32 else c.toNat := by
  have hcapital : (c.val ≥ 'A'.val ∧ c.val ≤ 'Z'.val) ↔ (65 ≤ c.toNat ∧ c.toNat ≤ 90) := Iff.rfl
  unfold Char.toLower
  by_cases h : 65 ≤ c.toNat ∧ c.toNat ≤ 90
  · rw [dif_pos (hcapital.mpr h), if_pos h]
    have hadd : (c.val + ('a'.val - 'A'.val)).toNat = (c.toNat + 32) % 2 ^ 32 :=
      UInt32.toNat_add _ _
    rw [Nat.mod_eq_of_lt (by omega)] at hadd
    exact hadd
  · rw [dif_neg (mt hcapital.mp h), if_neg h]

/-- Small forms are the same for two forms of one letter, and only for them. -/
theorem toLower_eq_iff {c d : Char} : c.toLower = d.toLower ↔ SameLetter c d := by
  have hcapital : 'A'.toNat = 65 := rfl
  have hsmall : 'a'.toNat = 97 := rfl
  rw [← Char.toNat_inj, toNat_toLower, toNat_toLower, SameLetter, ← Char.toNat_inj, hcapital,
    hsmall]
  constructor
  · intro h
    split at h <;> split at h
    · exact .inl (by omega)
    · exact .inr ⟨c.toNat - 65, by omega, .inl (by omega)⟩
    · exact .inr ⟨d.toNat - 65, by omega, .inr (by omega)⟩
    · exact .inl h
  · rintro (h | ⟨n, hn, ⟨hc, hd⟩ | ⟨hc, hd⟩⟩)
    · rw [h]
    · rw [if_pos (by omega), if_neg (by omega)]
      omega
    · rw [if_neg (by omega), if_pos (by omega)]
      omega

/-- Case variants are the texts with one small form. -/
theorem caseVariant_iff {a b : String} :
    CaseVariant a b ↔ a.toList.map Char.toLower = b.toList.map Char.toLower := by
  rw [← List.forall₂_eq_eq_eq, List.forall₂_map_left_iff, List.forall₂_map_right_iff, CaseVariant]
  simp only [toLower_eq_iff]

instance (a b : String) : Decidable (CaseVariant a b) :=
  decidable_of_iff _ caseVariant_iff.symm

namespace MeasureUnit

/-- Texts are compared but for the case of their letters. -/
theorem sameLetters_iff {a b : String} : sameLetters a b = true ↔ CaseVariant a b := by
  rw [sameLetters, beq_iff_eq, caseVariant_iff]

/-- A unit is written by the case variants of its spellings. -/
theorem isWritten_iff {u : MeasureUnit} {text : String} :
    u.isWritten text = true ↔ ∃ spelling ∈ u.spellings, CaseVariant spelling text := by
  simp only [isWritten, List.any_eq_true, sameLetters_iff]

/-- The case of letters does not matter. -/
theorem isWritten_congr {text other : String} (h : CaseVariant text other) (u : MeasureUnit) :
    u.isWritten other = u.isWritten text := by
  rw [Bool.eq_iff_iff, isWritten_iff, isWritten_iff]
  simp only [caseVariant_iff] at h ⊢
  rw [h]

end MeasureUnit

/-! ### The table -/

namespace ConversionRule

/-- The units that rules lead from and to. -/
def units : List MeasureUnit :=
  all.flatMap fun rule => [rule.source, rule.target]

/-- `back` leads from where `rule` leads to, to where it leads from. -/
structure Reverses (back rule : ConversionRule) : Prop where
  source_eq : back.source = rule.target
  target_eq : back.target = rule.source

theorem source_mem_units {rule : ConversionRule} (h : rule ∈ all) : rule.source ∈ units :=
  List.mem_flatMap.mpr ⟨rule, h, by simp⟩

theorem target_mem_units {rule : ConversionRule} (h : rule ∈ all) : rule.target ∈ units :=
  List.mem_flatMap.mpr ⟨rule, h, by simp⟩

/-- **No two units have a spelling in common.** -/
theorem eq_of_isWritten {u v : MeasureUnit} (hu : u ∈ units) (hv : v ∈ units) {text : String}
    (h : u.isWritten text = true) (h' : v.isWritten text = true) : u = v := by
  have hspellings : ∀ u ∈ units, ∀ v ∈ units, ∀ a ∈ u.spellings, ∀ b ∈ v.spellings,
      MeasureUnit.sameLetters a b = true → u = v := by decide +kernel
  obtain ⟨a, ha, hat⟩ := MeasureUnit.isWritten_iff.mp h
  obtain ⟨b, hb, hbt⟩ := MeasureUnit.isWritten_iff.mp h'
  refine hspellings u hu v hv a ha b hb (MeasureUnit.sameLetters_iff.mpr ?_)
  rw [caseVariant_iff] at hat hbt ⊢
  rw [hat, hbt]

/-- Rules are known by the units between which they lead. -/
theorem eq_of_units {rule other : ConversionRule} (h : rule ∈ all) (h' : other ∈ all)
    (hsource : rule.source = other.source) (htarget : rule.target = other.target) :
    rule = other := by
  have hentries : ∀ r ∈ all, ∀ s ∈ all, r.source = s.source → r.target = s.target → r = s := by
    decide
  exact hentries rule h other h' hsource htarget

/-- **Every rule has one back**, for the same quantity. -/
theorem exists_reverses {rule : ConversionRule} (h : rule ∈ all) :
    ∃ back ∈ all, back.Reverses rule ∧ back.quantity = rule.quantity := by
  have hentries : ∀ r ∈ all, ∃ s ∈ all, (s.source = r.target ∧ s.target = r.source) ∧
      s.quantity = r.quantity := by
    decide
  obtain ⟨back, hmem, ⟨hsource, htarget⟩, hquantity⟩ := hentries rule h
  exact ⟨back, hmem, ⟨hsource, htarget⟩, hquantity⟩

/-- No rule leads from a unit to itself. -/
theorem source_ne_target {rule : ConversionRule} (h : rule ∈ all) : rule.source ≠ rule.target := by
  have hentries : ∀ r ∈ all, r.source ≠ r.target := by decide
  exact hentries rule h

/-- `u` is one of the units between which the rules for a quantity lead. -/
def Measures (u : MeasureUnit) (q : Quantity) : Prop :=
  ∃ rule ∈ all, rule.quantity = q ∧ (u = rule.source ∨ u = rule.target)

theorem Measures.mem_units {u : MeasureUnit} {q : Quantity} (h : Measures u q) : u ∈ units := by
  obtain ⟨rule, hrule, -, rfl | rfl⟩ := h
  · exact source_mem_units hrule
  · exact target_mem_units hrule

/-- **No unit is one of two quantities.** -/
theorem Measures.unique {u : MeasureUnit} {q q' : Quantity} (h : Measures u q)
    (h' : Measures u q') : q = q' := by
  have hentries : ∀ r ∈ all, ∀ s ∈ all, ∀ u ∈ [r.source, r.target], u ∈ [s.source, s.target] →
      r.quantity = s.quantity := by
    decide
  obtain ⟨r, hr, rfl, hur⟩ := h
  obtain ⟨s, hs, rfl, hus⟩ := h'
  exact hentries r hr s hs u (by simpa using hur) (by simpa using hus)

/-! ### Rules between texts -/

theorem leads_iff {rule : ConversionRule} {a b : String} :
    rule.leads a b = true ↔ rule.source.isWritten a = true ∧ rule.target.isWritten b = true :=
  Bool.and_eq_true_iff

/-- The rule back leads the other way. -/
theorem Reverses.leads_iff {back rule : ConversionRule} (h : back.Reverses rule) {a b : String} :
    back.leads b a = true ↔ rule.leads a b = true := by
  rw [ConversionRule.leads_iff, ConversionRule.leads_iff, h.source_eq, h.target_eq, and_comm]

/-- **At most one rule leads from one text to another.** -/
theorem eq_of_leads {rule other : ConversionRule} (h : rule ∈ all) (h' : other ∈ all)
    {a b : String} (hleads : rule.leads a b = true) (hleads' : other.leads a b = true) :
    rule = other := by
  obtain ⟨hsource, htarget⟩ := leads_iff.mp hleads
  obtain ⟨hsource', htarget'⟩ := leads_iff.mp hleads'
  exact eq_of_units h h'
    (eq_of_isWritten (source_mem_units h) (source_mem_units h') hsource hsource')
    (eq_of_isWritten (target_mem_units h) (target_mem_units h') htarget htarget')

/-- A rule is found exactly if it is there and leads the way, in whatever order rules stand. -/
theorem find?_perm_eq_some_iff {rules : List ConversionRule} (hperm : rules.Perm all)
    {a b : String} {rule : ConversionRule} :
    rules.find? (·.leads a b) = some rule ↔ rule ∈ all ∧ rule.leads a b = true := by
  constructor
  · intro h
    have hleads := List.find?_some (p := fun r : ConversionRule => r.leads a b) h
    exact ⟨hperm.mem_iff.mp (List.mem_of_find?_eq_some h), hleads⟩
  · rintro ⟨hmem, hleads⟩
    have hsome : (rules.find? (·.leads a b)).isSome = true :=
      List.find?_isSome.mpr ⟨rule, hperm.mem_iff.mpr hmem, hleads⟩
    obtain ⟨other, hother⟩ := Option.isSome_iff_exists.mp hsome
    have hleads' := List.find?_some (p := fun r : ConversionRule => r.leads a b) hother
    rw [hother, eq_of_leads hmem (hperm.mem_iff.mp (List.mem_of_find?_eq_some hother)) hleads
      hleads']

theorem find?_eq_some_iff {a b : String} {rule : ConversionRule} :
    find? a b = some rule ↔ rule ∈ all ∧ rule.leads a b = true :=
  find?_perm_eq_some_iff (List.Perm.refl _)

/-- The rule back leads from the second text to the first. -/
theorem find?_reverses {a b : String} {rule : ConversionRule} (h : find? a b = some rule) :
    ∃ back, find? b a = some back ∧ back.Reverses rule ∧ back.quantity = rule.quantity := by
  obtain ⟨hmem, hleads⟩ := find?_eq_some_iff.mp h
  obtain ⟨back, hback, hreverses, hquantity⟩ := exists_reverses hmem
  exact ⟨back, find?_eq_some_iff.mpr ⟨hback, hreverses.leads_iff.mpr hleads⟩, hreverses, hquantity⟩

/-- Where there is a rule, the texts are written for two units of its quantity. -/
theorem find?_measures {a b : String} {rule : ConversionRule} (h : find? a b = some rule)
    {u v : MeasureUnit} (hu : u ∈ units) (hv : v ∈ units) (ha : u.isWritten a = true)
    (hb : v.isWritten b = true) :
    u ≠ v ∧ Measures u rule.quantity ∧ Measures v rule.quantity := by
  obtain ⟨hmem, hleads⟩ := find?_eq_some_iff.mp h
  obtain ⟨hsource, htarget⟩ := leads_iff.mp hleads
  obtain rfl := eq_of_isWritten hu (source_mem_units hmem) ha hsource
  obtain rfl := eq_of_isWritten hv (target_mem_units hmem) hb htarget
  exact ⟨source_ne_target hmem, ⟨rule, hmem, rfl, .inl rfl⟩, ⟨rule, hmem, rfl, .inr rfl⟩⟩

/-- The short spellings of both units of a rule are listed for its quantity. -/
theorem short_mem_shortUnits {rule : ConversionRule} (h : rule ∈ all) :
    rule.source.short ∈ rule.quantity.shortUnits ∧
      rule.target.short ∈ rule.quantity.shortUnits := by
  have hsame : rule ∈ all.filter (·.quantity = rule.quantity) :=
    List.mem_filter.mpr ⟨h, by simp⟩
  constructor <;>
    exact List.mem_eraseDups.mpr (List.mem_flatMap.mpr ⟨rule, hsame, by simp⟩)

/-- A text is none of the spellings of a unit, whatever the case of its letters. -/
def Unlisted (text : String) : Prop :=
  ∀ u ∈ units, ∀ spelling ∈ u.spellings, ¬ CaseVariant spelling text

instance : DecidablePred Unlisted := fun text =>
  inferInstanceAs (Decidable (∀ u ∈ units, ∀ spelling ∈ u.spellings, ¬ CaseVariant spelling text))

/-- What is not listed is written for no unit. -/
theorem Unlisted.isWritten_eq_false {text : String} (h : Unlisted text) {u : MeasureUnit}
    (hu : u ∈ units) : u.isWritten text = false := by
  rw [Bool.eq_false_iff, ne_eq, MeasureUnit.isWritten_iff]
  rintro ⟨spelling, hmem, hvariant⟩
  exact h u hu spelling hmem hvariant

theorem find?_eq_none_of_unlisted {a b : String} (h : Unlisted a ∨ Unlisted b) :
    find? a b = none := by
  cases hfind : find? a b with
  | none => rfl
  | some rule =>
      obtain ⟨hmem, hleads⟩ := find?_eq_some_iff.mp hfind
      obtain ⟨hsource, htarget⟩ := leads_iff.mp hleads
      rcases h with ha | hb
      · rw [ha.isWritten_eq_false (source_mem_units hmem)] at hsource
        cases hsource
      · rw [hb.isWritten_eq_false (target_mem_units hmem)] at htarget
        cases htarget

/-- A value is converted by the rule that is found; where there is none, the failure names both
texts. -/
theorem convert_cases (x : Float) (a b : String) :
    (∃ rule, find? a b = some rule ∧
      Reckoner.convert x a b = .ok ⟨rule.convert x, rule.describe x⟩) ∨
    (find? a b = none ∧ Reckoner.convert x a b = .error (.unsupportedConversion a b)) := by
  unfold Reckoner.convert
  cases find? a b with
  | none => exact .inr ⟨rfl, rfl⟩
  | some rule => exact .inl ⟨rule, rfl, rfl⟩

/-- **Finding a rule is unambiguous, symmetric, blind to case, and does not chain.**  For any two
texts:

* no two entries of the table lead from the first to the second, and none of its orders matters;
* nor does the case of ASCII letters, and what is not listed in any case has no rule;
* there is a rule exactly if there is one back, which is for the same quantity and between the same
  units;
* there is none between two spellings of a unit, nor between units of two quantities;
* a value is converted by the rule that is found, whose units are both listed for its quantity, and
  where none is found the failure names the two texts as they are. -/
theorem find?_by_spellings (a b : String) :
    (all.Pairwise fun rule other => ¬ (rule.leads a b = true ∧ other.leads a b = true)) ∧
    (∀ rules : List ConversionRule, rules.Perm all → rules.find? (·.leads a b) = find? a b) ∧
    (∀ a' b', CaseVariant a a' → CaseVariant b b' → find? a' b' = find? a b) ∧
    (Unlisted a ∨ Unlisted b → find? a b = none) ∧
    ((∃ rule, find? a b = some rule) ↔ ∃ back, find? b a = some back) ∧
    (∀ rule back, find? a b = some rule → find? b a = some back →
      back.Reverses rule ∧ back.quantity = rule.quantity) ∧
    (∀ u ∈ units, u.isWritten a = true → u.isWritten b = true → find? a b = none) ∧
    (∀ u v q q', Measures u q → Measures v q' → q ≠ q' → u.isWritten a = true →
      v.isWritten b = true → find? a b = none) ∧
    ∀ x : Float,
      (∃ rule, find? a b = some rule ∧
        Reckoner.convert x a b = .ok ⟨rule.convert x, rule.describe x⟩ ∧
        rule.source.short ∈ rule.quantity.shortUnits ∧
        rule.target.short ∈ rule.quantity.shortUnits) ∨
      (find? a b = none ∧ Reckoner.convert x a b = .error (.unsupportedConversion a b)) := by
  refine ⟨?_, fun rules hperm => ?_, fun a' b' ha hb => ?_, find?_eq_none_of_unlisted, ?_,
    fun rule back h hback => ?_, fun u hu ha hb => ?_, fun u v q q' hu hv hne ha hb => ?_,
    fun x => ?_⟩
  · have hnodup : all.Nodup := by decide
    exact hnodup.imp_of_mem fun h h' hne hleads => hne (eq_of_leads h h' hleads.1 hleads.2)
  · exact Option.ext fun rule => by rw [find?_perm_eq_some_iff hperm, find?_eq_some_iff]
  · refine Option.ext fun rule => ?_
    rw [find?_eq_some_iff, find?_eq_some_iff, leads_iff, leads_iff,
      MeasureUnit.isWritten_congr ha, MeasureUnit.isWritten_congr hb]
  · constructor
    · rintro ⟨rule, h⟩
      obtain ⟨back, hback, -⟩ := find?_reverses h
      exact ⟨back, hback⟩
    · rintro ⟨back, h⟩
      obtain ⟨rule, hrule, -⟩ := find?_reverses h
      exact ⟨rule, hrule⟩
  · obtain ⟨other, hother, hreverses⟩ := find?_reverses h
    rw [hback] at hother
    cases hother
    exact hreverses
  · by_contra hsome
    obtain ⟨rule, h⟩ := Option.ne_none_iff_exists'.mp hsome
    exact (find?_measures h hu hu ha hb).1 rfl
  · by_contra hsome
    obtain ⟨rule, h⟩ := Option.ne_none_iff_exists'.mp hsome
    obtain ⟨-, hu', hv'⟩ := find?_measures h hu.mem_units hv.mem_units ha hb
    exact hne ((hu.unique hu').trans (hv'.unique hv))
  · refine (convert_cases x a b).imp_left ?_
    rintro ⟨rule, h, hconvert⟩
    exact ⟨rule, h, hconvert, short_mem_shortUnits (find?_eq_some_iff.mp h).1⟩

/-- A blank in front of a letter, and the sign of the kelvin, which is no letter. -/
example : Unlisted " C" ∧ Unlisted "\u212A" := by decide +kernel

/-- Miles and kilometers, in mixed letters: the rule and the one back. -/
theorem find?_miles_kilometers :
    ∃ rule back, find? "Miles" "kM" = some rule ∧ find? "kM" "Miles" = some back ∧
      back.Reverses rule ∧ back.quantity = rule.quantity ∧
      CaseVariant "Miles" "mILES" ∧ CaseVariant "kM" "KM" ∧
      find? "mILES" "KM" = find? "Miles" "kM" := by
  have hmiles : CaseVariant "Miles" "mILES" := by decide +kernel
  have hkilometers : CaseVariant "kM" "KM" := by decide +kernel
  obtain ⟨-, -, hcase, -, -, hback, -⟩ := find?_by_spellings "Miles" "kM"
  obtain ⟨rule, hrule⟩ : ∃ rule, find? "Miles" "kM" = some rule :=
    Option.isSome_iff_exists.mp (by decide +kernel)
  obtain ⟨back, hrule'⟩ : ∃ back, find? "kM" "Miles" = some back :=
    Option.isSome_iff_exists.mp (by decide +kernel)
  obtain ⟨hreverses, hquantity⟩ := hback rule back hrule hrule'
  exact ⟨rule, back, hrule, hrule', hreverses, hquantity, hmiles, hkilometers,
    hcase _ _ hmiles hkilometers⟩

end ConversionRule

end Reckoner
