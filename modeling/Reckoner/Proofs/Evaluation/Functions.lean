import Reckoner.Catalogue
import Reckoner.Proofs.Numbers.Whole

/-!
# Evaluation — the functions on offer

No two functions have one name, so that every name that is listed has one entry and finds it,
whatever the order of the table (`ScientificFunction.IsEntry`).

Three entries have guards.  What they refuse is said here without the machine's arithmetic
(`isNonNegative_eq_false_iff`, `isPositive_eq_false_iff`, `isNonNegativeInteger_eq_false_iff`): the
factorial measures how far its argument is from the nearest integer, and the machine finds this
distance exactly.  **What is let through is rounded to a natural number, and counted up to in 32
bits only where they hold it** (`exists_factorial`).

**A call fails or has a value exactly as the list and the guards say** (`apply_as_listed`).
-/

namespace Reckoner.ScientificFunction

open Binary64

variable {name : String} {f : ScientificFunction} {x : Float}

/-! ### The table -/

/-- `f` is the only function with this name, and is found in whatever order the functions stand. -/
structure IsEntry (name : String) (f : ScientificFunction) : Prop where
  alone : all.filter (·.name == name) = [f]
  found : ∀ table : List ScientificFunction, table.Perm all →
    table.find? (·.name == name) = some f

theorem nodup_names : (all.map ScientificFunction.name).Nodup := by
  decide

/-- Among functions with different names, each is the only one with its name. -/
theorem filter_name_eq {table : List ScientificFunction}
    (hnames : (table.map ScientificFunction.name).Nodup) (hf : f ∈ table) :
    table.filter (·.name == f.name) = [f] := by
  induction table with
  | nil => cases hf
  | cons g rest ih =>
      obtain ⟨hg, hrest⟩ := List.nodup_cons.mp hnames
      rcases List.mem_cons.mp hf with rfl | hf
      · have hothers : rest.filter (·.name == f.name) = [] :=
          List.filter_eq_nil_iff.mpr fun h hmem heq =>
            hg (List.mem_map.mpr ⟨h, hmem, eq_of_beq heq⟩)
        rw [List.filter_cons, if_pos (beq_self_eq_true _), hothers]
      · have hne : ¬ (g.name == f.name) = true := fun heq =>
          hg (List.mem_map.mpr ⟨f, hf, (eq_of_beq heq).symm⟩)
        rw [List.filter_cons, if_neg hne, ih hrest hf]

theorem isEntry_of_mem (hf : f ∈ all) : IsEntry f.name f where
  alone := filter_name_eq nodup_names hf
  found table htable := by
    have hnames : (table.map ScientificFunction.name).Nodup :=
      (htable.map _).nodup_iff.mpr nodup_names
    rw [← List.head?_filter, filter_name_eq hnames (htable.mem_iff.mpr hf), List.head?_cons]

/-- The name is one of those that are listed, byte for byte. -/
def IsListed (name : String) : Prop :=
  ∃ listed ∈ Catalogue.all.functions, listed.toUTF8 = name.toUTF8

theorem isListed_iff : IsListed name ↔ ∃ f ∈ all, f.name = name := by
  simp [IsListed, Catalogue.all, String.toUTF8, String.toByteArray_inj]

/-- A name that is not listed finds nothing. -/
theorem find?_eq_none_iff : find? name = none ↔ ¬ IsListed name := by
  simp [find?, isListed_iff]

/-! ### Guards -/

/-- The guard of `f` does not accept `x`, and this is what it says. -/
def Refuses (f : ScientificFunction) (x : Float) (message : String) : Prop :=
  ∃ guard, f.guard = some guard ∧ guard.accepts x = false ∧ guard.message = message

/-- A call fails only because of a guard. -/
theorem call_eq_error_iff {failure : Failure} : f.call x = .error failure ↔
    ∃ message, f.Refuses x message ∧ failure = .outsideDomain f.name message := by
  unfold call Refuses
  cases f.guard with
  | none => simp
  | some guard =>
      cases haccepts : guard.accepts x with
      | true => simp [haccepts]
      | false => simpa [haccepts] using eq_comm

theorem call_eq_ok (h : ∀ message, ¬ f.Refuses x message) : f.call x = .ok (f.run x) := by
  unfold Refuses at h
  unfold call
  split
  · rfl
  · rename_i guard hguard
    refine if_pos (Bool.eq_true_of_not_eq_false fun haccepts => ?_)
    exact h guard.message ⟨guard, hguard, haccepts, rfl⟩

theorem apply_eq_unknownFunction_iff :
    apply name x = .error (.unknownFunction name) ↔ ¬ IsListed name := by
  rw [← find?_eq_none_iff]
  unfold apply
  cases hf : find? name with
  | none => simp
  | some f =>
      refine iff_of_false (fun hcall => ?_) (Option.some_ne_none f)
      obtain ⟨message, -, heq⟩ := call_eq_error_iff.mp hcall
      cases heq

/-! ### Arguments that are refused -/

theorem isFinite_zero : isFinite 0 = true := by
  decide

theorem isNaN_zero : isNaN 0 = false :=
  not_isNaN_of_isFinite isFinite_zero

theorem grains_zero : grains 0 = 0 := by
  decide

/-- What is a number is at or above zero, or below it. -/
theorem not_zero_le_iff (hx : isNaN x = false) : ¬ 0 ≤ x ↔ x < 0 := by
  rw [le_iff isNaN_zero hx, lt_iff hx isNaN_zero, not_le]

theorem not_zero_lt_iff (hx : isNaN x = false) : ¬ 0 < x ↔ x ≤ 0 := by
  rw [lt_iff isNaN_zero hx, le_iff hx isNaN_zero, not_lt]

theorem isNonNegative_eq_false_iff : isNonNegative x = false ↔ x < 0 := by
  unfold isNonNegative
  cases hx : isNaN x with
  | true => simpa using not_lt_of_isNaN hx
  | false => simpa using not_zero_le_iff hx

theorem isPositive_eq_false_iff : isPositive x = false ↔ x ≤ 0 := by
  unfold isPositive
  cases hx : isNaN x with
  | true => simpa using (not_le_of_isNaN hx).1
  | false => simpa using not_zero_lt_iff hx

/-- No number, infinite, below zero, or further from every integer than the tolerance allows. -/
def OutsideFactorial (x : Float) : Prop :=
  x.isNaN = true ∨ x.isInf = true ∨ x < 0 ∨
    ∀ n : ℤ, toRat integralTolerance ≤ |toRat x - n|

/-- The tolerance is the double nearest to a thousand-millionth. -/
theorem integralTolerance_eq : integralTolerance = 1e-9 := by
  decide +kernel

theorem isFinite_integralTolerance : isFinite integralTolerance = true := by
  decide +kernel

/-- **The machine sees whether a double is near an integer.** -/
theorem abs_sub_toWhole_lt_iff (hx : isFinite x = true) :
    (x - toWhole .halfAway x).abs < integralTolerance ↔
      |toRat x - nearestInt x| < toRat integralTolerance := by
  obtain ⟨hsub, hdifference⟩ := toRat_sub_toWhole hx
  obtain ⟨habs, hdistance⟩ := toRat_abs hsub
  rw [lt_iff_toRat habs isFinite_integralTolerance, hdistance, hdifference]

/-- It is near some integer if it is near the nearest one. -/
theorem forall_le_abs_sub_iff {r : ℚ} :
    (∀ n : ℤ, r ≤ |toRat x - n|) ↔ r ≤ |toRat x - nearestInt x| := by
  refine ⟨fun h => h _, fun h n => h.trans ?_⟩
  rw [abs_sub_comm, abs_sub_comm (toRat x)]
  exact Exact.nearest_of_abs_sub_le (abs_nearestInt_sub_le x) n

theorem isNonNegativeInteger_eq_false_iff : isNonNegativeInteger x = false ↔ OutsideFactorial x := by
  unfold isNonNegativeInteger OutsideFactorial
  rw [isNaN_eq, isInf_eq, forall_le_abs_sub_iff, Bool.and_eq_false_iff,
    decide_eq_false_iff_not, decide_eq_false_iff_not, decide_eq_true_iff]
  cases hnan : isNaN x with
  | true => simp [(not_le_of_isNaN hnan).2]
  | false =>
      by_cases hinfinite : word x = infinityWord
      · -- the difference of infinity and itself is no number
        have hself : toWhole .halfAway x = x :=
          if_neg (by simp [isFinite, hinfinite])
        have hdifference := isNaN_abs (isNaN_sub_self hinfinite)
        simp [hself, hinfinite, not_lt_of_isNaN hdifference]
      · have hfinite := isFinite_of_ne hnan hinfinite
        rw [abs_sub_toWhole_lt_iff hfinite, not_zero_le_iff hnan, not_lt]
        simp [hinfinite]

/-- A zero of either sign is not below zero, and is an integer. -/
theorem not_outsideFactorial_of_word_eq_zero (hx : word x = 0) :
    ¬ x < 0 ∧ ¬ OutsideFactorial x := by
  have hgrains : grains x = 0 := by
    rw [grains, magnitude, hx, wordMagnitude_zero, signed_zero]
  have hfinite : isFinite x = true := by simp [isFinite, hx, infinityWord]
  have hpos : ¬ x < 0 := by
    rw [lt_iff_toRat hfinite isFinite_zero, toRat, toRat, hgrains, grains_zero]
    exact lt_irrefl _
  have hinteger : |toRat x - (0 : ℤ)| < toRat integralTolerance := by
    have htolerance : 0 < grains integralTolerance := by decide +kernel
    rw [toRat, hgrains, Int.cast_zero, zero_div, sub_zero, abs_zero]
    exact div_pos (Int.cast_pos.mpr htolerance) (Nat.cast_pos.mpr grainsPerOne_pos)
  refine ⟨hpos, ?_⟩
  rintro (hnan | hinfinite | hbelow | hfar)
  · rw [isNaN_eq, not_isNaN_of_isFinite hfinite] at hnan
    cases hnan
  · rw [isInf_eq, hx] at hinfinite
    cases hinfinite
  · exact hpos hbelow
  · exact (hfar 0).not_gt hinteger

/-- **Three functions refuse arguments**, and these are the ones. -/
theorem exists_refuses_iff (hf : f ∈ all) : (∃ message, f.Refuses x message) ↔
    f.name = "sqrt" ∧ x < 0 ∨ f.name = "log" ∧ x ≤ 0 ∨
      f.name = "factorial" ∧ OutsideFactorial x := by
  rw [← isNonNegative_eq_false_iff, ← isPositive_eq_false_iff, ← isNonNegativeInteger_eq_false_iff]
  simp only [all, List.mem_cons, List.not_mem_nil, or_false] at hf
  rcases hf with rfl | rfl | rfl | rfl | rfl | rfl | rfl | rfl | rfl | rfl | rfl | rfl | rfl | rfl |
    rfl <;> simp [Refuses]

/-! ### The factorial -/

/-- `2 · 3 · … · n`, each factor after the product of those before it.  The factors are doubles as
they are (`Binary64.toRat_ofNat`). -/
def orderedProduct : Nat → Float
  | 0 | 1 => 1
  | n + 2 => orderedProduct (n + 1) * ofNat (n + 2)

theorem product_eq (n : Nat) : product n = orderedProduct n := by
  match n with
  | 0 | 1 => rfl
  | n + 2 =>
      have hrange : List.range' 2 (n + 2 - 1) = List.range' 2 (n + 1 - 1) ++ [n + 2] := by
        rw [Nat.add_sub_cancel, Nat.add_sub_assoc (by decide), List.range'_concat, Nat.one_mul,
          Nat.add_comm 2]
      rw [product, hrange, List.foldl_append, ← product, product_eq (n + 1)]
      rfl

/-- What is rounded to a natural number has its grains. -/
theorem grains_toWhole_of_nonneg (hx : isFinite x = true) (hpos : 0 ≤ grains x) :
    grains (toWhole .halfAway x) = (wholeMagnitude .halfAway x * grainsPerOne : Nat) := by
  rw [(grains_toWhole .halfAway hx).2]
  cases hsign : isNegative x with
  | false => rfl
  | true =>
      -- only zero is not below zero in spite of its sign
      have hzero : magnitude x = 0 := by
        simpa [grains, signed, hsign] using hpos
      have hwhole : wholeMagnitude .halfAway x = 0 := by
        have hnear := (wholeMagnitude_near x).2
        rw [hzero] at hnear
        by_contra hne
        have hone := Nat.le_mul_of_pos_left grainsPerOne (Nat.pos_of_ne_zero hne)
        have := grainsPerOne_pos
        omega
      simp [hwhole]

/-- Nothing is let through but numbers that are not below zero. -/
theorem isFinite_of_isNonNegativeInteger (hx : isNonNegativeInteger x = true) :
    isFinite x = true ∧ 0 ≤ grains x := by
  have hinside : ¬ OutsideFactorial x := by
    rw [← isNonNegativeInteger_eq_false_iff, hx]
    exact Bool.noConfusion
  unfold OutsideFactorial at hinside
  rw [isNaN_eq, isInf_eq, decide_eq_true_iff] at hinside
  push Not at hinside
  obtain ⟨hnan, hinfinite, hpos, -⟩ := hinside
  rw [ne_eq, Bool.not_eq_true] at hnan
  rw [lt_iff hnan isNaN_zero, grains_zero, not_lt] at hpos
  exact ⟨isFinite_of_ne hnan hinfinite, hpos⟩

/-- **The factorial of an argument that is let through.** -/
theorem exists_factorial (hx : isNonNegativeInteger x = true) :
    ∃ n : ℕ, toRat (toWhole .halfAway x) = n ∧ |toRat x - n| < toRat integralTolerance ∧
      (n ≤ 170 → (toWhole .halfAway x).toUInt32.toNat = n) ∧
      factorial x = if n ≤ 170 then orderedProduct n else infinity := by
  obtain ⟨hfinite, hpos⟩ := isFinite_of_isNonNegativeInteger hx
  have hwhole := (grains_toWhole .halfAway hfinite).1
  have hgrains := grains_toWhole_of_nonneg hfinite hpos
  generalize wholeMagnitude .halfAway x = n at hgrains
  have hrat := toRat_of_grains hgrains
  have hnear : |toRat x - n| < toRat integralTolerance := by
    rw [← hrat, toRat_toWhole hfinite, ← abs_sub_toWhole_lt_iff hfinite]
    exact of_decide_eq_true (Bool.and_eq_true_iff.mp hx).2
  have hcount : n ≤ 170 → (toWhole .halfAway x).toUInt32.toNat = n := fun hn =>
    toNat_toUInt32_of_grains hwhole hgrains (by omega)
  have hlarge : ofNat largestFactorial < toWhole .halfAway x ↔ 170 < n := by
    obtain ⟨hlargest, hvalue⟩ := toRat_ofNat (n := largestFactorial) (by decide)
    rw [lt_iff_toRat hlargest hwhole, hvalue, hrat, Nat.cast_lt, largestFactorial]
  refine ⟨n, hrat, hnear, hcount, ?_⟩
  unfold factorial
  by_cases hn : n ≤ 170
  · rw [if_neg (by rw [hlarge]; omega), if_pos hn, hcount hn, product_eq]
  · rw [if_pos (by rw [hlarge]; omega), if_neg hn]

/-! ### Calls -/

/-- An entry is what a call of its name calls. -/
theorem apply_eq_call (h : IsEntry name f) : apply name x = f.call x := by
  rw [apply, find?, h.found all (.refl _)]

theorem apply_factorial (hx : isNonNegativeInteger x = true) :
    apply "factorial" x = .ok (factorial x) := by
  have hfind : find? "factorial" = some ⟨"factorial", factorial, some ⟨isNonNegativeInteger,
      "Factorial is only defined for non-negative integers"⟩⟩ := by
    simp [find?, all]
  simp only [apply, hfind, call, hx, if_true]

/-- **Functions are applied as they are listed.**  A name is unknown exactly if it is not listed.
If it is, one entry has it, wherever in the table it stands; a call fails exactly if the guard of
this entry refuses the argument, with the entry's name and the guard's message, and else has the
value of the entry's function.  The guards are those of three functions.  What is not a number is
not below zero, nor at it, and a zero of either sign is neither below zero nor kept from the
factorial.  What the factorial lets through is rounded to a natural number, which 32 bits hold
whenever it is counted up to. -/
theorem apply_as_listed (name : String) (x : Float) :
    (apply name x = .error (.unknownFunction name) ↔ ¬ IsListed name) ∧
    (IsListed name → ∃ f, IsEntry name f ∧
      (∀ failure, apply name x = .error failure ↔
        ∃ message, f.Refuses x message ∧ failure = .outsideDomain f.name message) ∧
      ((∀ message, ¬ f.Refuses x message) → apply name x = .ok (f.run x)) ∧
      ((∃ message, f.Refuses x message) ↔
        name = "sqrt" ∧ x < 0 ∨ name = "log" ∧ x ≤ 0 ∨
          name = "factorial" ∧ OutsideFactorial x)) ∧
    (x.isNaN = true → ¬ x < 0 ∧ ¬ x ≤ 0) ∧
    (word x = 0 → ¬ x < 0 ∧ ¬ OutsideFactorial x) ∧
    integralTolerance = 1e-9 ∧
    (isNonNegativeInteger x = true → ∃ n : ℕ, toRat (toWhole .halfAway x) = n ∧
      |toRat x - n| < toRat integralTolerance ∧
      (n ≤ 170 → (toWhole .halfAway x).toUInt32.toNat = n) ∧
      apply "factorial" x = .ok (if n ≤ 170 then orderedProduct n else infinity)) := by
  refine ⟨apply_eq_unknownFunction_iff, fun hlisted => ?_, fun hx => ?_,
    not_outsideFactorial_of_word_eq_zero, integralTolerance_eq, fun hx => ?_⟩
  · obtain ⟨f, hf, rfl⟩ := isListed_iff.mp hlisted
    have hentry := isEntry_of_mem hf
    refine ⟨f, hentry, fun failure => ?_, fun hpasses => ?_, exists_refuses_iff hf⟩
    · rw [apply_eq_call hentry, call_eq_error_iff]
    · rw [apply_eq_call hentry, call_eq_ok hpasses]
  · rw [isNaN_eq] at hx
    exact ⟨not_lt_of_isNaN hx, (not_le_of_isNaN hx).1⟩
  · obtain ⟨n, hrat, hnear, hcount, hfactorial⟩ := exists_factorial hx
    refine ⟨n, hrat, hnear, hcount, ?_⟩
    rw [← hfactorial, apply_factorial hx]

/-- A little more than five is near enough to it. -/
theorem apply_factorial_near_five :
    isNonNegativeInteger 5.0000000001 = true ∧ apply "factorial" 5.0000000001 = .ok 120 := by
  have hx : isNonNegativeInteger 5.0000000001 = true := by decide +kernel
  obtain ⟨-, -, -, -, -, hfactorial⟩ := apply_as_listed "factorial" 5.0000000001
  obtain ⟨n, hrat, -, -, happly⟩ := hfactorial hx
  have hfive : n = 5 := by
    have hgrains : grains (toWhole .halfAway 5.0000000001) = (5 * grainsPerOne : Nat) := by
      decide +kernel
    rw [toRat_of_grains hgrains] at hrat
    exact_mod_cast hrat.symm
  have hproduct : orderedProduct 5 = 120 := by decide +kernel
  refine ⟨hx, ?_⟩
  rw [happly, hfive, if_pos (by decide), hproduct]

end Reckoner.ScientificFunction
