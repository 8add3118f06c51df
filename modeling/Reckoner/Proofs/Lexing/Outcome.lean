import Reckoner.Proofs.Lexing.Balance

/-!
# Lexing — what comes of a text

A text has one outcome.  It has tokens if its parentheses are balanced, its lexemes reach to its
end and no two operators meet; else it has the first of three faults, in this order: parentheses
that are not balanced, a place where no lexeme starts, an operator behind an operator
(`Token.Outcome`).

**A text is split into tokens exactly when it is tiled by its longest lexemes**, whose slices of
the text are the whole of it (`Token.tokenize_eq_ok_iff_tiled`).  **What `tokenize` answers is the
outcome of the normalized text**, and places in it are bytes from its start
(`Token.tokenize_eq_iff_outcome`).
-/

namespace Reckoner

/-! ### Places in a text -/

namespace Lexeme

theorem bytes_append (front text : List Char) : bytes (front ++ text) = bytes front + bytes text := by
  rw [bytes, String.ofList_append, String.utf8ByteSize_append]
  rfl

/-- The characters of a text whose place is from `start` on and before `stop`, in bytes; the first
one is at `position`. -/
def sliceFrom (start stop : Nat) : (position : Nat) → List Char → List Char
  | _, [] => []
  | position, c :: s =>
    let behind := sliceFrom start stop (position + c.utf8Size) s
    if start ≤ position ∧ position < stop then c :: behind else behind

/-- The slice of a text from one byte up to another. -/
def slice (start stop : Nat) (s : List Char) : List Char :=
  sliceFrom start stop 0 s

/-- Nothing behind the stop is in the slice. -/
theorem sliceFrom_of_le {start stop position : Nat} (h : stop ≤ position) (s : List Char) :
    sliceFrom start stop position s = [] := by
  induction s generalizing position with
  | nil => rfl
  | cons c s ih =>
      rw [sliceFrom, if_neg (by omega)]
      exact ih (by omega)

/-- All that fits before the stop is in the slice. -/
theorem sliceFrom_append {start stop position : Nat} (hstart : start ≤ position)
    {text : List Char} (hstop : position + bytes text ≤ stop) (s : List Char) :
    sliceFrom start stop position (text ++ s) =
      text ++ sliceFrom start stop (position + bytes text) s := by
  induction text generalizing position with
  | nil => rfl
  | cons c text ih =>
      have hpos := c.utf8Size_pos
      rw [bytes_cons, ← Nat.add_assoc] at hstop ⊢
      rw [List.cons_append, sliceFrom, if_pos (by omega), ih (by omega) hstop, List.cons_append]

/-- Nothing before the start is in the slice. -/
theorem sliceFrom_skip {start stop position : Nat} {front : List Char}
    (h : position + bytes front ≤ start) (s : List Char) :
    sliceFrom start stop position (front ++ s) =
      sliceFrom start stop (position + bytes front) s := by
  induction front generalizing position with
  | nil => rfl
  | cons c front ih =>
      have hpos := c.utf8Size_pos
      rw [bytes_cons, ← Nat.add_assoc] at h ⊢
      rw [List.cons_append, sliceFrom, if_neg (by omega)]
      exact ih h

/-- The slice from where some characters start to where they end is these characters. -/
theorem slice_append (front text behind : List Char) :
    slice (bytes front) (bytes (front ++ text)) (front ++ (text ++ behind)) = text := by
  have hlen := bytes_append front text
  rw [slice, sliceFrom_skip (by omega), sliceFrom_append (by omega) (by omega),
    sliceFrom_of_le (by omega), List.append_nil]

/-- No lexeme stands in front of `s`. -/
def NoneStarts (s : List Char) : Prop :=
  ∀ text token rest, text ++ rest = s → ¬ Spells text token

end Lexeme

namespace Token

/-! ### Slices -/

/-- Where the first of some tokens starts; `stop` if there is none. -/
def startOf (stop : Nat) : List PlacedToken → Nat
  | []     => stop
  | t :: _ => t.position

/-- The slices of a text from each token up to the next one, and up to the end of the text from
the last one. -/
def slices (s : List Char) : List PlacedToken → List (List Char)
  | []      => []
  | t :: ts => Lexeme.slice t.position (startOf (Lexeme.bytes s) ts) s :: slices s ts

/-- A cut starts at its first token and stops behind all its lexemes. -/
theorem Cuts.exists_front {position stop : Nat} {s rest : List Char} {tokens : List PlacedToken}
    (h : Cuts position s tokens stop rest) :
    startOf stop tokens = position ∧
      ∃ front, front ++ rest = s ∧ stop = position + Lexeme.bytes front := by
  induction h with
  | done => exact ⟨rfl, [], rfl, rfl⟩
  | @more position stop s text behind rest token tokens longest _ ih =>
      obtain ⟨-, front, hfront, hstop⟩ := ih
      refine ⟨rfl, text ++ front, ?_, ?_⟩
      · rw [List.append_assoc, hfront, longest.append_eq]
      · rw [hstop, Lexeme.bytes_append, Nat.add_assoc]

/-- **The slices of a text that is cut to its end are its lexemes**, each in its place and one
behind the other. -/
theorem Cuts.slices_whole {position stop : Nat} {s rest whole : List Char}
    {tokens : List PlacedToken} (h : Cuts position s tokens stop rest) :
    ∀ front, front ++ s = whole → position = Lexeme.bytes front → rest = [] →
      stop = Lexeme.bytes whole →
      (slices whole tokens).flatten = s ∧
        List.Forall₂ (fun text t => Lexeme.Spells text t.token) (slices whole tokens) tokens := by
  induction h with
  | done =>
      rintro front - - rfl -
      exact ⟨rfl, .nil⟩
  | @more position stop s text behind rest token tokens longest tail ih =>
      rintro front rfl rfl hrest rfl
      obtain ⟨rfl, hspells, -⟩ := longest
      rw [← Lexeme.bytes_append] at tail ih
      obtain ⟨hflat, hall⟩ := ih (front ++ text) (List.append_assoc ..) rfl hrest rfl
      have hslice : Lexeme.slice (Lexeme.bytes front)
          (startOf (Lexeme.bytes (front ++ (text ++ behind))) tokens) (front ++ (text ++ behind)) =
            text := by
        rw [tail.exists_front.1, Lexeme.slice_append]
      rw [slices, hslice]
      exact ⟨by rw [List.flatten_cons, hflat], .cons hspells hall⟩

/-! ### Faults -/

/-- Where no lexeme starts, scanning fails. -/
theorem scan_of_stray {s rest : List Char} {c : Char} {tokens : List PlacedToken} {stop : Nat}
    (h : Cuts 0 s tokens stop (c :: rest)) (hnone : Lexeme.next? (c :: rest) = none) :
    scan s = .error (strayCharacter c stop) := by
  obtain ⟨tokens', stop', rest', hcuts, hnone', hscan⟩ := exists_cuts_scanFrom 0 [] s
  obtain ⟨rfl, rfl, rfl⟩ := h.functional hnone hcuts hnone'
  exact hscan

/-- Two operators meet first at `a` and `b`: none meet in front of them. -/
def MeetFirst (tokens : List PlacedToken) (a b : PlacedToken) : Prop :=
  ∃ before behind, tokens = before ++ a :: b :: behind ∧
    Spaced ((before ++ [a]).map (·.token)) ∧ a.token.isOperator = true ∧ b.token.isOperator = true

/-- The front part of a list up to one of its elements starts as the list does. -/
theorem exists_front_eq_cons {a b : PlacedToken} {ts before behind : List PlacedToken}
    (h : b :: ts = before ++ a :: behind) : ∃ u, before ++ [a] = b :: u := by
  cases before with
  | nil =>
      obtain ⟨rfl, -⟩ := List.cons.inj h
      exact ⟨[], rfl⟩
  | cons x before =>
      obtain ⟨rfl, -⟩ := List.cons.inj h
      exact ⟨before ++ [a], rfl⟩

theorem meetFirst_cons_iff {a b c d : PlacedToken} {ts : List PlacedToken}
    (h : ¬ (a.token.isOperator = true ∧ b.token.isOperator = true)) :
    MeetFirst (a :: b :: ts) c d ↔ MeetFirst (b :: ts) c d := by
  constructor
  · rintro ⟨before, behind, hsplit, hspaced, hc, hd⟩
    cases before with
    | nil =>
        obtain ⟨rfl, rfl, -⟩ := by simpa using hsplit
        exact absurd ⟨hc, hd⟩ h
    | cons x before =>
        exact ⟨before, behind, (List.cons.inj hsplit).2, hspaced.tail, hc, hd⟩
  · rintro ⟨before, behind, hsplit, hspaced, hc, hd⟩
    refine ⟨a :: before, behind, by rw [hsplit, List.cons_append], ?_, hc, hd⟩
    -- `b` is the first of those that are spaced already
    obtain ⟨u, hu⟩ := exists_front_eq_cons hsplit
    rw [hu] at hspaced
    rw [List.cons_append, hu]
    exact List.isChain_cons_cons.mpr ⟨h, hspaced⟩

/-- The position found is that of the second operator of the first two that meet. -/
theorem operatorAfterOperator?_eq_some_iff {tokens : List PlacedToken} {position : Nat} :
    operatorAfterOperator? tokens = some position ↔
      ∃ a b, MeetFirst tokens a b ∧ b.position = position := by
  fun_induction operatorAfterOperator? tokens with
  | case1 a b ts h =>
      have hab : a.token.isOperator = true ∧ b.token.isOperator = true := by simpa using h
      constructor
      · rintro ⟨⟩
        exact ⟨a, b, ⟨[], ts, rfl, .singleton _, hab⟩, rfl⟩
      · rintro ⟨c, d, ⟨before, behind, hsplit, hspaced, -⟩, rfl⟩
        cases before with
        | nil =>
            obtain ⟨-, rfl, -⟩ := by simpa using hsplit
            rfl
        | cons x before =>
            -- `a` and `b` would be among those in front, which are spaced
            obtain ⟨rfl, hrest⟩ := List.cons.inj hsplit
            obtain ⟨u, hu⟩ := exists_front_eq_cons hrest
            rw [List.cons_append, hu] at hspaced
            exact absurd hab (List.isChain_cons_cons.mp hspaced).1
  | case2 a b ts h ih =>
      rw [ih]
      exact exists₂_congr fun c d => and_congr_left' (meetFirst_cons_iff (by simpa using h)).symm
  | case3 ts h =>
      refine iff_of_false (by simp) ?_
      rintro ⟨a, b, ⟨before, behind, rfl, -⟩, -⟩
      match before with
      | []          => exact h _ _ _ rfl
      | [_]         => exact h _ _ _ rfl
      | _ :: _ :: _ => exact h _ _ _ rfl

/-! ### The outcome of a text -/

/-- What comes of a text in its one spelling. -/
inductive Outcome (s : List Char) : Except Failure (List PlacedToken) → Prop where
  | unbalanced (fault : ¬ Balanced s) : Outcome s (.error .unbalancedParentheses)
  | stray {front rest : List Char} {c : Char} {tokens : List PlacedToken} (balanced : Balanced s)
      (place : front ++ c :: rest = s) (cuts : Cuts 0 s tokens (Lexeme.bytes front) (c :: rest))
      (fault : Lexeme.NoneStarts (c :: rest)) (hc : c ≠ '.') :
      Outcome s (.error (.invalidCharacter c (Lexeme.bytes front)))
  | barePoint {front rest : List Char} {tokens : List PlacedToken} (balanced : Balanced s)
      (place : front ++ '.' :: rest = s)
      (cuts : Cuts 0 s tokens (Lexeme.bytes front) ('.' :: rest))
      (fault : Lexeme.NoneStarts ('.' :: rest)) :
      Outcome s (.error (.malformed .barePoint (Lexeme.bytes front)))
  | operators {a b : PlacedToken} {tokens : List PlacedToken} (balanced : Balanced s)
      (cuts : Cuts 0 s tokens (Lexeme.bytes s) []) (fault : MeetFirst tokens a b) :
      Outcome s (.error (.consecutiveOperators b.position))
  | tokens {tokens : List PlacedToken} (balanced : Balanced s)
      (cuts : Cuts 0 s tokens (Lexeme.bytes s) []) (spaced : Spaced (tokens.map (·.token))) :
      Outcome s (.ok tokens)

/-- A cut to the end stops at the end. -/
theorem Cuts.stop_eq {s : List Char} {tokens : List PlacedToken} {stop : Nat}
    (h : Cuts 0 s tokens stop []) : stop = Lexeme.bytes s := by
  obtain ⟨-, front, rfl, rfl⟩ := h.exists_front
  rw [List.append_nil, Nat.zero_add]

/-- What `tokenize` answers is an outcome. -/
theorem outcome_tokenizeChars (expression : List Char) :
    Outcome (Text.normalize expression) (tokenizeChars expression) := by
  generalize hs : Text.normalize expression = s
  rw [tokenizeChars_eq, hs]
  by_cases hb : balanced s = true
  · have hbalanced := (balanced_iff s).mp hb
    obtain ⟨tokens, stop, rest, hcuts, hnone, -⟩ := exists_cuts_scanFrom 0 [] s
    rw [if_pos hb]
    cases rest with
    | nil =>
        rw [scan_eq_ok_iff.mpr ⟨stop, hcuts⟩]
        obtain rfl := hcuts.stop_eq
        dsimp only
        cases hop : operatorAfterOperator? tokens with
        | none =>
            exact .tokens hbalanced hcuts ((operatorAfterOperator?_eq_none_iff tokens).mp hop)
        | some position =>
            obtain ⟨a, b, hmeet, rfl⟩ := operatorAfterOperator?_eq_some_iff.mp hop
            exact .operators hbalanced hcuts hmeet
    | cons c rest =>
        rw [scan_of_stray hcuts hnone]
        obtain ⟨-, front, hplace, rfl⟩ := hcuts.exists_front
        rw [Nat.zero_add] at hcuts ⊢
        have hfault := Lexeme.next?_eq_none_iff.mp hnone
        dsimp only
        unfold strayCharacter
        split
        · rename_i hc
          subst hc
          exact .barePoint hbalanced hplace hcuts hfault
        · rename_i hc
          exact .stray hbalanced hplace hcuts hfault hc
  · rw [if_neg hb]
    exact .unbalanced fun hbalanced => hb ((balanced_iff s).mpr hbalanced)

/-- A text has one outcome, and it is what `tokenize` answers. -/
theorem Outcome.tokenizeChars_eq {expression : List Char} {s : List Char}
    (hs : Text.normalize expression = s) {r : Except Failure (List PlacedToken)}
    (h : Outcome s r) : tokenizeChars expression = r := by
  rw [Token.tokenizeChars_eq, hs]
  cases h with
  | unbalanced fault => rw [if_neg fun hb => fault ((balanced_iff s).mp hb)]
  | stray hbalanced place cuts fault hc =>
      rw [if_pos ((balanced_iff s).mpr hbalanced),
        scan_of_stray cuts (Lexeme.next?_eq_none_iff.mpr fault)]
      simp [strayCharacter, hc]
  | barePoint hbalanced place cuts fault =>
      rw [if_pos ((balanced_iff s).mpr hbalanced),
        scan_of_stray cuts (Lexeme.next?_eq_none_iff.mpr fault)]
      rfl
  | operators hbalanced cuts fault =>
      rw [if_pos ((balanced_iff s).mpr hbalanced), scan_eq_ok_iff.mpr ⟨_, cuts⟩]
      simp [operatorAfterOperator?_eq_some_iff.mpr ⟨_, _, fault, rfl⟩]
  | tokens hbalanced cuts spaced =>
      rw [if_pos ((balanced_iff s).mpr hbalanced), scan_eq_ok_iff.mpr ⟨_, cuts⟩]
      simp [(operatorAfterOperator?_eq_none_iff _).mpr spaced]

/-- **A text is split into tokens exactly when it is tiled by lexemes.**  Its parentheses have to
be balanced, the longest lexemes from its first byte on have to reach to its last one, and no two
operators may stand side by side; the tokens are then those of the lexemes, each with the byte at
which its lexeme starts.  The slices of the text from token to token are the lexemes, and one
behind the other they are the text. -/
theorem tokenize_eq_ok_iff_tiled (expression : String) (tokens : List PlacedToken) :
    let s := Text.normalize expression.toList
    (tokenize expression = .ok tokens ↔
      Balanced s ∧ Cuts 0 s tokens (Lexeme.bytes s) [] ∧ Spaced (tokens.map (·.token))) ∧
    (tokenize expression = .ok tokens →
      (slices s tokens).flatten = s ∧
        List.Forall₂ (fun text t => Lexeme.Spells text t.token) (slices s tokens) tokens) := by
  intro s
  have hiff : tokenize expression = .ok tokens ↔
      Balanced s ∧ Cuts 0 s tokens (Lexeme.bytes s) [] ∧ Spaced (tokens.map (·.token)) := by
    rw [tokenize, tokenizeChars_eq_ok_iff, balanced_iff]
    refine and_congr_right' (and_congr_left' ⟨?_, fun h => ⟨_, h⟩⟩)
    rintro ⟨stop, h⟩
    exact h.stop_eq ▸ h
  refine ⟨hiff, fun h => ?_⟩
  exact (hiff.mp h).2.1.slices_whole [] rfl rfl rfl rfl

/-- **One order of priority decides what is wrong with a text.**  `tokenize` answers the outcome of
the normalized text and nothing else; so it objects to parentheses exactly if they are not
balanced.  A bare point is told from a stray character, and a number is read wherever the text of
a number stands. -/
theorem tokenize_eq_iff_outcome (expression : String) :
    (∀ r, tokenize expression = r ↔ Outcome (Text.normalize expression.toList) r) ∧
    (tokenize expression = .error .unbalancedParentheses ↔
      ¬ Balanced (Text.normalize expression.toList)) ∧
    Complaint.message .barePoint = "invalid number literal '.'" ∧
    ∀ text value, Lexeme.Spells text (.number value) → ∀ rest, ∃ l rest' value',
      Lexeme.next? (text ++ rest) = some (l, rest') ∧ l.token = .number value' := by
  have houtcome : ∀ r, tokenize expression = r ↔ Outcome (Text.normalize expression.toList) r :=
    fun r => ⟨fun h => h ▸ outcome_tokenizeChars expression.toList, fun h => h.tokenizeChars_eq rfl⟩
  refine ⟨houtcome, ?_, rfl, fun text value h => h.exists_next?_number⟩
  rw [houtcome]
  constructor
  · intro h
    cases h with
    | unbalanced fault => exact fault
  · exact .unbalanced

-- parentheses come first, then the stray character, although the two operators are in front of it
example : tokenize "2 ×÷ é)" = .error .unbalancedParentheses := by decide +kernel
example : tokenize "2 ×÷ é" = .error (.invalidCharacter 'é' 3) := by decide +kernel
example : tokenize "2 ×÷" = .error (.consecutiveOperators 2) := by decide +kernel

end Token

end Reckoner
