import Reckoner.Proofs.Grammar.Faults
import Reckoner.Proofs.Lexing.Outcome
import Reckoner.Proofs.Numbers.ReadBack

/-!
# Language — where a text fails to be read

A complaint about tokens that end too early is placed behind the last of them, by the length of
its one text.  A literal may be spelled longer than that, as `1.50` is, but an operator may not;
and where the parentheses are balanced and an operand is still due, the last token is an operator
(`Outlook.exists_operator_of_after?`).

**So a complaint about a text that is split into tokens is placed at the end of the text if the
text ends too early, and else at one of its tokens** (`Expr.place_of_tokenized`).  No complaint is
one of parentheses that do not match.
-/

namespace Reckoner

/-! ### The place of a token -/

namespace Token

/-- Every token starts before the place where the cut stops. -/
theorem Cuts.position_lt {position stop : Nat} {s rest : List Char} {tokens : List PlacedToken}
    (h : Cuts position s tokens stop rest) : ∀ t ∈ tokens, t.position < stop := by
  induction h with
  | done => exact fun t ht => absurd ht List.not_mem_nil
  | @more position stop s text behind rest token tokens longest tail ih =>
      intro t ht
      rcases List.mem_cons.mp ht with rfl | ht
      · obtain ⟨-, front, -, hstop⟩ := tail.exists_front
        have hpos := List.length_pos_iff.mpr longest.spells.ne_nil
        rw [← longest.spells.bytes_eq_length] at hpos
        dsimp only
        omega
      · exact ih t ht

/-- A cut stops behind the lexeme of its last token. -/
theorem Cuts.exists_last {position stop : Nat} {s rest : List Char} {tokens : List PlacedToken}
    (h : Cuts position s tokens stop rest) :
    ∀ {front : List PlacedToken} {t : PlacedToken}, tokens = front ++ [t] →
      ∃ text, Lexeme.Spells text t.token ∧ stop = t.position + Lexeme.bytes text := by
  induction h with
  | done => intro front t h; simp at h
  | @more position stop s text behind rest token tokens longest tail ih =>
      intro front t h
      cases front with
      | nil =>
          obtain ⟨rfl, rfl⟩ := by simpa using h
          cases tail with
          | done => exact ⟨text, longest.spells, rfl⟩
      | cons a front => exact ih (List.cons.inj h).2

/-- The only lexeme of an operator is its symbol. -/
theorem eq_symbol_of_spells {text : List Char} {op : Operator}
    (h : Lexeme.Spells text (.operator op)) : text = op.symbol.toList := by
  generalize ht : Token.operator op = token at h
  cases h with
  | operator => cases ht; rfl
  | opening | closing | whole | pointed => cases ht

/-- **Behind an operator the tokens end where the text does.** -/
theorem Cuts.endOf_eq {stop position : Nat} {s rest : List Char} {front : List PlacedToken}
    {op : Operator} (h : Cuts 0 s (front ++ [⟨.operator op, position⟩]) stop rest) :
    Expr.endOf (front ++ [⟨.operator op, position⟩]) = stop := by
  obtain ⟨text, hspells, hstop⟩ := h.exists_last rfl
  obtain rfl := eq_symbol_of_spells hspells
  rw [hstop, Lexeme.bytes, String.ofList_toList]
  simp [Expr.endOf, text]

end Token

/-! ### What the last token is -/

namespace Outlook

/-- Only behind an operator is an operand due with nothing open. -/
theorem operator_of_next? {o o' : Outlook} {t : Token} (h : o.next? t = some o')
    (hdue : o'.due ≠ .link) (hdepth : o'.depth = 0) : ∃ op, t = .operator op := by
  unfold next? at h
  split at h
  case h_1 op | h_4 => exact ⟨_, rfl⟩
  case h_2 | h_5 =>
    cases h
    exact absurd rfl hdue
  case h_3 | h_7 => cases h
  case h_6 =>
    split at h
    · cases h
      cases hdepth
    · cases h

/-- **Where nothing is open and an operand is due, the last token is an operator.** -/
theorem exists_operator_of_after? {ts : List Token} {o o' : Outlook} (hne : ts ≠ [])
    (h : o.after? ts = some o') (hdue : o'.due ≠ .link) (hdepth : o'.depth = 0) :
    ∃ front op, ts = front ++ [.operator op] := by
  obtain ⟨front, t, rfl⟩ := (List.eq_nil_or_concat ts).resolve_left hne
  rw [List.concat_eq_append, after?_append] at h
  obtain ⟨between, -, hlast⟩ := Option.bind_eq_some_iff.mp h
  rw [after?] at hlast
  obtain ⟨o'', hnext, hend⟩ := Option.bind_eq_some_iff.mp hlast
  cases hend
  obtain ⟨op, rfl⟩ := operator_of_next? hnext hdue hdepth
  exact ⟨front, op, List.concat_eq_append⟩

end Outlook

/-! ### Messages -/

/-- A text that is put together starts with its first part. -/
theorem prefix_of_append_eq (front : String) {rest s : String} (h : front ++ rest ++ "'" = s) :
    front.toList <+: s.toList := by
  rw [← h, String.append_assoc, String.toList_append]
  exact List.prefix_append _ _

namespace Complaint

/-- **A complaint of an early end is told apart from all others by its message**, those aside that
are in the words of a caller. -/
theorem eq_of_message_eq {complaint other : Complaint} (h : complaint.message = other.message)
    (hend : other.isOfEnd = true) (hwords : ∀ words, complaint ≠ .worded words) :
    complaint = other := by
  cases other with
  | emptyExpression | unexpectedEnd | missingClosing =>
      cases complaint with
      | worded words => exact absurd rfl (hwords words)
      | unexpectedToken =>
          exact absurd (prefix_of_append_eq "unexpected token '" h) (by decide +kernel)
      | expectedClosing =>
          exact absurd (prefix_of_append_eq "expected ')' but found '" h)
            (by decide +kernel)
      | expectedOperand =>
          exact absurd (prefix_of_append_eq "expected a number or '(' but found '" h)
            (by decide +kernel)
      | _ => first | rfl | exact absurd h (by decide +kernel)
  | _ => cases hend

end Complaint

/-- A number is not written as a parenthesis. -/
theorem Layout.closing_not_mem_spell (x : Float) : ')' ∉ plain.spell x := by
  have hword (w : Nat) : ')' ∉ plain.wordText w := by
    unfold wordText
    split
    · decide
    · intro hmem
      have hspells := spells_decimalText (Decimal.shortest plain.tie w)
      rcases hspells.mem_cases hmem with h | h | ⟨h, -⟩ | ⟨h, -⟩
      · exact absurd h (by decide)
      · exact absurd h (by unfold Lexeme.IsMark; decide)
      · cases h
      · cases h
  unfold spell
  split
  · decide
  · dsimp only
    split <;> split <;> simp [hword]

/-- Only the closing parenthesis is written as one. -/
theorem Token.eq_closing_of_text {t : Token} (h : t.text = ")") : t = .closing := by
  cases t with
  | closing => rfl
  | opening => exact absurd h (by decide)
  | operator op => cases op <;> exact absurd h (by decide)
  | number value =>
      have hspell : Layout.plain.spell value = [')'] := by
        rw [← String.ofList_inj]
        exact h
      exact absurd (by simp [hspell]) (Layout.closing_not_mem_spell value)

/-- The complaint of a parenthesis that closes nothing is told apart likewise. -/
theorem Complaint.eq_unexpectedToken_closing {complaint : Complaint}
    (h : complaint.message = "unexpected token ')'") (hwords : ∀ words, complaint ≠ .worded words) :
    complaint = .unexpectedToken .closing := by
  cases complaint with
  | worded words => exact absurd rfl (hwords words)
  | unexpectedToken found =>
      have hfound : "unexpected token '" ++ found.text ++ "'" =
          "unexpected token '" ++ ")" ++ "'" := h
      rw [String.append_left_inj, String.append_right_inj] at hfound
      rw [Token.eq_closing_of_text hfound]
  | expectedClosing =>
      exact absurd (prefix_of_append_eq "expected ')' but found '" h) (by decide +kernel)
  | expectedOperand =>
      exact absurd (prefix_of_append_eq "expected a number or '(' but found '" h)
        (by decide +kernel)
  | _ => exact absurd h (by decide +kernel)

/-! ### The place of a complaint -/

/-- What can be complained about in the tokens of a text, and where: they end too early, at the
end of the text; or one of them is at fault, and it is not a closing parenthesis that closes
nothing. -/
inductive Placed (stop : Nat) (tokens : List PlacedToken) : Complaint → Nat → Prop where
  | early {complaint : Complaint}
      (h : complaint = .unexpectedEnd ∨ complaint = .emptyExpression) :
      Placed stop tokens complaint stop
  | token {complaint : Complaint} {t : PlacedToken} (hmem : t ∈ tokens)
      (hend : complaint.isOfEnd = false) (hwords : ∀ words, complaint ≠ .worded words)
      (hclosing : complaint ≠ .unexpectedToken .closing) :
      Placed stop tokens complaint t.position

/-- **A complaint about the tokens of a text is placed at its end or at one of them.** -/
theorem Expr.placed_of_ofTokens {expression : String} {tokens : List PlacedToken}
    {complaint : Complaint} {position : Nat} (ht : Token.tokenize expression = .ok tokens)
    (he : ofTokens tokens = .error (.malformed complaint position)) :
    Placed (Lexeme.bytes (Text.normalize expression.toList)) tokens complaint position := by
  obtain ⟨hbalanced, ⟨stop, hcuts⟩, -⟩ := Token.tokenizeChars_eq_ok_iff.mp ht
  have hopen := hcuts.balanced_iff.mp hbalanced
  rw [← hcuts.stop_eq]
  rcases eq_or_ne tokens [] with rfl | hne
  · have hstop : stop = 0 := hcuts.exists_front.1
    cases he
    rw [hstop]
    exact .early (.inr rfl)
  · obtain ⟨used, ahead, o, rfl, hafter, hobjection⟩ := objects_of_ofTokens hne he
    have hdepth := (Outlook.depth_of_after? hafter (Nat.zero_le _)).1
    rw [List.map_append, Token.openAfter_append] at hopen
    change Token.openAfter 0 _ = _ at hdepth
    rw [hdepth, Option.bind_some] at hopen
    cases hobjection with
    | unexpectedEnd hdue =>
        -- nothing is open, so the text ends with the symbol of an operator
        have hzero : o.depth = 0 := by simpa [Token.openAfter] using hopen
        have hused : used.map (·.token) ≠ [] := by simpa using hne
        obtain ⟨front, op, hlast⟩ := Outlook.exists_operator_of_after? hused hafter hdue hzero
        obtain ⟨front, last, rfl, -, hop⟩ := List.map_eq_append_iff.mp hlast
        obtain ⟨⟨_, position⟩, rfl, rfl⟩ := List.map_eq_singleton_iff.mp hop
        rw [List.append_nil] at hcuts ⊢
        rw [hcuts.endOf_eq]
        exact .early (.inl rfl)
    | missingClosing => cases hopen
    | emptyParentheses | nestedTooDeeply | expectedOperand | expectedClosing =>
        exact .token (List.mem_append_right _ List.mem_cons_self) rfl nofun nofun
    | unexpectedToken =>
        refine .token (List.mem_append_right _ List.mem_cons_self) rfl nofun ?_
        rintro ⟨⟩
        cases hopen

/-- **A complaint about a text is placed exactly.**  Where a text is split into tokens and these
are not read as a tree, the complaint is placed at the end of the text exactly if it says that the
expression ends too early or is empty; every other one is placed where one of the tokens starts,
in front of the end.  Parentheses that do not match are found before anything is read: no complaint
is one of a parenthesis that is not closed, or of one that closes nothing. -/
theorem Expr.place_of_tokenized (expression : String) (tokens : List PlacedToken)
    (complaint : Complaint) (position : Nat) (ht : Token.tokenize expression = .ok tokens)
    (he : ofTokens tokens = .error (.malformed complaint position)) :
    let stop := Lexeme.bytes (Text.normalize expression.toList)
    (position = stop ↔ complaint.message = "unexpected end of expression" ∨
      complaint.message = "empty expression") ∧
    (position ≠ stop → position < stop ∧ ∃ t ∈ tokens, t.position = position) ∧
    complaint.message ≠ "missing closing parenthesis" ∧
    complaint.message ≠ "unexpected token ')'" := by
  intro stop
  obtain ⟨-, ⟨stop', hcuts⟩, -⟩ := Token.tokenizeChars_eq_ok_iff.mp ht
  obtain rfl : stop' = stop := hcuts.stop_eq
  cases placed_of_ofTokens ht he with
  | early h =>
      rcases h with rfl | rfl
      · exact ⟨iff_of_true rfl (.inl rfl), absurd rfl, by decide +kernel, by decide +kernel⟩
      · exact ⟨iff_of_true rfl (.inr rfl), absurd rfl, by decide +kernel, by decide +kernel⟩
  | @token t hmem hend hwords hclosing =>
      have hlt := hcuts.position_lt t hmem
      have hne (other : Complaint) (hother : other.isOfEnd = true) :
          complaint.message ≠ other.message := by
        intro h
        rw [Complaint.eq_of_message_eq h hother hwords, hother] at hend
        cases hend
      refine ⟨iff_of_false (Nat.ne_of_lt hlt) ?_, fun _ => ⟨hlt, t, hmem, rfl⟩, ?_, ?_⟩
      · exact not_or_intro (hne .unexpectedEnd rfl) (hne .emptyExpression rfl)
      · exact hne .missingClosing rfl
      · exact fun h => hclosing (Complaint.eq_unexpectedToken_closing h hwords)

/-- `1.50 +` ends too early, at its fifth byte, although the number in it is written shorter than it
is spelled there. -/
theorem Expr.place_behind_long_literal :
    Token.tokenize "1.50 +" = .ok [⟨.number 1.5, 0⟩, ⟨.operator .add, 4⟩] ∧
    ofTokens [⟨.number 1.5, 0⟩, ⟨.operator .add, 4⟩] = .error (.malformed .unexpectedEnd 5) ∧
    5 = Lexeme.bytes (Text.normalize "1.50 +".toList) := by
  have ht : Token.tokenize "1.50 +" = .ok [⟨.number 1.5, 0⟩, ⟨.operator .add, 4⟩] := by
    decide +kernel
  have he (value : Float) : ofTokens [⟨.number value, 0⟩, ⟨.operator .add, 4⟩] =
      .error (.malformed .unexpectedEnd 5) := by
    cbv
  exact ⟨ht, he 1.5, (place_of_tokenized _ _ _ _ ht (he 1.5)).1.mpr (.inl rfl)⟩

end Reckoner
