import Reckoner.Proofs.Grammar.Depth
import Reckoner.Proofs.Grammar.Flat
import Reckoner.Proofs.Lexing.Placing

/-!
# Language — printed trees

A printed tree has parentheses around every operator and blanks around its symbol.  Without the
blanks it is the text of the tokens `Expr.tokens`, one behind the other (`normalize_text`); they
have a derivation with that very tree, and their parentheses nest as deep as the operators of the
tree do (`exists_derivation`).

**A printed tree is split into its tokens and read back as itself**, if it has literals that can
be written at all and its operators nest no deeper than parentheses may; **one that is higher fails
for its depth** (`ofTokens_tokenize_text`).
-/

namespace Reckoner.Expr

/-- The largest number of operators on a path from the root to a leaf. -/
def height : Expr → Nat
  | literal _           => 0
  | binary _ left right => max left.height right.height + 1

/-- Every literal is finite, with a clear sign. -/
def Printable : Expr → Prop
  | literal value       => (Token.number value).Spellable
  | binary _ left right => left.Printable ∧ right.Printable

/-- The tokens of a printed tree. -/
def tokens : Expr → List Token
  | literal value        => [.number value]
  | binary op left right => .opening :: (left.tokens ++ .operator op :: (right.tokens ++ [.closing]))

/-! ### The text of a tree -/

theorem Printable.spellable {e : Expr} (h : e.Printable) : ∀ t ∈ e.tokens, t.Spellable := by
  induction e with
  | literal value =>
      intro t ht
      obtain rfl := List.mem_singleton.mp ht
      exact h
  | binary op left right ihl ihr =>
      intro t ht
      simp only [tokens, List.mem_cons, List.mem_append, List.not_mem_nil, or_false] at ht
      rcases ht with rfl | ht | rfl | ht | rfl
      · trivial
      · exact ihl h.1 t ht
      · trivial
      · exact ihr h.2 t ht
      · trivial

/-- **A printed tree is its tokens written one behind the other**, its blanks aside. -/
theorem normalize_text {e : Expr} (h : e.Printable) :
    Text.normalize e.text.toList = Token.texts e.tokens := by
  rw [text_eq_spelling]
  induction e with
  | literal value =>
      have hnumber : Text.normalize (Token.number value).text.toList = _ :=
        (Token.Spellable.spells h).normalize_eq
      simpa [spelling, tokens, Token.texts, Token.text] using hnumber
  | binary op left right ihl ihr =>
      have hopening : Text.normalize "(".toList = "(".toList := by decide
      have hblank : Text.normalize " ".toList = [] := by decide
      have hclosing : Text.normalize ")".toList = ")".toList := by decide
      have hsymbol : Text.normalize op.symbol.toList = op.symbol.toList :=
        (Lexeme.Spells.operator op).normalize_eq
      simp only [spelling, String.toList_append, Text.normalize_append, hopening, hblank, hclosing,
        hsymbol, ihl h.1, ihr h.2]
      simp [Token.texts, tokens, Token.text]

/-! ### Its derivation -/

/-- **A printed tree has a derivation with that tree**, nested as deep as the tree is high. -/
theorem exists_derivation (e : Expr) :
    ∃ d : Derivation .atom, d.tokens = e.tokens ∧ d.nesting = e.height ∧ d.tree = e := by
  induction e with
  | literal value => exact ⟨.number value, rfl, rfl, rfl⟩
  | binary op left right ihl ihr =>
      obtain ⟨l, hlt, hln, hle⟩ := ihl
      obtain ⟨r, hrt, hrn, hre⟩ := ihr
      obtain ⟨d, hdt, hdn, hde⟩ := (Derivation.plain l).exists_prepend op (.ofUnary (.plain r))
      have hde := hde (.plain r) rfl
      refine ⟨.group d, ?_, ?_, ?_⟩
      · simp [Derivation.tokens, tokens, hdt, hlt, hrt]
      · simp [Derivation.nesting, height, hdn, hln, hrn]
      · simp [Derivation.tree, hde, hle, hre]

/-- The tokens of a printed tree are an operand of the flat grammar. -/
theorem flat_tokens (e : Expr) : Flat .operand e.height e.tokens := by
  induction e with
  | literal value => exact .number
  | binary op left right ihl ihr =>
      have hword : Flat .word (max left.height right.height)
          (left.tokens ++ .operator op :: right.tokens) :=
        .positive (.link (ihl.mono (Nat.le_max_left _ _)) op
          (.single (ihr.mono (Nat.le_max_right _ _))))
      simpa [tokens, height] using Flat.group hword

/-- The tokens of a printed tree stay apart when they are written. -/
theorem apart_tokens (e : Expr) : e.tokens.IsChain Token.Apart := by
  -- where operators follow operands and operands operators, no two of a kind meet
  have hplaced := e.flat_tokens.placed .opening [] rfl (.singleton _)
  rw [List.append_nil] at hplaced
  refine hplaced.tail.imp fun a b hab => ?_
  cases a <;> cases b <;> simp_all [Token.MayPrecede, Token.Apart, Token.leavesDue]

/-- A printed tree is split into its tokens. -/
theorem tokenize_text {e : Expr} (h : e.Printable) :
    Token.tokenize e.text = .ok (Token.place 0 e.tokens) := by
  obtain ⟨d, ht, -, -⟩ := e.exists_derivation
  have hopen := d.openAfter_tokens 0 []
  rw [List.append_nil, ht] at hopen
  exact Token.tokenize_of_texts (normalize_text h) h.spellable e.apart_tokens hopen

/-- **A printed tree is read back as itself.**  If all its literals are finite with a clear sign,
its text is split into tokens; these are read as the tree itself if no path in it passes more
operators than parentheses may nest, and fail for their depth if one does. -/
theorem ofTokens_tokenize_text (e : Expr) (h : e.Printable) :
    ∃ tokens, Token.tokenize e.text = .ok tokens ∧
      (e.height ≤ nestingLimit → ofTokens tokens = .ok e) ∧
      (nestingLimit < e.height →
        ∃ position, ofTokens tokens = .error (.malformed .nestedTooDeeply position)) := by
  obtain ⟨d, ht, hn, he⟩ := e.exists_derivation
  have hplaced : (Derivation.ofUnary (.plain d)).tokens =
      (Token.place 0 e.tokens).map (·.token) := by
    rw [Derivation.tokens_ofUnary, Token.map_token_place]
    exact ht
  have hread := ofTokens_of_derivation (.ofUnary (.plain d)) hplaced
  rw [Derivation.nesting_ofUnary, Derivation.tree_ofUnary, Derivation.nesting, Derivation.tree, hn,
    he] at hread
  exact ⟨_, tokenize_text h, hread⟩

/-- The least positive double to the power of the largest one, taken from zero, is read back. -/
theorem ofTokens_tokenize_extremes :
    ∃ e tokens, e = .negate (.binary .pow (.literal (Binary64.ofWord false 1))
        (.literal (Binary64.ofWord false 0x7FEFFFFFFFFFFFFF))) ∧
      Printable e ∧ Token.tokenize e.text = .ok tokens ∧ ofTokens tokens = .ok e := by
  have h : Printable (.negate (.binary .pow (.literal (Binary64.ofWord false 1))
      (.literal (Binary64.ofWord false 0x7FEFFFFFFFFFFFFF)))) :=
    ⟨⟨by decide, by decide⟩, ⟨by decide, by decide⟩, by decide, by decide⟩
  obtain ⟨tokens, ht, hread, -⟩ := ofTokens_tokenize_text _ h
  exact ⟨_, tokens, rfl, h, ht, hread (by decide)⟩

end Reckoner.Expr
