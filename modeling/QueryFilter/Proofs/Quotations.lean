import QueryFilter.Proofs.ErrorPositions
import QueryFilter.Proofs.NullBindings
import QueryFilter.Proofs.Parsing.Subjects

/-!
# What errors quote

An error about a token quotes the text of the lexeme that stands at its place, except for a literal
that is taken for a field: then the value is quoted, which is never the text of a string and not
always that of a number. `unexpected_quotes_iff` says when the two are the same.
-/

namespace QueryFilter

/-! ### Names and strings -/

theorem wordToken_name {word : List Char} {name : String} (isName : wordToken word = .name name) :
    String.ofList word = name := by
  unfold wordToken at isName
  cases found : keywords.lookup (String.ofList (word.map Char.toLower)) with
  | none =>
    rw [found] at isName
    exact Token.name.inj isName
  | some token =>
    have noName : ∀ entry ∈ keywords, entry.2 ≠ .name name := by simp [keywords]
    obtain ⟨before, after, same, -⟩ := List.lookup_eq_some_iff.mp found
    have listed : (String.ofList (word.map Char.toLower), token) ∈ keywords := by simp [same]
    rw [found] at isName
    exact absurd isName (noName _ listed)

/-- Every character of the value takes at least one of the body. -/
theorem Paired.length_le {quote : Char} {body value : List Char}
    (paired : Paired quote body value) : value.length ≤ body.length := by
  induction paired with
  | nil => exact Nat.le_refl _
  | plain _ _ _ ih => exact Nat.succ_le_succ ih
  | pair _ _ ih => exact Nat.le_succ_of_le (Nat.succ_le_succ ih)

namespace Lexer

variable {l after : Lexer} {lexeme : Lexeme}

theorem next_name (read : l.next = (.ok (some lexeme), after)) {name : String}
    (isName : lexeme.token = .name name) : lexeme.text = name := by
  obtain ⟨position, c, cs, text, rest, text_eq, described⟩ := next_cut read
  rw [isName] at described
  rw [text_eq]
  generalize cut_eq : Cut.mk (.ok (.name name)) text rest = front at described
  cases described with
  | string | number | unterminated | invalidNumber | unexpected => cases cut_eq
  | word =>
    obtain ⟨isWord, rfl, -⟩ := Cut.mk.inj cut_eq
    exact wordToken_name (Except.ok.inj isWord).symm
  | symbol unquoted noNumber noWord found =>
    have noName : ∀ entry ∈ symbols, entry.2 ≠ .name name := by simp [symbols]
    cases cut_eq
    exact absurd rfl (noName _ (symbol_ok found).1)

/-- The text of a string has two quotes that its value lacks. -/
theorem next_string (read : l.next = (.ok (some lexeme), after)) {value : String}
    (isString : lexeme.token = .literal (.string value)) : value ≠ lexeme.text := by
  obtain ⟨position, c, cs, text, rest, text_eq, described⟩ := next_cut read
  rw [isString] at described
  rw [text_eq]
  generalize cut_eq : Cut.mk (.ok (.literal (.string value))) text rest = front at described
  cases described with
  | unterminated | invalidNumber | unexpected => cases cut_eq
  | @string chars inside _ quote body =>
    cases cut_eq
    obtain ⟨body, rfl, -, paired⟩ := paired_of_stringBody body
    intro same
    have lengths := congrArg List.length (String.ofList_injective same)
    have shorter := paired.length_le
    simp only [List.length_cons, List.length_append, List.length_nil] at lengths
    omega
  | number unquoted read fits =>
    cases cut_eq
    unfold Numeral.literal? at fits
    split at fits
    · split at fits <;> cases fits
    · cases fits
  | word => exact absurd (Except.ok.inj (Cut.mk.inj cut_eq).1).symm (wordToken_not_literal _ _)
  | symbol unquoted noNumber noWord found =>
    cases cut_eq
    exact absurd rfl (symbol_not_literal (symbol_ok found).1 _)

end Lexer

/-! ### Errors -/

/-- An error that quotes a token is about the lexeme at the place that it names, and says its text,
unless the lexeme is a literal with which a term starts and the next word asks for a field. Then it
says the text of the value, which is another one for every string. -/
theorem unexpected_quotes_iff {limits : Limits} {text quoted : String} {p : Nat}
    (rejected : parse limits text = .error (.unexpectedToken quoted p)) :
    ∃ before l after, tokenize text = .ok (before ++ l :: after) ∧ l.position = p ∧
      (∃ front back, StandsAt text p front l.text back) ∧
      (quoted = l.text ↔ ∀ value, LiteralSubject before l after value → value.text = l.text) ∧
      (∀ value, LiteralSubject before l after value → quoted = value.text) ∧
      ∀ s, LiteralSubject before l after (.string s) → quoted ≠ l.text := by
  rcases bind_error_iff.mp rejected with failed | ⟨lexemes, tokenized, rejected⟩
  · obtain ⟨before, after, c, -, place, points⟩ := tokenize_pointsInto failed
    obtain ⟨lexemes, tokenized, -⟩ := points
    rw [failed] at tokenized
    cases tokenized
  · obtain ⟨before, l, after, rfl, rfl, quotes⟩ := parseLexemes_quotes rejected
    obtain ⟨start, behind, read⟩ := Lexer.next_of_mem tokenized l (by simp)
    have placed : ∃ front back, StandsAt text l.position front l.text back := by
      obtain ⟨front, back, split, place⟩ := (lexemes_tiled tokenized).placed l (by simp)
      rw [place, Lexer.ofText, Nat.zero_add, ← String.ofList_toList (s := l.text)]
      exact ⟨_, _, standsAt_of_split split⟩
    refine ⟨before, l, after, tokenized, rfl, placed, ?_⟩
    have strings (s : String) (subject : LiteralSubject before l after (.string s)) :
        (Literal.string s).text ≠ l.text := Lexer.next_string read subject.isLiteral
    cases quotes with
    | text noSubject => simp [noSubject]
    | name isName =>
      have noSubject (value : Literal) : ¬ LiteralSubject before l after value := by
        rintro ⟨isLiteral, -, -⟩
        rw [isName] at isLiteral
        cases isLiteral
      simp [noSubject, Lexer.next_name read isName]
    | @value value subject =>
      have only (other : Literal) (subject' : LiteralSubject before l after other) :
          other = value :=
        Token.literal.inj (subject'.isLiteral.symm.trans subject.isLiteral)
      refine ⟨?_, ?_, ?_⟩
      · constructor
        · rintro same other subject'
          rw [only other subject', same]
        · exact fun same => same value subject
      · intro other subject'
        rw [only other subject']
      · intro s subject'
        rw [← only _ subject']
        exact strings s subject'

/-- The zeros in front are not quoted. -/
theorem unexpected_quotes_iff_leading_zeros :
    parse {} "x = 1 or 007 !=[] (1)" = .error (.unexpectedToken "7" 9) ∧
      ∃ before l after, tokenize "x = 1 or 007 !=[] (1)" = .ok (before ++ l :: after) ∧
        l.position = 9 ∧ l.text = "007" ∧
        (∃ front back, StandsAt "x = 1 or 007 !=[] (1)" 9 front "007" back) ∧
        ∃ value, LiteralSubject before l after value ∧ value.text = "7" := by
  have tokenized : tokenize "x = 1 or 007 !=[] (1)" = .ok [⟨.name "x", "x", 0⟩,
      ⟨.comparison .equal, "=", 2⟩, ⟨.literal (.integer 1), "1", 4⟩, ⟨.or, "or", 6⟩,
      ⟨.literal (.integer 7), "007", 9⟩, ⟨.notIn, "!=[]", 13⟩, ⟨.openParen, "(", 18⟩,
      ⟨.literal (.integer 1), "1", 19⟩, ⟨.closeParen, ")", 20⟩] := by decide +kernel
  have rejected : parse {} "x = 1 or 007 !=[] (1)" = .error (.unexpectedToken "7" 9) := by
    rw [parse, tokenized]
    rfl
  obtain ⟨before, l, after, split, position_eq, placed, quoted_iff, quoted, -⟩ :=
    unexpected_quotes_iff rejected
  have written : l.text = "007" := by
    have only : ∀ m ∈ before ++ l :: after, m.position = 9 → m.text = "007" := by
      rw [← Except.ok.inj (tokenized.symm.trans split)]
      decide
    exact only l (by simp) position_eq
  rw [written] at quoted_iff placed
  have differs : ¬ ∀ value, LiteralSubject before l after value → value.text = "007" :=
    fun same => absurd (quoted_iff.mpr same) (by decide)
  obtain ⟨value, differs⟩ := not_forall.mp differs
  obtain ⟨subject, -⟩ := Classical.not_imp.mp differs
  exact ⟨rejected, before, l, after, split, position_eq, written, placed, value, subject,
    (quoted value subject).symm⟩

/-- A string is quoted without its quotes, so that what is quoted does not stand at its place. -/
theorem string_quoted_bare :
    parse {} "'a' is null" = .error (.unexpectedToken "a" 0) ∧
      tokenize "'a' is null" =
        .ok [⟨.literal (.string "a"), "'a'", 0⟩, ⟨.is, "is", 4⟩, ⟨.null, "null", 7⟩] ∧
      ¬ ∃ before after, StandsAt "'a' is null" 0 before "a" after := by
  have tokenized : tokenize "'a' is null" =
      .ok [⟨.literal (.string "a"), "'a'", 0⟩, ⟨.is, "is", 4⟩, ⟨.null, "null", 7⟩] := by
    decide +kernel
  refine ⟨?_, tokenized, ?_⟩
  · rw [parse, tokenized]
    rfl
  · rintro ⟨before, after, split, place⟩
    obtain rfl := String.utf8ByteSize_eq_zero_iff.mp place
    have first := congrArg (fun s : String => s.toList.head?) split
    simp at first

end QueryFilter
