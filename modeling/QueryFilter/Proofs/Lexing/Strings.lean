import QueryFilter.Proofs.Lexing.Calls

/-!
# Strings between quotes

Every string can be written between quotes of both kinds, and is read back whatever stands behind
the second quote. The other way round, what is read behind a quote ends at the first matching quote
that is not escaped, and there is nothing to read if there is none: `next_quoted`.
-/

namespace QueryFilter

variable {quote : Char} {cs body rest value : List Char}

/-! ### Writing -/

/-- How a string may be written between quotes. A backslash and the quote itself need a backslash in
front, a line feed, a tab and a carriage return may be written with a letter. -/
inductive QuotedAs (quote : Char) : List Char → List Char → Prop where
  | nil : QuotedAs quote [] []
  | plain {c : Char} {value body : List Char} (noEscape : c ≠ '\\') (noQuote : c ≠ quote)
    (more : QuotedAs quote value body) : QuotedAs quote (c :: value) (c :: body)
  | escaped {c : Char} {value body : List Char} (special : c = '\\' ∨ c = quote)
    (more : QuotedAs quote value body) : QuotedAs quote (c :: value) ('\\' :: c :: body)
  | lineFeed {value body : List Char} (more : QuotedAs quote value body) :
    QuotedAs quote ('\n' :: value) ('\\' :: 'n' :: body)
  | tab {value body : List Char} (more : QuotedAs quote value body) :
    QuotedAs quote ('\t' :: value) ('\\' :: 't' :: body)
  | carriageReturn {value body : List Char} (more : QuotedAs quote value body) :
    QuotedAs quote ('\r' :: value) ('\\' :: 'r' :: body)

theorem exists_quotedAs (quote : Char) (value : List Char) : ∃ body, QuotedAs quote value body := by
  induction value with
  | nil => exact ⟨[], .nil⟩
  | cons c value ih =>
    obtain ⟨body, more⟩ := ih
    by_cases special : c = '\\' ∨ c = quote
    · exact ⟨_, .escaped special more⟩
    · obtain ⟨noEscape, noQuote⟩ := not_or.mp special
      exact ⟨_, .plain noEscape noQuote more⟩

theorem paired_of_quotedAs (isQuote : quote = '"' ∨ quote = '\x27')
    (written : QuotedAs quote value body) : Paired quote body value := by
  induction written with
  | nil => exact .nil
  | plain noEscape noQuote _ ih => exact .plain noEscape noQuote ih
  | @escaped c value body special _ ih =>
    have itself : unescaped c = c := by
      rcases special with rfl | rfl
      · rfl
      · rcases isQuote with rfl | rfl <;> rfl
    have paired := Paired.pair c ih
    rwa [itself] at paired
  | lineFeed _ ih => exact .pair 'n' ih
  | tab _ ih => exact .pair 't' ih
  | carriageReturn _ ih => exact .pair 'r' ih

/-! ### Calls -/

theorem isBlank_of_isQuote (isQuote : quote = '"' ∨ quote = '\x27') :
    Text.isBlank quote = false := by
  rcases isQuote with rfl | rfl <;> decide

namespace Lexer

theorem next_endsBehind (isQuote : quote = '"' ∨ quote = '\x27') (position : Nat)
    (ends : EndsBehind quote cs body rest) : (⟨position, quote :: cs⟩ : Lexer).next =
      (.ok (some ⟨.literal (.string (String.ofList (resolved body))),
          String.ofList (quote :: (body ++ [quote])), position⟩),
        ⟨position + utf8Width (quote :: (body ++ [quote])), rest⟩) := by
  have read := stringBody_of_endsBehind (backslash_not_quote isQuote) ends
  exact next_of_cut (isBlank_of_isQuote isQuote) (Cut.Of.string isQuote read).eq

theorem next_unclosed (isQuote : quote = '"' ∨ quote = '\x27') (position : Nat)
    (unclosed : Unclosed quote cs) : (⟨position, quote :: cs⟩ : Lexer).next =
      (.error (.unterminatedString position), ⟨position + utf8Width (quote :: cs), []⟩) := by
  rcases endsBehind_or_unclosed (backslash_not_quote isQuote) cs with
    ⟨body, rest, ends⟩ | ⟨-, unread⟩
  · exact absurd ends.unescaped (unclosed _ _ ends.parts)
  · rw [next_visible (isBlank_of_isQuote isQuote), (Cut.Of.unterminated isQuote unread).eq]
    rfl

end Lexer

/-- Every string can be written between quotes and is then read back. Behind a quote a string is
read exactly if a matching quote follows that is not escaped. The first such quote ends it, and if
there is none all of the text is taken and the string is unterminated. -/
theorem next_quoted (isQuote : quote = '"' ∨ quote = '\x27') (position : Nat) :
    (∀ value : String, ∃ body, QuotedAs quote value.toList body) ∧
    (∀ (value : String) (body rest : List Char), QuotedAs quote value.toList body →
      (⟨position, quote :: (body ++ quote :: rest)⟩ : Lexer).next =
        (.ok (some
            ⟨.literal (.string value), String.ofList (quote :: (body ++ [quote])), position⟩),
          ⟨position + utf8Width (quote :: (body ++ [quote])), rest⟩)) ∧
    ∀ cs,
      ((∃ lexeme after, (⟨position, quote :: cs⟩ : Lexer).next = (.ok lexeme, after)) ↔
        ∃ before after, cs = before ++ quote :: after ∧ Unescaped before) ∧
      (∀ body rest, EndsBehind quote cs body rest → (⟨position, quote :: cs⟩ : Lexer).next =
        (.ok (some ⟨.literal (.string (String.ofList (resolved body))),
            String.ofList (quote :: (body ++ [quote])), position⟩),
          ⟨position + utf8Width (quote :: (body ++ [quote])), rest⟩)) ∧
      (Unclosed quote cs → (⟨position, quote :: cs⟩ : Lexer).next =
        (.error (.unterminatedString position), ⟨position + utf8Width (quote :: cs), []⟩)) := by
  have noEscape : quote ≠ '\\' := backslash_not_quote isQuote
  refine ⟨fun value => exists_quotedAs quote value.toList, ?_, ?_⟩
  · intro value body rest written
    have paired := paired_of_quotedAs isQuote written
    rw [Lexer.next_endsBehind isQuote position (paired.endsBehind noEscape rest),
      paired.resolved_eq, String.ofList_toList]
  · intro cs
    refine ⟨⟨?_, ?_⟩, fun body rest => Lexer.next_endsBehind isQuote position,
      Lexer.next_unclosed isQuote position⟩
    · rintro ⟨lexeme, after, read⟩
      rcases endsBehind_or_unclosed noEscape cs with ⟨body, rest, ends⟩ | ⟨unclosed, -⟩
      · exact ⟨body, rest, ends.parts, ends.unescaped⟩
      · rw [Lexer.next_unclosed isQuote position unclosed] at read
        cases read
    · rintro ⟨before, after, parts, unescaped⟩
      rcases endsBehind_or_unclosed noEscape cs with ⟨body, rest, ends⟩ | ⟨unclosed, -⟩
      · exact ⟨_, _, Lexer.next_endsBehind isQuote position ends⟩
      · exact absurd unescaped (unclosed before after parts)

/-- Of three backslashes before a quote the third escapes it, and of one the only one. -/
theorem next_quoted_backslashes :
    ('\x27' = '"' ∨ '\x27' = '\x27') ∧
      QuotedAs '\x27' "\\'\n".toList "\\\\\\'\\n".toList ∧
      (⟨7, '\x27' :: ("\\\\\\'\\n".toList ++ '\x27' :: "x".toList)⟩ : Lexer).next =
        (.ok (some ⟨.literal (.string "\\'\n"), "'\\\\\\'\\n'", 7⟩), ⟨15, "x".toList⟩) ∧
      EndsBehind '\x27' "\\\\'x".toList "\\\\".toList "x".toList ∧
      (⟨7, '\x27' :: "\\\\'x".toList⟩ : Lexer).next =
        (.ok (some ⟨.literal (.string "\\"), "'\\\\'", 7⟩), ⟨11, "x".toList⟩) ∧
      Unclosed '\x27' "\\'x".toList ∧
      (⟨7, '\x27' :: "\\'x".toList⟩ : Lexer).next = (.error (.unterminatedString 7), ⟨11, []⟩) := by
  have isQuote : '\x27' = '"' ∨ '\x27' = '\x27' := .inr rfl
  have noEscape : '\x27' ≠ '\\' := by decide
  have written : QuotedAs '\x27' "\\'\n".toList "\\\\\\'\\n".toList :=
    .escaped (.inl rfl) (.escaped (.inr rfl) (.lineFeed .nil))
  have ends : EndsBehind '\x27' "\\\\'x".toList "\\\\".toList "x".toList :=
    (Paired.pair '\\' .nil).endsBehind noEscape _
  have unclosed : Unclosed '\x27' "\\'x".toList :=
    unclosed_pair noEscape _ (unclosed_plain (by decide) (by decide) unclosed_nil)
  obtain ⟨-, readBack, outcome⟩ := next_quoted isQuote 7
  exact ⟨isQuote, written, readBack _ _ _ written, ends, (outcome _).2.1 _ _ ends, unclosed,
    (outcome _).2.2 unclosed⟩

end QueryFilter
