import QueryFilter.Proofs.Lexing.Partition

/-!
# Calls of the lexer

One call takes blanks and what was cut off behind them from the front of the text, whatever its
outcome, and leaves the rest as it was. So after any number of calls, also behind an error, the
lexer stands in the text that it was made for, and its position is the byte offset of the rest.
-/

namespace QueryFilter

/-! ### Cuts -/

/-- What is cut off a text and what is left of it make up the text. -/
theorem cut_parts (position : Nat) (c : Char) (cs : List Char) :
    (cut position c cs).text ++ (cut position c cs).rest = c :: cs := by
  have described := cut_of position c cs
  generalize cut position c cs = front at described ⊢
  cases described with
  | string quote read =>
    rw [(stringBody_ok (backslash_not_quote quote) read).1, List.cons_append]
  | unterminated => exact List.append_nil _
  | number unquoted read fits => exact (numeral_ok read).2.2.symm
  | invalidNumber unquoted read exceeds => exact (numeral_ok read).2.2.symm
  | word => exact List.takeWhile_append_dropWhile
  | symbol unquoted noNumber noWord read =>
    obtain ⟨-, rest, same⟩ := symbol_ok read
    rw [same, List.drop_left]
  | unexpected => rfl

/-! ### Places -/

namespace Lexer

/-- The unread text is a suffix of the whole text, and the position is where it starts. -/
def StandsIn (text : String) (l : Lexer) : Prop :=
  ∃ before : List Char, text.toList = before ++ l.rest ∧ l.position = utf8Width before

/-- The lexer of a text after some calls, of which some may have failed. -/
def afterCalls (text : String) (calls : Nat) : Lexer :=
  (fun l : Lexer => l.next.2)^[calls] (ofText text)

theorem next_standsIn {text : String} {l : Lexer} (stands : l.StandsIn text) :
    l.next.2.StandsIn text := by
  obtain ⟨before, text_eq, position_eq⟩ := stands
  rcases l.blanks_split with blank | ⟨blanks, c, cs, blank, visible, same⟩
  · rw [next_end blank]
    exact ⟨before ++ l.rest, by rw [text_eq, List.append_nil],
      by rw [utf8Width_append, position_eq]⟩
  · have parts := cut_parts (l.position + utf8Width blanks) c cs
    have rest_eq : l.rest = blanks ++ c :: cs := congrArg Lexer.rest same
    rw [same, next_blanks blank, next_visible visible]
    generalize cut (l.position + utf8Width blanks) c cs = front at parts
    refine ⟨before ++ (blanks ++ front.text), ?_, ?_⟩
    · rw [text_eq, rest_eq, ← parts]
      simp only [List.append_assoc]
    · simp only [utf8Width_append, position_eq]
      omega

theorem afterCalls_standsIn (text : String) (calls : Nat) :
    (afterCalls text calls).StandsIn text := by
  induction calls with
  | zero => exact ⟨[], rfl, rfl⟩
  | succ calls ih =>
    rw [afterCalls, Function.iterate_succ_apply']
    exact next_standsIn ih

end Lexer

end QueryFilter
