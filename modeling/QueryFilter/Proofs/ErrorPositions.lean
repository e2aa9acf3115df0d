import Mathlib.Data.List.Basic
import QueryFilter.Proofs.Lexing.Longest
import QueryFilter.Proofs.Parsing.Parentheses

/-!
# Where errors point

The position of an error is the place of its cause in the text, for the errors of the lexer as for
those of the parser: `parse_error_position`. What is wrong at that place depends on the error, and
`FilterError.PointsInto` says it for each.
-/

namespace QueryFilter

/-- The part stands in the text at the byte offset `position`, between the two others. -/
def StandsAt (text : String) (position : Nat) (before part after : String) : Prop :=
  text = before ++ part ++ after ∧ before.utf8ByteSize = position

/-- All the digits between the two texts, with the sign in front of them if there is one. -/
structure LongestDigits (before : String) (negative : Bool) (digits : List Char) (after : String) :
    Prop where
  nonempty : digits ≠ []
  digits : ∀ c ∈ digits, c.isDigit
  noDigitBefore : negative = false → ∀ c ∈ before.toList.getLast?, c.isDigit = false ∧ c ≠ '-'
  noDigitBehind : ∀ c ∈ after.toList.head?, c.isDigit = false

/-- What an error says of the place that it names is so. An error without a place says nothing. -/
def FilterError.PointsInto (text : String) : FilterError → Prop
  | .unexpectedCharacter c position =>
    ∃ before after, StandsAt text position before (String.singleton c) after
  | .unterminatedString position => ∃ before quote after, (quote = '"' ∨ quote = '\x27') ∧
    StandsAt text position before (String.singleton quote) after ∧ Unclosed quote after.toList
  | .invalidNumber literal position => ∃ before after negative digits,
    StandsAt text position before literal after ∧
    literal.toList = (if negative then ['-'] else []) ++ digits ∧
    LongestDigits before negative digits after ∧
    ∃ value : Int, value = (if negative then -1 else 1) * Nat.ofDigitChars 10 digits 0 ∧
      (value < -2 ^ 63 ∨ 2 ^ 63 - 1 < value)
  | .unexpectedToken _ position => ∃ lexemes, tokenize text = .ok lexemes ∧
    ∃ l ∈ lexemes, l.position = position
  | .unclosedParenthesis position => ∃ before l after, tokenize text = .ok (before ++ l :: after) ∧
    l.token = .openParen ∧ l.position = position ∧ ¬ HasPartner (after.map Lexeme.token) ∧
    ∀ between later behind, after = between ++ later :: behind → later.token = .openParen →
      HasPartner (behind.map Lexeme.token)
  | .emptyList position => ∃ before word opening closing after,
    tokenize text = .ok (before ++ word :: opening :: closing :: after) ∧
    (word.token = .isIn ∨ word.token = .notIn) ∧ opening.token = .openParen ∧
    opening.position = position ∧ closing.token = .closeParen
  | _ => True

variable {text : String} {e : FilterError}

theorem standsAt_of_split {before part after : List Char}
    (split : text.toList = before ++ (part ++ after)) : StandsAt text (utf8Width before)
      (String.ofList before) (String.ofList part) (String.ofList after) := by
  constructor
  · apply String.toList_inj.mp
    simp [split]
  · rw [← utf8Width_toList, String.toList_ofList]

theorem standsAt_char {before after : List Char} {c : Char}
    (split : text.toList = before ++ c :: after) : StandsAt text (utf8Width before)
      (String.ofList before) (String.singleton c) (String.ofList after) := by
  rw [String.singleton_eq_ofList]
  exact standsAt_of_split split

/-! ### The lexer -/

/-- No number goes on from the one text into the other. -/
def NumberEnds (before rest : List Char) : Prop :=
  ∀ d ∈ before.getLast?, d.isDigit ∨ d = '-' → ∀ c ∈ rest.head?, c.isDigit = false

theorem numberEnds_append {front last : List Char} (nonempty : last ≠ []) {rest : List Char} :
    NumberEnds (front ++ last) rest ↔ NumberEnds last rest := by
  unfold NumberEnds
  rw [List.getLast?_append_of_ne_nil _ nonempty]

theorem numberEnds_blanks {before blanks rest : List Char}
    (ends : NumberEnds before (blanks ++ rest)) (blank : ∀ b ∈ blanks, Text.isBlank b) :
    NumberEnds (before ++ blanks) rest := by
  by_cases none : blanks = []
  · subst none
    simpa using ends
  · rw [numberEnds_append none]
    intro d isLast number
    have isBlank : Text.isBlank d := blank d (List.mem_of_mem_getLast? isLast)
    rcases number with digit | rfl
    · rw [isBlank_of_isDigit digit] at isBlank
      cases isBlank
    · cases isBlank

/-- A number that no other number reaches is all of the digits that stand there. -/
theorem longestDigits_of_numberEnds {before rest : List Char} {n : Numeral} (proper : n.Proper)
    (ends : NumberEnds before (n.text ++ rest)) (endsAt : n.EndsAt rest) :
    LongestDigits (String.ofList before) n.negative n.digits (String.ofList rest) where
  nonempty := proper.nonempty
  digits := proper.digits
  noDigitBefore := by
    intro positive d isLast
    rw [String.toList_ofList] at isLast
    obtain ⟨first, digits, digits_eq⟩ := List.exists_cons_of_ne_nil proper.nonempty
    have isFirst : first ∈ (n.text ++ rest).head? := by simp [Numeral.text, positive, digits_eq]
    have isDigit : first.isDigit := proper.digits first (by simp [digits_eq])
    have apart : ¬(d.isDigit ∨ d = '-') := by
      intro number
      rw [ends d isLast number first isFirst] at isDigit
      cases isDigit
    simpa using apart
  noDigitBehind := by
    rw [String.toList_ofList]
    exact endsAt.noDigit

theorem cut_numberEnds {position : Nat} {c : Char} {cs : List Char} {token : Token}
    (read : (cut position c cs).outcome = .ok token) :
    NumberEnds (cut position c cs).text (cut position c cs).rest := by
  have described := cut_of position c cs
  generalize cut position c cs = front at read described ⊢
  cases described with
  | unterminated | invalidNumber | unexpected => cases read
  | number unquoted number fits =>
    intro d _ _
    exact (numeral_ok number).2.1.noDigit
  | word =>
    intro d _ _ c isHead
    have noPart : isWordPart c = false := head_dropWhile c isHead
    cases digit : c.isDigit with
    | false => rfl
    | true => simp [isWordPart, Char.isAlphanum, digit] at noPart
  | string quote body =>
    obtain ⟨inside, rfl, -, -⟩ := paired_of_stringBody body
    intro d isLast number
    rw [← List.cons_append, List.getLast?_concat] at isLast
    obtain rfl := Option.some.inj isLast
    rcases quote with rfl | rfl <;> simp at number
  | symbol unquoted noNumber noWord found =>
    have noNumberEnd : ∀ entry ∈ symbols,
        entry.1.getLast?.all fun d => ¬(d.isDigit ∨ d = '-') := by decide
    intro d isLast number
    have last := noNumberEnd _ (symbol_ok found).1
    rw [Option.mem_def.mp isLast, Option.all_some] at last
    exact absurd number (of_decide_eq_true last)

namespace Lexer

variable {l after : Lexer} {lexeme : Lexeme}

/-- The lexer stands in the text, and not within a number. -/
def StandsApart (text : String) (l : Lexer) : Prop :=
  ∃ before : List Char, text.toList = before ++ l.rest ∧ l.position = utf8Width before ∧
    NumberEnds before l.rest

theorem next_standsApart (stands : l.StandsApart text)
    (read : l.next = (.ok (some lexeme), after)) : after.StandsApart text := by
  obtain ⟨before, text_eq, position_eq, -⟩ := stands
  rcases l.blanks_split with blank | ⟨blanks, c, cs, blank, visible, same⟩
  · rw [next_end blank] at read
    cases read
  · have rest_eq : l.rest = blanks ++ c :: cs := congrArg Lexer.rest same
    rw [same, next_blanks blank, next_visible visible] at read
    obtain ⟨outcome, rfl⟩ := Prod.mk.inj read
    obtain ⟨token, isToken, -⟩ := map_ok outcome
    have ends := cut_numberEnds isToken
    obtain ⟨more, rest, cutEq, rfl, -⟩ := cut_ok isToken
    rw [cutEq] at ends ⊢
    refine ⟨before ++ blanks ++ c :: more, ?_, ?_, ?_⟩
    · simp [text_eq, rest_eq]
    · simp only [utf8Width_append, position_eq]
    · exact (numberEnds_append (List.cons_ne_nil c more)).mpr ends

/-- A run that fails does so at some place of the text. -/
theorem failed_standsApart (stands : l.StandsApart text) (failed : l.lexemes = .error e) :
    ∃ last : Lexer, last.StandsApart text ∧ last.next.1 = .error e := by
  fun_induction lexemes l with
  | case1 l cause after next =>
    cases failed
    exact ⟨l, stands, by rw [next]⟩
  | case2 => cases failed
  | case3 l lexeme after next ih =>
    cases rest : after.lexemes with
    | ok ls =>
      rw [rest] at failed
      cases failed
    | error cause =>
      rw [rest] at failed
      cases failed
      exact ih (next_standsApart stands next) rest

/-- A call fails at the first character that is no blank. -/
theorem next_pointsInto (stands : l.StandsApart text) (failed : l.next.1 = .error e) :
    ∃ (before after : List Char) (c : Char), text.toList = before ++ c :: after ∧
      e.position? = some (utf8Width before) ∧ e.PointsInto text := by
  obtain ⟨start, text_eq, position_eq, ends⟩ := stands
  rcases l.blanks_split with blank | ⟨blanks, c, cs, blank, visible, same⟩
  · rw [next_end blank] at failed
    cases failed
  · have rest_eq : l.rest = blanks ++ c :: cs := congrArg Lexer.rest same
    rw [rest_eq] at text_eq ends
    replace ends := numberEnds_blanks ends blank
    have split : text.toList = (start ++ blanks) ++ c :: cs := by rw [text_eq, List.append_assoc]
    have place : l.position + utf8Width blanks = utf8Width (start ++ blanks) := by
      rw [utf8Width_append, position_eq]
    rw [same, next_blanks blank, next_visible visible, place] at failed
    generalize start ++ blanks = before at split ends failed
    have described := cut_of (utf8Width before) c cs
    generalize cut (utf8Width before) c cs = front at described failed
    refine ⟨before, cs, c, split, ?_⟩
    cases described with
    | string | number | word | symbol => cases failed
    | unexpected =>
      cases failed
      exact ⟨rfl, _, _, standsAt_char split⟩
    | unterminated quote unread =>
      cases failed
      refine ⟨rfl, _, c, _, quote, standsAt_char split, ?_⟩
      rw [String.toList_ofList]
      exact unclosed_of_stringBody (backslash_not_quote quote) unread
    | @invalidNumber n rest unquoted read exceeds =>
      cases failed
      obtain ⟨proper, endsAt, same⟩ := numeral_ok read
      obtain ⟨whole, outside⟩ := Numeral.literal_none exceeds
      rw [same] at split ends
      have literal : (String.ofList n.text).toList =
          (if n.negative then ['-'] else []) ++ n.digits := by simp [Numeral.text, whole]
      exact ⟨rfl, _, _, n.negative, n.digits, standsAt_of_split split, literal,
        longestDigits_of_numberEnds proper ends endsAt, _, n.toInt_eq, outside⟩

end Lexer

/-- The lexer fails at a character of the text. -/
theorem tokenize_pointsInto (failed : tokenize text = .error e) :
    ∃ (before after : List Char) (c : Char), text.toList = before ++ c :: after ∧
      e.position? = some (utf8Width before) ∧ e.PointsInto text := by
  have start : (Lexer.ofText text).StandsApart text := ⟨[], rfl, rfl, by simp [NumberEnds]⟩
  obtain ⟨last, stands, lastFailed⟩ := Lexer.failed_standsApart start failed
  exact Lexer.next_pointsInto stands lastFailed

/-! ### The parser -/

theorem openAt_pointsInto {lexemes : List Lexeme} (tokenized : tokenize text = .ok lexemes)
    {p : Nat} {outer : List Nat} (opened : OpenAt lexemes (p :: outer)) :
    (FilterError.unclosedParenthesis p).PointsInto text ∧ ∃ l ∈ lexemes, l.position = p := by
  cases opened with
  | @cons front inside l _ _ isOpen balanced =>
    refine ⟨⟨front, l, inside, tokenized, isOpen, rfl, balanced.not_hasPartner, ?_⟩,
      l, by simp, rfl⟩
    intro between later behind same isOpen
    have here : inside.map Lexeme.token =
        between.map Lexeme.token ++ .openParen :: behind.map Lexeme.token := by simp [same, isOpen]
    exact balanced.hasPartner here

theorem blames_pointsInto {lexemes : List Lexeme} (tokenized : tokenize text = .ok lexemes)
    (blames : Parser.Blames lexemes e) {p : Nat} (place : e.position? = some p) :
    e.PointsInto text ∧ ∃ l ∈ lexemes, l.position = p := by
  cases blames with
  | lexeme quoted member =>
    obtain rfl := Option.some.inj place
    exact ⟨⟨lexemes, tokenized, _, member, rfl⟩, _, member, rfl⟩
  | @emptyList front back word opening closing parts isWord isOpen isClose =>
    obtain rfl := Option.some.inj place
    subst parts
    exact ⟨⟨front, word, opening, closing, back, tokenized, isWord, isOpen, rfl, isClose⟩,
      opening, by simp, rfl⟩
  | unplaced unplaced =>
    rw [unplaced] at place
    cases place

/-- An error that names a position names that of a character of the text, and its cause is there. -/
theorem parse_error_position {limits : Limits} {p : Nat} (rejected : parse limits text = .error e)
    (place : e.position? = some p) :
    (∃ before c after, StandsAt text p before (String.singleton c) after) ∧ e.PointsInto text := by
  rcases bind_error_iff.mp rejected with failed | ⟨lexemes, tokenized, rejected⟩
  · obtain ⟨before, after, c, split, same, points⟩ := tokenize_pointsInto failed
    obtain rfl := Option.some.inj (same.symm.trans place)
    exact ⟨⟨_, c, _, standsAt_char split⟩, points⟩
  · have pointsTo : e.PointsInto text ∧ ∃ l ∈ lexemes, l.position = p := by
      rcases parseLexemes_blames rejected with blames | ⟨p, outer, rfl, opened⟩
      · exact blames_pointsInto tokenized blames place
      · cases place
        exact openAt_pointsInto tokenized opened
    obtain ⟨points, l, member, rfl⟩ := pointsTo
    refine ⟨?_, points⟩
    have tiled := lexemes_tiled tokenized
    obtain ⟨before, after, split, position_eq⟩ := tiled.placed l member
    have nonempty : l.text.toList ≠ [] := by simpa using tiled.nonempty l member
    obtain ⟨c, more, text_eq⟩ := List.exists_cons_of_ne_nil nonempty
    rw [text_eq, List.cons_append] at split
    rw [position_eq, Lexer.ofText, Nat.zero_add]
    exact ⟨_, c, _, standsAt_char split⟩

/-- The last parenthesis that is open is that of the call. The accent in front takes two bytes. -/
theorem parse_error_position_in_call :
    parse {} "('é' eq x and concat(y, z" = .error (.unclosedParenthesis 21) ∧
      (FilterError.unclosedParenthesis 21).position? = some 21 ∧
      (∃ before c after, StandsAt "('é' eq x and concat(y, z" 21 before (String.singleton c) after) ∧
      (FilterError.unclosedParenthesis 21).PointsInto "('é' eq x and concat(y, z" := by
  have tokenized : tokenize "('é' eq x and concat(y, z" = .ok [⟨.openParen, "(", 0⟩,
      ⟨.literal (.string "é"), "'é'", 1⟩, ⟨.comparison .equal, "eq", 6⟩, ⟨.name "x", "x", 9⟩,
      ⟨.and, "and", 11⟩, ⟨.name "concat", "concat", 15⟩, ⟨.openParen, "(", 21⟩,
      ⟨.name "y", "y", 22⟩, ⟨.comma, ",", 23⟩, ⟨.name "z", "z", 25⟩] := by decide +kernel
  have rejected : parse {} "('é' eq x and concat(y, z" = .error (.unclosedParenthesis 21) := by
    rw [parse, tokenized]
    rfl
  exact ⟨rejected, rfl, parse_error_position rejected rfl⟩

end QueryFilter
