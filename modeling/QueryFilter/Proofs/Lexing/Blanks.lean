import QueryFilter.Proofs.Lexing.Longest

/-!
# Texts joined by blanks

A blank ends a lexeme in the way the end of the text does, and what stands behind it is read as in a
text of its own, only that all places are farther on: `tokenize_joined`. A string is the exception,
since a blank does not end it.
-/

namespace QueryFilter

variable {position : Nat} {c : Char} {cs rest other : List Char} {front : Cut}

/-! ### Places farther on -/

/-- The error of a text that stands behind `offset` bytes. -/
def FilterError.shifted (offset : Nat) : FilterError → FilterError
  | .unexpectedCharacter c position => .unexpectedCharacter c (offset + position)
  | .unterminatedString position => .unterminatedString (offset + position)
  | .invalidNumber text position => .invalidNumber text (offset + position)
  | .unexpectedToken text position => .unexpectedToken text (offset + position)
  | .unclosedParenthesis position => .unclosedParenthesis (offset + position)
  | .emptyList position => .emptyList (offset + position)
  | cause => cause

def Lexeme.shifted (offset : Nat) (l : Lexeme) : Lexeme :=
  { l with position := offset + l.position }

def Lexer.shifted (offset : Nat) (l : Lexer) : Lexer := ⟨offset + l.position, l.rest⟩

theorem Cut.Of.shifted (offset : Nat) (described : Cut.Of position c cs front) :
    Cut.Of (offset + position) c cs
      { front with outcome := front.outcome.mapError (FilterError.shifted offset) } := by
  cases described with
  | string quote read => exact .string quote read
  | unterminated quote read => exact .unterminated quote read
  | number unquoted read fits => exact .number unquoted read fits
  | invalidNumber unquoted read exceeds => exact .invalidNumber unquoted read exceeds
  | word unquoted noNumber start => exact .word unquoted noNumber start
  | symbol unquoted noNumber noWord read => exact .symbol unquoted noNumber noWord read
  | unexpected unquoted noNumber noWord noSymbol =>
    exact .unexpected unquoted noNumber noWord noSymbol

namespace Lexer

theorem next_shifted (offset : Nat) (l : Lexer) : (l.shifted offset).next =
    ((l.next.1.map (Option.map (Lexeme.shifted offset))).mapError (FilterError.shifted offset),
      l.next.2.shifted offset) := by
  rcases l.blanks_split with blank | ⟨blanks, c, cs, blank, visible, same⟩
  · have blankShifted : ∀ b ∈ (l.shifted offset).rest, Text.isBlank b := blank
    rw [next_end blank, next_end blankShifted]
    simp only [shifted, Nat.add_assoc]
    rfl
  · rw [same, shifted, next_blanks blank, next_blanks blank, next_visible visible,
      next_visible visible, Nat.add_assoc,
      ((cut_of (l.position + utf8Width blanks) c cs).shifted offset).eq]
    generalize cut (l.position + utf8Width blanks) c cs = front
    simp only [shifted, Nat.add_assoc]
    cases front.outcome <;> rfl

/-- A run depends on nothing but the first call. -/
theorem lexemes_congr {l m : Lexer} (same : l.next = m.next) : l.lexemes = m.lexemes := by
  match read : m.next with
  | (.error cause, after) => rw [lexemes_error read, lexemes_error (same.trans read)]
  | (.ok none, after) => rw [lexemes_end read, lexemes_end (same.trans read)]
  | (.ok (some lexeme), after) => rw [lexemes_more read, lexemes_more (same.trans read)]

theorem lexemes_shifted (offset : Nat) (l : Lexer) : (l.shifted offset).lexemes =
    (l.lexemes.map (List.map (Lexeme.shifted offset))).mapError (FilterError.shifted offset) := by
  fun_induction lexemes l with
  | case1 l cause after next =>
    have read := l.next_shifted offset
    rw [next] at read
    exact lexemes_error read
  | case2 l after next =>
    have read := l.next_shifted offset
    rw [next] at read
    exact lexemes_end read
  | case3 l lexeme after next ih =>
    have read := l.next_shifted offset
    rw [next] at read
    rw [lexemes_more read, ih]
    cases after.lexemes <;> rfl

end Lexer

/-! ### Blanks behind a text -/

/-- What is no blank and in front of a boundary is in front of it. -/
theorem prefix_of_visible {front : List Char} (visible : ∀ d ∈ front, Text.isBlank d = false)
    (boundary : Boundary other) (isPrefix : front <+: cs ++ other) : front <+: cs := by
  obtain ⟨rest, same⟩ := isPrefix
  rcases List.append_eq_append_iff.mp same with ⟨more, rfl, -⟩ | ⟨inside, rfl, other_eq⟩
  · exact List.prefix_append _ _
  · cases inside with
    | nil => simp
    | cons d inside =>
      have blank : Text.isBlank d := boundary d (by simp [other_eq])
      rw [visible d (by simp)] at blank
      cases blank

theorem Boundary.head_append {p : Char → Bool} (boundary : Boundary other)
    (members : ∀ d, p d → Text.isBlank d = false) (ends : ∀ d ∈ rest.head?, p d = false) :
    ∀ d ∈ (rest ++ other).head?, p d = false := by
  cases rest with
  | nil => exact boundary.head_false members
  | cons e rest => exact ends

theorem Numeral.EndsAt.append {n : Numeral} (ends : n.EndsAt rest) (boundary : Boundary other) :
    n.EndsAt (rest ++ other) := by
  refine ⟨boundary.head_append (fun d => isBlank_of_isDigit) ends.noDigit, ?_⟩
  intro whole
  have noFraction := ends.noFraction whole
  cases rest with
  | nil => exact (n.endsAt_of_boundary boundary).noFraction whole
  | cons d rest =>
    -- A point is followed by no digit in the text, and by none behind it.
    unfold QueryFilter.fraction at noFraction ⊢
    split at noFraction
    · rename_i tail same
      obtain ⟨rfl, rfl⟩ := List.cons.inj same
      have parts := List.takeWhile_append_dropWhile (p := Char.isDigit) (l := rest)
      rw [noFraction, List.nil_append] at parts
      rw [List.cons_append, ← List.nil_append (rest ++ other)]
      refine takeWhile_exact (by simp) (boundary.head_append (fun d => isBlank_of_isDigit) ?_)
      rw [← parts]
      exact head_dropWhile
    · rename_i noPoint
      split
      · rename_i tail same
        exact absurd (List.cons.inj same).1 fun point => noPoint rest (by rw [point])
      · rfl

theorem Numeral.visible {n : Numeral} (proper : n.Proper) :
    ∀ d ∈ n.text, Text.isBlank d = false := by
  have sign : ∀ d ∈ if n.negative then ['-'] else [], Text.isBlank d = false := by
    split
    · exact List.forall_mem_singleton.mpr (by decide)
    · simp
  have point : ∀ d ∈ if n.fraction = [] then [] else '.' :: n.fraction, Text.isBlank d = false := by
    split
    · simp
    · exact List.forall_mem_cons.mpr ⟨by decide, fun d member =>
        isBlank_of_isDigit (proper.fraction d member)⟩
  exact List.forall_mem_append.mpr ⟨List.forall_mem_append.mpr
    ⟨sign, fun d member => isBlank_of_isDigit (proper.digits d member)⟩, point⟩

theorem numeral_none_append (unread : numeral? cs = none) (boundary : Boundary other) :
    numeral? (cs ++ other) = none := by
  cases read : numeral? (cs ++ other) with
  | none => rfl
  | some result =>
    obtain ⟨n, rest⟩ := result
    obtain ⟨proper, -, same⟩ := numeral_ok read
    have isPrefix := prefix_of_visible (Numeral.visible proper) boundary ⟨rest, same.symm⟩
    obtain ⟨m, tail, again, -⟩ := numeral_of_prefix proper isPrefix
    rw [unread] at again
    cases again

theorem symbol_append (boundary : Boundary other) : symbol? (cs ++ other) = symbol? cs := by
  have visible : ∀ entry ∈ symbols, entry.1.all fun d => !Text.isBlank d := by decide
  refine List.find?_congr ?_
  intro entry member
  rw [Bool.eq_iff_iff, List.isPrefixOf_iff_prefix, List.isPrefixOf_iff_prefix]
  constructor
  · refine prefix_of_visible (fun d inside => ?_) boundary
    simpa using List.all_eq_true.mp (visible entry member) d inside
  · exact fun isPrefix => isPrefix.trans (List.prefix_append _ _)

/-- In front of a boundary every cut is the same as in front of the end, if it is not that of a
string without an end. -/
theorem Cut.Of.append (described : Cut.Of position c cs front) (boundary : Boundary other)
    (closed : front.outcome ≠ .error (.unterminatedString position)) :
    Cut.Of position c (cs ++ other) { front with rest := front.rest ++ other } := by
  cases described with
  | string quote read =>
    obtain ⟨rfl, again⟩ := stringBody_ok (backslash_not_quote quote) read
    exact .string quote (by rw [List.append_assoc]; exact again _)
  | unterminated => exact absurd rfl closed
  | number unquoted read fits =>
    obtain ⟨proper, ends, same⟩ := numeral_ok read
    refine .number unquoted ?_ fits
    rw [← List.cons_append, same, List.append_assoc]
    exact numeral_text proper (ends.append boundary)
  | invalidNumber unquoted read exceeds =>
    obtain ⟨proper, ends, same⟩ := numeral_ok read
    refine .invalidNumber unquoted ?_ exceeds
    rw [← List.cons_append, same, List.append_assoc]
    exact numeral_text proper (ends.append boundary)
  | word unquoted noNumber start =>
    have parts := List.takeWhile_append_dropWhile (p := isWordPart) (l := c :: cs)
    have inside : ∀ d ∈ (c :: cs).takeWhile isWordPart, isWordPart d :=
      fun d => List.mem_takeWhile_imp
    have outside : ∀ d ∈ ((c :: cs).dropWhile isWordPart ++ other).head?, isWordPart d = false :=
      boundary.head_append (fun d => isBlank_of_isWordPart) head_dropWhile
    have whole : c :: (cs ++ other) = (c :: cs).takeWhile isWordPart ++
        ((c :: cs).dropWhile isWordPart ++ other) := by
      rw [← List.append_assoc, parts, List.cons_append]
    have described := @Cut.Of.word position c (cs ++ other) unquoted
      (numeral_none_append noNumber boundary) start
    rw [whole, takeWhile_exact inside outside, dropWhile_exact inside outside] at described
    exact described
  | @symbol symbol token unquoted noNumber noWord read =>
    obtain ⟨-, rest, same⟩ := symbol_ok read
    have described : Cut.Of position c (cs ++ other)
        ⟨.ok token, symbol, (c :: cs ++ other).drop symbol.length⟩ := .symbol unquoted
      (numeral_none_append noNumber boundary) noWord ((symbol_append boundary).trans read)
    rw [same, List.append_assoc, List.drop_left] at described
    rw [same, List.drop_left]
    exact described
  | unexpected unquoted noNumber noWord noSymbol =>
    exact .unexpected unquoted (numeral_none_append noNumber boundary) noWord
      ((symbol_append boundary).trans noSymbol)

namespace Lexer

variable {l : Lexer}

/-- The lexer of a text that goes on. -/
def append (l : Lexer) (other : List Char) : Lexer := ⟨l.position, l.rest ++ other⟩

theorem next_append (boundary : Boundary other) (goesOn : l.next.1 ≠ .ok none)
    (closed : ∀ place, l.next.1 ≠ .error (.unterminatedString place)) :
    (l.append other).next = (l.next.1, l.next.2.append other) := by
  rcases l.blanks_split with blank | ⟨blanks, c, cs, blank, visible, same⟩
  · rw [next_end blank] at goesOn
    exact absurd rfl goesOn
  · have next : l.next = (⟨l.position + utf8Width blanks, c :: cs⟩ : Lexer).next := by
      rw [same, next_blanks blank]
    have nextAppend : (l.append other).next =
        (⟨l.position + utf8Width blanks, c :: (cs ++ other)⟩ : Lexer).next := by
      rw [same, append, List.append_assoc, List.cons_append, next_blanks blank]
    have described := cut_of (l.position + utf8Width blanks) c cs
    rw [next, next_visible visible] at closed
    rw [nextAppend, next, next_visible visible, next_visible visible]
    have cutClosed : (cut (l.position + utf8Width blanks) c cs).outcome ≠
        .error (.unterminatedString (l.position + utf8Width blanks)) := by
      intro unterminated
      exact closed _ (by rw [unterminated]; rfl)
    rw [(described.append boundary cutClosed).eq]
    rfl

/-- The lexemes of a text are read in front of a boundary as well, and then those behind it. -/
theorem lexemes_append (boundary : Boundary other) :
    (∀ ls, l.lexemes = .ok ls → (l.append other).lexemes =
      (⟨l.position + utf8Width l.rest, other⟩ : Lexer).lexemes.map (ls ++ ·)) ∧
    ∀ cause, l.lexemes = .error cause → (∀ place, cause ≠ .unterminatedString place) →
      (l.append other).lexemes = .error cause := by
  fun_induction lexemes l with
  | case1 l cause after next =>
    refine ⟨by simp, ?_⟩
    rintro _ ⟨⟩ closed
    have read := next_append (l := l) boundary (by simp [next])
      (by simpa [next] using closed)
    rw [next] at read
    exact lexemes_error read
  | case2 l after next =>
    -- The last call takes the blanks at the end, and in the longer text it goes on behind them.
    refine ⟨?_, by simp⟩
    rintro _ ⟨⟩
    have same : (l.append other).next =
        (⟨l.position + utf8Width l.rest, other⟩ : Lexer).next := next_blanks (next_none next)
    rw [lexemes_congr same]
    cases (⟨l.position + utf8Width l.rest, other⟩ : Lexer).lexemes <;> rfl
  | case3 l lexeme after next ih =>
    have read := next_append (l := l) boundary (by simp [next]) (by simp [next])
    rw [next] at read
    obtain ⟨-, ⟨blanks, -, rest_eq, position_eq⟩, behind, -⟩ := next_ok next
    have place : after.position + utf8Width after.rest = l.position + utf8Width l.rest := by
      rw [behind, position_eq, rest_eq, utf8Width_append, utf8Width_append]
      omega
    obtain ⟨accepted, rejected⟩ := ih
    rw [lexemes_more read]
    constructor
    · intro ls readAll
      obtain ⟨more, readMore, rfl⟩ := map_ok readAll
      rw [accepted more readMore, place]
      cases (⟨l.position + utf8Width l.rest, other⟩ : Lexer).lexemes <;> rfl
    · intro cause failed closed
      cases readMore : after.lexemes with
      | ok more =>
        rw [readMore] at failed
        cases failed
      | error otherCause =>
        rw [readMore] at failed
        cases failed
        rw [rejected _ readMore closed]
        rfl

end Lexer

/-! ### Two texts -/

/-- What stands behind a text and blanks is read as by itself, with all places shifted. -/
theorem lexemes_behind {blanks : List Char} (blank : ∀ b ∈ blanks, Text.isBlank b)
    (position : Nat) (back : String) : (⟨position, blanks ++ back.toList⟩ : Lexer).lexemes =
      ((tokenize back).map (List.map (Lexeme.shifted (position + utf8Width blanks)))).mapError
        (FilterError.shifted (position + utf8Width blanks)) := by
  rw [tokenize, ← Lexer.lexemes_shifted, Lexer.lexemes_congr (Lexer.next_blanks blank)]
  rfl

/-- Two texts with blanks between them have the lexemes of both, and none that is made of parts of
both. An error of the second is that of the whole, at the shifted place, and so is an error of the
first, if it is not a string without an end. -/
theorem tokenize_joined {blanks : String} (nonempty : blanks ≠ "")
    (blank : ∀ b ∈ blanks.toList, Text.isBlank b) (front back : String) :
    (∀ lexemes, tokenize front = .ok lexemes →
      (∀ others, tokenize back = .ok others → tokenize (front ++ blanks ++ back) =
        .ok (lexemes ++ others.map (Lexeme.shifted (front ++ blanks).utf8ByteSize))) ∧
      ∀ cause, tokenize back = .error cause → tokenize (front ++ blanks ++ back) =
        .error (cause.shifted (front ++ blanks).utf8ByteSize)) ∧
    ∀ cause, tokenize front = .error cause →
      ((∃ c place, cause = .unexpectedCharacter c place) ∨
        ∃ text place, cause = .invalidNumber text place) →
      tokenize (front ++ blanks ++ back) = .error cause := by
  have boundary : Boundary (blanks.toList ++ back.toList) := by
    cases cs : blanks.toList with
    | nil => exact absurd (String.toList_eq_nil_iff.mp cs) nonempty
    | cons b bs =>
      rintro _ ⟨⟩
      exact blank b (by simp [cs])
  have whole : Lexer.ofText (front ++ blanks ++ back) =
      (Lexer.ofText front).append (blanks.toList ++ back.toList) := by
    simp [Lexer.ofText, Lexer.append]
  have size : (Lexer.ofText front).position + utf8Width (Lexer.ofText front).rest +
      utf8Width blanks.toList = (front ++ blanks).utf8ByteSize := by
    rw [Lexer.ofText, Nat.zero_add, ← utf8Width_append, ← String.toList_append, utf8Width_toList]
  obtain ⟨accepted, rejected⟩ := Lexer.lexemes_append (l := Lexer.ofText front) boundary
  constructor
  · intro lexemes tokenized
    have split := accepted lexemes tokenized
    rw [← whole, lexemes_behind blank, size] at split
    constructor
    · intro others read
      rw [read] at split
      exact split
    · intro cause failed
      rw [failed] at split
      exact split
  · intro cause failed kind
    rw [tokenize, whole]
    refine rejected cause failed ?_
    rintro place rfl
    rcases kind with ⟨c, other, same⟩ | ⟨text, other, same⟩ <;> cases same

/-- A no-break space keeps two symbols apart that are one without it. -/
theorem tokenize_joined_symbols :
    "\u00a0" ≠ "" ∧ (∀ b ∈ "\u00a0".toList, Text.isBlank b) ∧
      tokenize "é>" = .error (.unexpectedCharacter 'é' 0) ∧
      tokenize ("é>" ++ "\u00a0" ++ "=1") = .error (.unexpectedCharacter 'é' 0) ∧
      tokenize "x>" = .ok [⟨.name "x", "x", 0⟩, ⟨.comparison .greater, ">", 1⟩] ∧
      tokenize "=1" = .ok [⟨.comparison .equal, "=", 0⟩, ⟨.literal (.integer 1), "1", 1⟩] ∧
      tokenize ("x>" ++ "\u00a0" ++ "=1") = .ok [⟨.name "x", "x", 0⟩,
        ⟨.comparison .greater, ">", 1⟩, ⟨.comparison .equal, "=", 4⟩,
        ⟨.literal (.integer 1), "1", 5⟩] ∧
      tokenize "='1" = .error (.unterminatedString 1) ∧
      tokenize ("x>" ++ "\u00a0" ++ "='1") = .error (.unterminatedString 5) := by
  have nonempty : "\u00a0" ≠ "" := by decide
  have blank : ∀ b ∈ "\u00a0".toList, Text.isBlank b := List.forall_mem_singleton.mpr rfl
  have refused : tokenize "é>" = .error (.unexpectedCharacter 'é' 0) := by decide +kernel
  have first : tokenize "x>" = .ok [⟨.name "x", "x", 0⟩, ⟨.comparison .greater, ">", 1⟩] := by
    decide +kernel
  have second : tokenize "=1" =
      .ok [⟨.comparison .equal, "=", 0⟩, ⟨.literal (.integer 1), "1", 1⟩] := by decide +kernel
  have unclosed : tokenize "='1" = .error (.unterminatedString 1) := by decide +kernel
  obtain ⟨accepted, failing⟩ := (tokenize_joined nonempty blank "x>" "=1").1 _ first
  exact ⟨nonempty, blank, refused,
    (tokenize_joined nonempty blank "é>" "=1").2 _ refused (.inl ⟨_, _, rfl⟩), first, second,
    accepted _ second, unclosed,
    ((tokenize_joined nonempty blank "x>" "='1").1 _ first).2 _ unclosed⟩

end QueryFilter
