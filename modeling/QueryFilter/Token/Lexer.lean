import QueryFilter.Error
import QueryFilter.Text.Blank
import QueryFilter.Token

/-!
# From text to tokens

A lexer stands before the unread rest of a text. Each reading skips blanks and then cuts the longest
lexeme off the front: a quoted string, a number, a word or a symbol. `Lexer.next_shorter` says that
a token always takes characters with it, which is why `Lexer.lexemes` ends.
-/

namespace QueryFilter

def utf8Width : List Char → Nat
  | [] => 0
  | c :: cs => c.utf8Size + utf8Width cs

/-! ### Strings -/

def unescaped (c : Char) : Char :=
  match c with
  | 'n' => '\n'
  | 't' => '\t'
  | 'r' => '\r'
  | _ => c

/-- A string behind its opening quote: its value, its text with the closing quote, and the rest. -/
def stringBody? (quote : Char) : List Char → Option (List Char × List Char × List Char)
  | [] => none
  | '\\' :: c :: cs =>
    (stringBody? quote cs).map fun (value, text, rest) =>
      (unescaped c :: value, '\\' :: c :: text, rest)
  | c :: cs =>
    if c = quote then some ([], [c], cs)
    else (stringBody? quote cs).map fun (value, text, rest) => (c :: value, c :: text, rest)

/-! ### Numbers -/

/-- A number as it is spelled. Without a fraction there is no point. -/
structure Numeral where
  negative : Bool
  digits : List Char
  fraction : List Char

namespace Numeral

def text (n : Numeral) : List Char :=
  (if n.negative then ['-'] else []) ++ n.digits ++
    (if n.fraction = [] then [] else '.' :: n.fraction)

def toInt (n : Numeral) : Int :=
  let digits : Nat := Nat.ofDigitChars 10 n.digits 0
  if n.negative then -digits else digits

/-- The value as a literal, if it is a float or an integer of 64 bits. -/
def literal? (n : Numeral) : Option Literal :=
  if n.fraction = [] then
    if Int64.minValue.toInt ≤ n.toInt ∧ n.toInt ≤ Int64.maxValue.toInt then
      some (.integer (Int64.ofInt n.toInt))
    else none
  else
    let digits := Nat.ofDigitChars 10 (n.digits ++ n.fraction) 0
    some (.float (Binary64.ofDecimal n.negative digits n.fraction.length))

end Numeral

/-- The digits behind a point at the front of a text. -/
def fraction : List Char → List Char
  | '.' :: cs => cs.takeWhile Char.isDigit
  | _ => []

/-- Cuts digits off a text, and a point with the digits behind it if there are any. -/
def unsigned? (negative : Bool) (cs : List Char) : Option (Numeral × List Char) :=
  let digits := cs.takeWhile Char.isDigit
  let rest := cs.dropWhile Char.isDigit
  if digits = [] then none
  else if fraction rest = [] then some (⟨negative, digits, []⟩, rest)
  else some (⟨negative, digits, fraction rest⟩, rest.drop ((fraction rest).length + 1))

/-- Cuts a number off a text. A minus sign belongs to it if a digit follows. -/
def numeral? : List Char → Option (Numeral × List Char)
  | '-' :: cs => unsigned? true cs
  | cs => unsigned? false cs

/-! ### Words and symbols -/

def isWordStart (c : Char) : Bool := c.isAlpha || c == '_'

def isWordPart (c : Char) : Bool := c.isAlphanum || c == '_'

def keywords : List (String × Token) :=
  [("eq", .comparison .equal), ("ne", .comparison .notEqual), ("gt", .comparison .greater),
    ("gte", .comparison .greaterOrEqual), ("lt", .comparison .less),
    ("lte", .comparison .lessOrEqual), ("ct", .comparison .contains),
    ("sw", .comparison .startsWith), ("ew", .comparison .endsWith), ("in", .isIn), ("not", .not),
    ("and", .and), ("or", .or), ("is", .is), ("null", .null)]

/-- A keyword in any mix of upper and lower case, or a name. -/
def wordToken (word : List Char) : Token :=
  (keywords.lookup (String.ofList (word.map Char.toLower))).getD (.name (String.ofList word))

/-- The symbols, each before the shorter ones that it starts with. -/
def symbols : List (List Char × Token) :=
  [(['!', '=', '[', ']'], .notIn), (['=', '[', ']'], .isIn), (['!', '='], .comparison .notEqual),
    (['<', '>'], .comparison .notEqual), (['<', '='], .comparison .lessOrEqual),
    (['>', '='], .comparison .greaterOrEqual), (['*', '='], .comparison .contains),
    (['^', '='], .comparison .startsWith), (['$', '='], .comparison .endsWith),
    (['&', '&'], .and), (['|', '|'], .or), (['='], .comparison .equal), (['<'], .comparison .less),
    (['>'], .comparison .greater), (['('], .openParen), ([')'], .closeParen), ([','], .comma)]

def symbol? (cs : List Char) : Option (List Char × Token) :=
  symbols.find? fun symbol => symbol.1.isPrefixOf cs

/-! ### Lexemes -/

/-- What stands at the front of a text: its meaning, its characters and the rest. -/
structure Cut where
  outcome : Except FilterError Token
  text : List Char
  rest : List Char

/-- Cuts the front off the text `c :: cs`, which starts at `position` and with no blank. An
unterminated string takes the whole text, a character that starts no lexeme takes nothing. -/
def cut (position : Nat) (c : Char) (cs : List Char) : Cut :=
  if c = '"' ∨ c = '\x27' then
    match stringBody? c cs with
    | some (value, text, rest) =>
      ⟨.ok (.literal (.string (String.ofList value))), c :: text, rest⟩
    | none => ⟨.error (.unterminatedString position), c :: cs, []⟩
  else
    match numeral? (c :: cs) with
    | some (numeral, rest) =>
      match numeral.literal? with
      | some value => ⟨.ok (.literal value), numeral.text, rest⟩
      | none =>
        ⟨.error (.invalidNumber (String.ofList numeral.text) position), numeral.text, rest⟩
    | none =>
      if isWordStart c then
        let word := (c :: cs).takeWhile isWordPart
        ⟨.ok (wordToken word), word, (c :: cs).dropWhile isWordPart⟩
      else
        match symbol? (c :: cs) with
        | some (symbol, token) => ⟨.ok token, symbol, (c :: cs).drop symbol.length⟩
        | none => ⟨.error (.unexpectedCharacter c position), [], c :: cs⟩

/-- The unread rest of a text and the byte offset where it starts. -/
structure Lexer where
  position : Nat
  rest : List Char

namespace Lexer

def ofText (text : String) : Lexer := ⟨0, text.toList⟩

def skipBlanks (l : Lexer) : Lexer :=
  ⟨l.position + utf8Width (l.rest.takeWhile Text.isBlank), l.rest.dropWhile Text.isBlank⟩

/-- Reads the next lexeme, `none` at the end, and moves behind it. -/
def next (l : Lexer) : Except FilterError (Option Lexeme) × Lexer :=
  let here := l.skipBlanks
  match here.rest with
  | [] => (.ok none, here)
  | c :: cs =>
    let front := cut here.position c cs
    (front.outcome.map fun token => some ⟨token, String.ofList front.text, here.position⟩,
      ⟨here.position + utf8Width front.text, front.rest⟩)

end Lexer

/-! ### Every token takes characters with it -/

theorem length_stringBody {quote : Char} {cs value text rest : List Char}
    (h : stringBody? quote cs = some (value, text, rest)) : rest.length < cs.length := by
  fun_induction stringBody? quote cs generalizing value text rest with
  | case1 => simp at h
  | case2 c cs ih =>
    obtain ⟨⟨v, t, r⟩, read, equal⟩ := Option.map_eq_some_iff.mp h
    obtain ⟨-, -, rfl⟩ := by simpa using equal
    have := ih read
    simp only [List.length_cons]; omega
  | case3 cs => simp_all
  | case4 c cs _ different ih =>
    obtain ⟨⟨v, t, r⟩, read, equal⟩ := Option.map_eq_some_iff.mp h
    obtain ⟨-, -, rfl⟩ := by simpa using equal
    have := ih read
    simp only [List.length_cons]; omega

theorem length_dropWhile_add (p : Char → Bool) (cs : List Char) :
    (cs.takeWhile p).length + (cs.dropWhile p).length = cs.length := by
  rw [← List.length_append, List.takeWhile_append_dropWhile]

theorem length_unsigned {negative : Bool} {cs rest : List Char} {n : Numeral}
    (h : unsigned? negative cs = some (n, rest)) : rest.length < cs.length := by
  have split := length_dropWhile_add Char.isDigit cs
  unfold unsigned? at h
  dsimp only at h
  split at h
  · simp at h
  · rename_i nonempty
    have := List.length_pos_iff.mpr nonempty
    split at h <;> obtain ⟨-, rfl⟩ := by simpa using h
    · omega
    · simp only [List.length_drop]; omega

theorem length_numeral {cs rest : List Char} {n : Numeral}
    (h : numeral? cs = some (n, rest)) : rest.length < cs.length := by
  unfold numeral? at h
  split at h
  · have := length_unsigned h
    simp only [List.length_cons]; omega
  · exact length_unsigned h

theorem isWordPart_of_isWordStart {c : Char} (h : isWordStart c = true) : isWordPart c = true := by
  simp only [isWordStart, isWordPart, Char.isAlphanum, Bool.or_eq_true] at h ⊢
  exact h.imp_left .inl

theorem symbol_ne_nil {cs symbol : List Char} {token : Token}
    (h : symbol? cs = some (symbol, token)) : symbol ≠ [] := by
  have member := List.mem_of_find?_eq_some h
  have : ∀ entry ∈ symbols, entry.1 ≠ [] := by decide
  exact this _ member

theorem length_cut {position : Nat} {c : Char} {cs : List Char} {token : Token}
    (h : (cut position c cs).outcome = .ok token) :
    (cut position c cs).rest.length < (c :: cs).length := by
  unfold cut at h ⊢
  split
  · rename_i quote
    simp only [quote, ↓reduceIte] at h
    split at h
    · rename_i read
      have := length_stringBody read
      simp only [List.length_cons]; omega
    · simp at h
  · rename_i quote
    simp only [quote, ↓reduceIte] at h
    cases read : numeral? (c :: cs) with
    | some result =>
      have := length_numeral read
      dsimp only
      split <;> exact this
    | none =>
      simp only [read] at h ⊢
      split
      · rename_i start
        have split := length_dropWhile_add isWordPart (c :: cs)
        simp only [List.takeWhile_cons, isWordPart_of_isWordStart start, ↓reduceIte,
          List.length_cons] at split
        simp only [List.length_cons]; omega
      · rename_i start
        simp only [start, Bool.false_eq_true, ↓reduceIte] at h
        cases found : symbol? (c :: cs) with
        | some result =>
          have := List.length_pos_iff.mpr (symbol_ne_nil found)
          simp only [List.length_drop, List.length_cons]; omega
        | none => simp [found] at h

namespace Lexer

theorem length_skipBlanks (l : Lexer) : l.skipBlanks.rest.length ≤ l.rest.length := by
  have := length_dropWhile_add Text.isBlank l.rest
  simp only [skipBlanks]; omega

theorem next_shorter {l after : Lexer} {lexeme : Lexeme}
    (h : l.next = (.ok (some lexeme), after)) : after.rest.length < l.rest.length := by
  have blanks := l.length_skipBlanks
  unfold next at h
  dsimp only at h
  split at h
  · simp at h
  · rename_i c cs rest
    obtain ⟨read, rfl⟩ := Prod.mk.inj h
    rw [rest] at blanks
    cases outcome : (cut l.skipBlanks.position c cs).outcome with
    | error e => simp [outcome, Except.map] at read
    | ok token => exact Nat.lt_of_lt_of_le (length_cut outcome) blanks

def lexemes (l : Lexer) : Except FilterError (List Lexeme) :=
  match _h : l.next with
  | (.error e, _) => .error e
  | (.ok none, _) => .ok []
  | (.ok (some lexeme), after) => after.lexemes.map (lexeme :: ·)
termination_by l.rest.length
decreasing_by exact next_shorter _h

end Lexer

def tokenize (text : String) : Except FilterError (List Lexeme) := (Lexer.ofText text).lexemes

end QueryFilter
