import Mathlib.Algebra.Group.Int.Defs
import QueryFilter.Proofs.Lexing.Calls

/-!
# The longest lexeme

Words, numbers and symbols as a language, without regard to how they are read, and what each of them
means. Where a call of the lexer meets none of the two quotes it reads the longest of these that the
text goes on with, and if there is none it stays in front of the character: `next_longest`.
-/

namespace QueryFilter

/-! ### The lexemes -/

/-- A letter or an underscore, then letters, digits and underscores, all of ASCII. -/
def IsWord : List Char → Prop
  | [] => False
  | c :: cs => (c.isAlpha ∨ c = '_') ∧ ∀ d ∈ cs, d.isAlphanum ∨ d = '_'

def symbolTexts : List String :=
  ["(", ")", ",", "=", "=[]", "!=", "!=[]", "<>", "<", "<=", ">", ">=", "*=", "^=", "$=", "&&",
    "||"]

/-- All lexemes but the strings. A number may have a sign, and a point between digits. -/
inductive IsLexeme : List Char → Prop where
  | word {cs : List Char} (isWord : IsWord cs) : IsLexeme cs
  | number {n : Numeral} (proper : n.Proper) : IsLexeme n.text
  | symbol {text : String} (known : text ∈ symbolTexts) : IsLexeme text.toList

/-- The text starts with the lexeme, and with no longer one. -/
structure LongestLexeme (front cs : List Char) : Prop where
  isLexeme : IsLexeme front
  isPrefix : front <+: cs
  longest : ∀ other, IsLexeme other → other <+: cs → other.length ≤ front.length

/-- What a lexeme at a position is read as. Integers are exact or refused, floats are the nearest to
the number as it is spelled. -/
inductive Means (position : Nat) : List Char → Except FilterError Token → Prop where
  | keyword {cs : List Char} {word : String} {token : Token} (listed : (word, token) ∈ keywords)
    (same : cs.map Char.toLower = word.toList) : Means position cs (.ok token)
  | name {cs : List Char} (isWord : IsWord cs)
    (unlisted : ∀ entry ∈ keywords, cs.map Char.toLower ≠ entry.1.toList) :
    Means position cs (.ok (.name (String.ofList cs)))
  | integer {n : Numeral} {value : Int64} (proper : n.Proper) (whole : n.fraction = [])
    (exact : value.toInt = (if n.negative then -1 else 1) * Nat.ofDigitChars 10 n.digits 0) :
    Means position n.text (.ok (.literal (.integer value)))
  | outOfRange {n : Numeral} {value : Int} (proper : n.Proper) (whole : n.fraction = [])
    (exact : value = (if n.negative then -1 else 1) * Nat.ofDigitChars 10 n.digits 0)
    (outside : value < -2 ^ 63 ∨ 2 ^ 63 - 1 < value) :
    Means position n.text (.error (.invalidNumber (String.ofList n.text) position))
  | float {n : Numeral} (proper : n.Proper) (point : n.fraction ≠ []) :
    Means position n.text (.ok (.literal (.float (Binary64.ofDecimal n.negative
      (Nat.ofDigitChars 10 (n.digits ++ n.fraction) 0) n.fraction.length))))
  | symbol {cs : List Char} {token : Token} (listed : (cs, token) ∈ symbols) :
    Means position cs (.ok token)

variable {position : Nat} {c : Char} {cs front other : List Char}

/-! ### Words -/

theorem isWordStart_iff : isWordStart c ↔ c.isAlpha ∨ c = '_' := by
  simp [isWordStart]

theorem isWordPart_iff : isWordPart c ↔ c.isAlphanum ∨ c = '_' := by
  simp [isWordPart]

theorem isWord_cons : IsWord (c :: cs) ↔ isWordStart c ∧ ∀ d ∈ cs, isWordPart d := by
  simp only [IsWord, isWordStart_iff, isWordPart_iff]

theorem IsWord.parts (isWord : IsWord front) : ∀ d ∈ front, isWordPart d := by
  cases front with
  | nil => exact isWord.elim
  | cons c front =>
    obtain ⟨start, more⟩ := isWord_cons.mp isWord
    exact List.forall_mem_cons.mpr ⟨isWordPart_of_isWordStart start, more⟩

theorem IsWord.start (isWord : IsWord front) (isPrefix : front <+: c :: cs) : isWordStart c := by
  cases front with
  | nil => exact isWord.elim
  | cons d front =>
    obtain rfl := (List.cons_prefix_cons.mp isPrefix).1
    exact (isWord_cons.mp isWord).1

theorem isWord_takeWhile (start : isWordStart c) : IsWord ((c :: cs).takeWhile isWordPart) := by
  rw [List.takeWhile_cons, if_pos (isWordPart_of_isWordStart start)]
  exact isWord_cons.mpr ⟨start, fun d => List.mem_takeWhile_imp⟩

/-- A prefix of members is part of the longest one. -/
theorem length_le_takeWhile {p : Char → Bool} (inside : ∀ d ∈ front, p d)
    (isPrefix : front <+: cs) : front.length ≤ (cs.takeWhile p).length := by
  obtain ⟨rest, rfl⟩ := isPrefix
  rw [List.takeWhile_append_of_pos inside, List.length_append]
  exact Nat.le_add_right _ _

theorem wordToken_means (isWord : IsWord front) : Means position front (.ok (wordToken front)) := by
  unfold wordToken
  cases found : keywords.lookup (String.ofList (front.map Char.toLower)) with
  | some token =>
    obtain ⟨before, after, same, -⟩ := List.lookup_eq_some_iff.mp found
    refine @Means.keyword _ _ (String.ofList (front.map Char.toLower)) token ?_
      String.toList_ofList.symm
    rw [same]
    exact List.mem_append_right _ List.mem_cons_self
  | none =>
    refine .name isWord ?_
    intro entry member same
    have different := List.lookup_eq_none_iff.mp found entry member
    rw [same, String.ofList_toList, bne_self_eq_false] at different
    cases different

/-! ### Numbers -/

theorem unsigned_of_prefix {m : Numeral} (proper : m.Proper) (negative : Bool)
    (isPrefix : m.unsignedText <+: cs) : ∃ n rest, unsigned? negative cs = some (n, rest) ∧
      m.unsignedText.length ≤ n.unsignedText.length := by
  have leading : m.digits <+: m.unsignedText := List.prefix_append _ _
  have digitsLe := length_le_takeWhile proper.digits (leading.trans isPrefix)
  have nonempty : cs.takeWhile Char.isDigit ≠ [] := by
    intro empty
    rw [empty, List.length_nil, Nat.le_zero] at digitsLe
    exact proper.nonempty (List.length_eq_zero_iff.mp digitsLe)
  cases fractionEq : m.fraction with
  | nil =>
    have text_eq : m.unsignedText = m.digits := by
      rw [Numeral.unsignedText, fractionEq, if_pos rfl, List.append_nil]
    rw [text_eq]
    unfold unsigned?
    simp only [nonempty, ↓reduceIte]
    split
    all_goals
      refine ⟨_, _, rfl, Nat.le_trans digitsLe ?_⟩
      rw [Numeral.unsignedText, List.length_append]
      exact Nat.le_add_right _ _
  | cons d ds =>
    -- The digits end at the point, so they are the same, and only the fraction may go on.
    obtain ⟨rest, rfl⟩ := isPrefix
    have shape : m.unsignedText ++ rest = m.digits ++ ('.' :: (m.fraction ++ rest)) := by
      simp [Numeral.unsignedText, fractionEq]
    have point : ∀ e ∈ ('.' :: (m.fraction ++ rest)).head?, e.isDigit = false := by
      rintro e ⟨⟩
      rfl
    have longer : fraction ('.' :: (m.fraction ++ rest)) =
        m.fraction ++ rest.takeWhile Char.isDigit := List.takeWhile_append_of_pos proper.fraction
    have goesOn : m.fraction ++ rest.takeWhile Char.isDigit ≠ [] := by simp [fractionEq]
    rw [shape] at nonempty ⊢
    rw [takeWhile_exact proper.digits point] at nonempty
    unfold unsigned?
    simp only [takeWhile_exact proper.digits point, dropWhile_exact proper.digits point, longer,
      nonempty, goesOn, ↓reduceIte]
    refine ⟨_, _, rfl, ?_⟩
    simp [Numeral.unsignedText, fractionEq]

/-- Where a text starts with a number a number is read, and it is no shorter. -/
theorem numeral_of_prefix {m : Numeral} (proper : m.Proper) (isPrefix : m.text <+: cs) :
    ∃ n rest, numeral? cs = some (n, rest) ∧ m.text.length ≤ n.text.length := by
  rw [Numeral.text_eq] at isPrefix
  cases sign : m.negative with
  | true =>
    rw [sign, if_pos rfl, List.singleton_append] at isPrefix
    cases cs with
    | nil => simp at isPrefix
    | cons c cs =>
      obtain ⟨rfl, behind⟩ := List.cons_prefix_cons.mp isPrefix
      obtain ⟨n, rest, read, lengthLe⟩ := unsigned_of_prefix proper true behind
      refine ⟨n, rest, read, ?_⟩
      simp only [Numeral.text_eq, sign, (unsigned_ok read).1, List.length_append]
      exact Nat.add_le_add_left lengthLe _
  | false =>
    rw [sign, if_neg Bool.false_ne_true, List.nil_append] at isPrefix
    obtain ⟨n, rest, read, lengthLe⟩ := unsigned_of_prefix proper false isPrefix
    obtain ⟨d, ds, digits⟩ := List.exists_cons_of_ne_nil proper.nonempty
    have isDigit : d.isDigit := proper.digits d (by simp [digits])
    obtain ⟨tail, text_eq⟩ := isPrefix
    have unsigned : numeral? cs = unsigned? false cs := by
      unfold numeral?
      split
      · rename_i same
        rw [Numeral.unsignedText, digits] at text_eq
        obtain rfl := (List.cons.inj text_eq).1
        cases isDigit
      · rfl
    refine ⟨n, rest, unsigned.trans read, ?_⟩
    simpa [Numeral.text_eq, sign, (unsigned_ok read).1] using lengthLe

theorem Numeral.toInt_eq (n : Numeral) :
    n.toInt = (if n.negative then -1 else 1) * Nat.ofDigitChars 10 n.digits 0 := by
  unfold Numeral.toInt
  split
  · exact (Int.neg_one_mul _).symm
  · exact (Int.one_mul _).symm

/-- Only whole numbers of more than 64 bits have no literal. -/
theorem Numeral.literal_none {n : Numeral} (unread : n.literal? = none) :
    n.fraction = [] ∧ (n.toInt < -2 ^ 63 ∨ 2 ^ 63 - 1 < n.toInt) := by
  have least : Int64.minValue.toInt = -2 ^ 63 := by decide
  have greatest : Int64.maxValue.toInt = 2 ^ 63 - 1 := by decide
  unfold Numeral.literal? at unread
  rw [least, greatest] at unread
  split at unread
  · rename_i whole
    split at unread
    · cases unread
    · rename_i outside
      exact ⟨whole, by omega⟩
  · cases unread

theorem literal_means {n : Numeral} (proper : n.Proper) :
    (∀ value, n.literal? = some value → Means position n.text (.ok (.literal value))) ∧
      (n.literal? = none →
        Means position n.text (.error (.invalidNumber (String.ofList n.text) position))) := by
  constructor
  · intro value read
    unfold Numeral.literal? at read
    split at read
    · rename_i whole
      split at read
      · rename_i inside
        cases read
        refine .integer proper whole ?_
        rw [Int64.toInt_ofInt_of_le inside.1 (Int.lt_add_one_of_le inside.2), n.toInt_eq]
      · cases read
    · rename_i point
      cases read
      exact .float proper point
  · intro unread
    obtain ⟨whole, outside⟩ := Numeral.literal_none unread
    exact .outOfRange proper whole n.toInt_eq outside

/-! ### Symbols -/

theorem symbolTexts_iff {text : List Char} :
    (∃ token, (text, token) ∈ symbols) ↔ ∃ symbol ∈ symbolTexts, symbol.toList = text := by
  have listed : ∀ entry ∈ symbols, ∃ symbol ∈ symbolTexts, symbol.toList = entry.1 := by decide
  have known : ∀ symbol ∈ symbolTexts, ∃ entry ∈ symbols, symbol.toList = entry.1 := by decide
  constructor
  · rintro ⟨token, member⟩
    exact listed _ member
  · rintro ⟨symbol, member, rfl⟩
    obtain ⟨⟨text, token⟩, present, same⟩ := known symbol member
    exact ⟨token, same ▸ present⟩

/-- No symbol stands in the list behind a shorter one that it goes on from, so the first that fits
is the longest. -/
theorem symbol_longest {symbol : List Char} {token : Token}
    (read : symbol? cs = some (symbol, token)) {other : List Char} {otherToken : Token}
    (listed : (other, otherToken) ∈ symbols) (isPrefix : other <+: cs) :
    other.length ≤ symbol.length := by
  have ordered : symbols.Pairwise fun entry later =>
      entry.1 <+: later.1 → later.1.length ≤ entry.1.length := by decide
  obtain ⟨fits, before, after, same, unfit⟩ := List.find?_eq_some_iff_append.mp read
  have front : symbol <+: cs := List.isPrefixOf_iff_prefix.mp fits
  rw [same] at listed ordered
  rcases List.mem_append.mp listed with early | late
  · have noPrefix := unfit _ early
    rw [List.isPrefixOf_iff_prefix.mpr isPrefix] at noPrefix
    cases noPrefix
  · rcases List.mem_cons.mp late with this | later
    · cases this
      exact Nat.le_refl _
    · have behind := (List.pairwise_cons.mp (List.pairwise_append.mp ordered).2.1).1 _ later
      rcases Nat.le_total other.length symbol.length with shorter | longer
      · exact shorter
      · exact behind (List.prefix_of_prefix_length_le front isPrefix longer)

theorem no_symbol (unread : symbol? cs = none) {token : Token} (listed : (front, token) ∈ symbols) :
    ¬ front <+: cs := by
  intro isPrefix
  exact List.find?_eq_none.mp unread _ listed (List.isPrefixOf_iff_prefix.mpr isPrefix)

/-! ### One lexeme after the other -/

/-- A word, a number and a symbol never start with the same character. -/
theorem IsLexeme.kinds (isLexeme : IsLexeme front) (isPrefix : front <+: c :: cs) :
    (IsWord front ∧ isWordStart c) ∨
    (∃ m : Numeral, m.Proper ∧ m.text = front ∧ numeral? (c :: cs) ≠ none) ∨
    ∃ token, (front, token) ∈ symbols ∧ numeral? (c :: cs) = none ∧ isWordStart c = false := by
  cases isLexeme with
  | word isWord => exact .inl ⟨isWord, isWord.start isPrefix⟩
  | @number m proper =>
    obtain ⟨n, rest, read, -⟩ := numeral_of_prefix proper isPrefix
    exact .inr (.inl ⟨m, proper, rfl, by simp [read]⟩)
  | @symbol text known =>
    obtain ⟨token, listed⟩ := symbolTexts_iff.mpr ⟨text, known, rfl⟩
    refine .inr (.inr ⟨token, listed, ?_⟩)
    generalize text.toList = front at isPrefix listed
    cases front with
    | nil => exact absurd rfl ((by decide : ∀ entry ∈ symbols, entry.1 ≠ []) _ listed)
    | cons d front =>
      obtain ⟨rfl, -⟩ := List.cons_prefix_cons.mp isPrefix
      obtain ⟨-, noNumber, noWord⟩ := symbols_apart listed
      exact ⟨noNumber cs, noWord⟩

/-- What is cut off a text without a quote in front is its longest lexeme, with its meaning, unless
there is none. -/
theorem cut_longest (unquoted : ¬(c = '"' ∨ c = '\x27')) :
    (LongestLexeme (cut position c cs).text (c :: cs) ∧
      Means position (cut position c cs).text (cut position c cs).outcome) ∨
    (cut position c cs = ⟨.error (.unexpectedCharacter c position), [], c :: cs⟩ ∧
      ∀ front, IsLexeme front → ¬ front <+: c :: cs) := by
  have front : (cut position c cs).text <+: c :: cs := ⟨_, cut_parts position c cs⟩
  have described := cut_of position c cs
  generalize cut position c cs = cut at described front ⊢
  -- What competes with a number is a number, since it starts like no word and no symbol.
  have number {n : Numeral} {rest : List Char} (read : numeral? (c :: cs) = some (n, rest))
      (isPrefix : n.text <+: c :: cs) : LongestLexeme n.text (c :: cs) := by
    refine ⟨.number (numeral_ok read).1, isPrefix, ?_⟩
    intro other isLexeme otherPrefix
    rcases isLexeme.kinds otherPrefix with ⟨-, start⟩ | ⟨m, proper, rfl, -⟩ | ⟨-, -, noNumber, -⟩
    · rw [(isWordStart_apart start).2 cs] at read
      cases read
    · obtain ⟨_, _, again, lengthLe⟩ := numeral_of_prefix proper otherPrefix
      rw [read] at again
      cases again
      exact lengthLe
    · rw [noNumber] at read
      cases read
  cases described with
  | string quote => exact absurd quote unquoted
  | unterminated quote => exact absurd quote unquoted
  | number _ read fits =>
    exact .inl ⟨number read front, (literal_means (numeral_ok read).1).1 _ fits⟩
  | invalidNumber _ read exceeds =>
    exact .inl ⟨number read front, (literal_means (numeral_ok read).1).2 exceeds⟩
  | word _ noNumber start =>
    refine .inl ⟨⟨.word (isWord_takeWhile start), front, ?_⟩,
      wordToken_means (isWord_takeWhile start)⟩
    intro other isLexeme otherPrefix
    rcases isLexeme.kinds otherPrefix with ⟨isWord, -⟩ | ⟨-, -, -, isNumber⟩ | ⟨-, -, -, noWord⟩
    · exact length_le_takeWhile isWord.parts otherPrefix
    · exact absurd noNumber isNumber
    · rw [start] at noWord
      cases noWord
  | symbol _ noNumber noWord read =>
    have listed := (symbol_ok read).1
    obtain ⟨text, known, same⟩ := symbolTexts_iff.mp ⟨_, listed⟩
    refine .inl ⟨⟨same ▸ .symbol known, front, ?_⟩, .symbol listed⟩
    intro other isLexeme otherPrefix
    rcases isLexeme.kinds otherPrefix with ⟨-, start⟩ | ⟨-, -, -, isNumber⟩ | ⟨_, otherListed, -⟩
    · rw [noWord] at start
      cases start
    · exact absurd noNumber isNumber
    · exact symbol_longest read otherListed otherPrefix
  | unexpected _ noNumber noWord noSymbol =>
    refine .inr ⟨rfl, ?_⟩
    intro other isLexeme otherPrefix
    rcases isLexeme.kinds otherPrefix with ⟨-, start⟩ | ⟨-, -, -, isNumber⟩ | ⟨_, listed, -⟩
    · rw [noWord] at start
      cases start
    · exact isNumber noNumber
    · exact no_symbol noSymbol listed otherPrefix

theorem Means.expected {outcome : Except FilterError Token} (means : Means position front outcome)
    (d : Char) (place : Nat) : outcome ≠ .error (.unexpectedCharacter d place) := by
  rintro rfl
  cases means

/-- At every place of every text, also behind errors: blanks are skipped, and in front of a
character that is no quote the longest lexeme is read as what it means. The character is unexpected
exactly if no lexeme starts with it, and then it is left where it is. -/
theorem next_longest (text : String) (calls : Nat) {blanks cs : List Char} {c : Char}
    (unread : (Lexer.afterCalls text calls).rest = blanks ++ c :: cs)
    (blank : ∀ b ∈ blanks, Text.isBlank b) (visible : Text.isBlank c = false)
    (unquoted : c ≠ '"' ∧ c ≠ '\x27') :
    ∃ before : String, text = before ++ String.ofList (c :: cs) ∧
      ((∃ front rest outcome, c :: cs = front ++ rest ∧ LongestLexeme front (c :: cs) ∧
          Means before.utf8ByteSize front outcome ∧
          (Lexer.afterCalls text calls).next =
            (outcome.map fun token => some ⟨token, String.ofList front, before.utf8ByteSize⟩,
              ⟨before.utf8ByteSize + utf8Width front, rest⟩)) ∨
        (Lexer.afterCalls text calls).next =
          (.error (.unexpectedCharacter c before.utf8ByteSize),
            ⟨before.utf8ByteSize, c :: cs⟩)) ∧
      ((∃ d place, (Lexer.afterCalls text calls).next.1 = .error (.unexpectedCharacter d place)) ↔
        ∀ front, IsLexeme front → ¬ front <+: c :: cs) := by
  obtain ⟨before, text_eq, position_eq⟩ := Lexer.afterCalls_standsIn text calls
  rw [unread] at text_eq
  have next : (Lexer.afterCalls text calls).next =
      (⟨utf8Width (before ++ blanks), c :: cs⟩ : Lexer).next := by
    rw [utf8Width_append, ← position_eq, ← Lexer.next_blanks blank, ← unread]
  have place : (String.ofList (before ++ blanks)).utf8ByteSize = utf8Width (before ++ blanks) := by
    rw [← utf8Width_toList, String.toList_ofList]
  refine ⟨String.ofList (before ++ blanks), ?_, ?_⟩
  · apply String.toList_inj.mp
    simp [text_eq]
  rw [place, next, Lexer.next_visible visible]
  have parts := cut_parts (utf8Width (before ++ blanks)) c cs
  have front := @cut_longest (utf8Width (before ++ blanks)) c cs (not_or.mpr unquoted)
  rcases front with ⟨longest, means⟩ | ⟨same, noLexeme⟩
  · refine ⟨.inl ⟨_, _, _, parts.symm, longest, means, rfl⟩, ?_⟩
    constructor
    · rintro ⟨d, place, failed⟩
      generalize (cut (utf8Width (before ++ blanks)) c cs).outcome = outcome at means failed
      cases outcome with
      | ok token => cases failed
      | error cause =>
        cases failed
        exact absurd rfl (means.expected d place)
    · intro noLexeme
      exact absurd longest.isPrefix (noLexeme _ longest.isLexeme)
  · rw [same]
    exact ⟨.inr rfl, fun _ => noLexeme, fun _ => ⟨c, _, rfl⟩⟩

/-- A number takes its sign and one point, and leaves the second point. -/
theorem next_longest_second_point :
    (Lexer.afterCalls "x\u00a0-1.50.7" 1).rest = '\u00a0' :: '-' :: "1.50.7".toList ∧
      (∀ b ∈ ['\u00a0'], Text.isBlank b) ∧ Text.isBlank '-' = false ∧ ('-' ≠ '"' ∧ '-' ≠ '\x27') ∧
      LongestLexeme "-1.50".toList "-1.50.7".toList ∧
      (Lexer.afterCalls "x\u00a0-1.50.7" 1).next =
        (.ok (some ⟨.literal (.float ⟨0xBFF8000000000000⟩), "-1.50", 3⟩), ⟨8, ".7".toList⟩) := by
  have unread : (Lexer.afterCalls "x\u00a0-1.50.7" 1).rest =
      ['\u00a0'] ++ '-' :: "1.50.7".toList := by decide +kernel
  have read : (Lexer.afterCalls "x\u00a0-1.50.7" 1).next.1 =
      .ok (some ⟨.literal (.float ⟨0xBFF8000000000000⟩), "-1.50", 3⟩) := by decide +kernel
  have blank : ∀ b ∈ ['\u00a0'], Text.isBlank b := List.forall_mem_singleton.mpr rfl
  have unquoted : '-' ≠ '"' ∧ '-' ≠ '\x27' := by decide
  refine ⟨unread, blank, rfl, unquoted, ?_⟩
  obtain ⟨before, text_eq, outcome, -⟩ := next_longest _ 1 unread blank rfl unquoted
  rcases outcome with ⟨front, rest, outcome, parts, longest, -, next⟩ | next
  · rw [next] at read ⊢
    obtain ⟨token, -, same⟩ := map_ok read
    obtain ⟨rfl, frontEq, placeEq⟩ : _ ∧ _ ∧ _ := by simpa using same
    obtain rfl : front = "-1.50".toList := by rw [← frontEq, String.toList_ofList]
    have split : '-' :: "1.50.7".toList = "-1.50".toList ++ ".7".toList := by decide +kernel
    obtain rfl : ".7".toList = rest := List.append_cancel_left (split.symm.trans parts)
    have width : utf8Width "-1.50".toList = 5 := by decide +kernel
    exact ⟨longest, Prod.ext read (by rw [placeEq, width])⟩
  · rw [next] at read
    cases read

end QueryFilter
