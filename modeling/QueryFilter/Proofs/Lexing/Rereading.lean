import Mathlib.Data.List.Find
import Mathlib.Data.List.TakeWhile
import Mathlib.Tactic.Tauto
import QueryFilter.Proofs.Lexing.Escapes
import QueryFilter.Proofs.Outcome

/-!
# Lexemes alone

What a lexeme is does not depend on the text around it: wherever its text stands in front of a blank
or the end, the same lexeme is read again. `next_ok` says this together with where in the text the
lexeme was found.
-/

namespace QueryFilter

/-! ### Boundaries -/

/-- The text is at its end or goes on with a blank. -/
def Boundary (rest : List Char) : Prop := ∀ c ∈ rest.head?, Text.isBlank c

theorem boundary_nil : Boundary [] := by simp [Boundary]

/-- No blank is among the visible characters of ASCII. -/
theorem isBlank_of_visible {c : Char} (least : 0x21 ≤ c.toNat) (greatest : c.toNat ≤ 0x7E) :
    Text.isBlank c = false := by
  simp only [Text.isBlank, Text.blankRanges, Text.CodeRanges.has, List.any_cons, List.any_nil,
    Bool.or_eq_false_iff, Bool.and_eq_false_iff, decide_eq_false_iff_not, and_true]
  omega

/-- The letters of ASCII, in upper and in lower case. -/
theorem isAlpha_iff {c : Char} : c.isAlpha ↔
    0x41 ≤ c.toNat ∧ c.toNat ≤ 0x5A ∨ 0x61 ≤ c.toNat ∧ c.toNat ≤ 0x7A := by
  have ranges : c.isAlpha = (decide (c.val ≥ 'A'.val ∧ c.val ≤ 'Z'.val) ||
      (decide (c.val ≥ 'a'.val) && decide (c.val ≤ 'z'.val))) := rfl
  simp only [ranges, UInt32.le_iff_toNat_le, ge_iff_le, Bool.or_eq_true, Bool.and_eq_true,
    decide_eq_true_eq]
  rfl

theorem toNat_of_isWordStart {c : Char} (start : isWordStart c) :
    'A'.toNat ≤ c.toNat ∧ c.toNat ≤ 'z'.toNat := by
  have first : 'A'.toNat = 0x41 := by decide
  have last : 'z'.toNat = 0x7A := by decide
  simp only [isWordStart, Bool.or_eq_true, beq_iff_eq, isAlpha_iff] at start
  rcases start with (⟨least, greatest⟩ | ⟨least, greatest⟩) | rfl
  · omega
  · omega
  · decide

theorem isBlank_of_isWordPart {c : Char} (part : isWordPart c) : Text.isBlank c = false := by
  have kinds : isWordStart c ∨ c.isDigit := by
    simp only [isWordPart, Char.isAlphanum, isWordStart, Bool.or_eq_true] at part ⊢
    tauto
  rcases kinds with start | digit
  · obtain ⟨least, greatest⟩ := toNat_of_isWordStart start
    exact isBlank_of_visible (Nat.le_trans (by decide) least) (Nat.le_trans greatest (by decide))
  · obtain ⟨least, greatest⟩ := Char.isDigit_iff_toNat.mp digit
    exact isBlank_of_visible (Nat.le_trans (by decide) least) (Nat.le_trans greatest (by decide))

theorem isBlank_of_isDigit {c : Char} (digit : c.isDigit) : Text.isBlank c = false :=
  isBlank_of_isWordPart (by simp [isWordPart, Char.isAlphanum, digit])

/-- No character of a set without blanks stands at a boundary. -/
theorem Boundary.head_false {p : Char → Bool} (visible : ∀ c, p c → Text.isBlank c = false)
    {rest : List Char} (boundary : Boundary rest) : ∀ c ∈ rest.head?, p c = false := by
  intro c isHead
  have blank : Text.isBlank c := boundary c isHead
  cases inside : p c with
  | false => rfl
  | true =>
    rw [visible c inside] at blank
    cases blank

theorem takeWhile_exact {p : Char → Bool} {front rest : List Char} (inside : ∀ c ∈ front, p c)
    (outside : ∀ c ∈ rest.head?, p c = false) : (front ++ rest).takeWhile p = front := by
  rw [List.takeWhile_append_of_pos inside]
  cases rest with
  | nil => simp
  | cons c rest => simp [outside c rfl]

theorem dropWhile_exact {p : Char → Bool} {front rest : List Char} (inside : ∀ c ∈ front, p c)
    (outside : ∀ c ∈ rest.head?, p c = false) : (front ++ rest).dropWhile p = rest := by
  rw [List.dropWhile_append_of_pos inside]
  cases rest with
  | nil => rfl
  | cons c rest => simp [outside c rfl]

theorem head_dropWhile {p : Char → Bool} {cs : List Char} :
    ∀ c ∈ (cs.dropWhile p).head?, p c = false := by
  intro c isHead
  have holds := List.head?_dropWhile_not p cs
  rw [Option.mem_def.mp isHead] at holds
  exact holds

theorem drop_length_takeWhile (p : Char → Bool) (cs : List Char) :
    cs.drop (cs.takeWhile p).length = cs.dropWhile p := by
  have parts := List.takeWhile_append_dropWhile (p := p) (l := cs)
  calc cs.drop (cs.takeWhile p).length
      = (cs.takeWhile p ++ cs.dropWhile p).drop (cs.takeWhile p).length := by rw [parts]
    _ = cs.dropWhile p := List.drop_left

/-! ### Numbers -/

namespace Numeral

/-- A numeral without its sign. -/
def unsignedText (n : Numeral) : List Char :=
  n.digits ++ (if n.fraction = [] then [] else '.' :: n.fraction)

/-- A numeral has digits, and only digits before and behind its point. -/
structure Proper (n : Numeral) : Prop where
  nonempty : n.digits ≠ []
  digits : ∀ c ∈ n.digits, c.isDigit
  fraction : ∀ c ∈ n.fraction, c.isDigit

/-- The text goes on with nothing that could belong to the numeral. -/
structure EndsAt (n : Numeral) (rest : List Char) : Prop where
  noDigit : ∀ c ∈ rest.head?, c.isDigit = false
  noFraction : n.fraction = [] → QueryFilter.fraction rest = []

theorem text_eq (n : Numeral) :
    n.text = (if n.negative then ['-'] else []) ++ n.unsignedText :=
  List.append_assoc _ _ _

theorem text_ne_nil {n : Numeral} (proper : n.Proper) : n.text ≠ [] := by
  simp [text_eq, unsignedText, proper.nonempty]

theorem endsAt_of_boundary (n : Numeral) {rest : List Char} (boundary : Boundary rest) :
    n.EndsAt rest := by
  refine ⟨boundary.head_false fun c => isBlank_of_isDigit, fun _ => ?_⟩
  cases rest with
  | nil => rfl
  | cons c rest =>
    have blank : Text.isBlank c := boundary c rfl
    have noPoint : c ≠ '.' := by
      rintro rfl
      cases blank
    unfold QueryFilter.fraction
    split
    · rename_i same
      exact absurd (List.cons.inj same).1 noPoint
    · rfl

end Numeral

theorem fraction_eq {cs digits : List Char} (nonempty : digits ≠ []) (same : fraction cs = digits) :
    ∃ rest, cs = '.' :: rest ∧ rest.takeWhile Char.isDigit = digits := by
  unfold fraction at same
  split at same
  · exact ⟨_, rfl, same⟩
  · exact absurd same.symm nonempty

theorem unsigned_ok {negative : Bool} {cs rest : List Char} {n : Numeral}
    (read : unsigned? negative cs = some (n, rest)) :
    n.negative = negative ∧ n.Proper ∧ n.EndsAt rest ∧ cs = n.unsignedText ++ rest := by
  have parts := List.takeWhile_append_dropWhile (p := Char.isDigit) (l := cs)
  have digits : ∀ c ∈ cs.takeWhile Char.isDigit, c.isDigit := fun c => List.mem_takeWhile_imp
  unfold unsigned? at read
  dsimp only at read
  split at read
  · cases read
  · rename_i nonempty
    split at read
    · rename_i whole
      obtain ⟨rfl, rfl⟩ := by simpa using read
      refine ⟨rfl, ⟨nonempty, digits, by simp⟩, ⟨head_dropWhile, fun _ => whole⟩, ?_⟩
      simp [Numeral.unsignedText]
    · rename_i point
      obtain ⟨rfl, rfl⟩ := by simpa using read
      obtain ⟨tail, rest_eq, digits_eq⟩ := fraction_eq point rfl
      have behind : (cs.dropWhile Char.isDigit).drop
          ((fraction (cs.dropWhile Char.isDigit)).length + 1) = tail.dropWhile Char.isDigit := by
        rw [← digits_eq, rest_eq, List.drop_succ_cons, drop_length_takeWhile]
      rw [behind]
      refine ⟨rfl, ⟨nonempty, digits, ?_⟩, ⟨head_dropWhile, fun empty => absurd empty point⟩, ?_⟩
      · rw [← digits_eq]
        exact fun c => List.mem_takeWhile_imp
      · rw [Numeral.unsignedText, if_neg point, ← digits_eq, List.append_assoc, List.cons_append,
          List.takeWhile_append_dropWhile, ← rest_eq, parts]

theorem unsigned_text {n : Numeral} (proper : n.Proper) {rest : List Char} (ends : n.EndsAt rest) :
    unsigned? n.negative (n.unsignedText ++ rest) = some (n, rest) := by
  obtain ⟨negative, digits, frac⟩ := n
  obtain ⟨nonempty, areDigits, fractionDigits⟩ := proper
  obtain ⟨noDigit, noFraction⟩ := ends
  dsimp only at nonempty areDigits fractionDigits noFraction ⊢
  unfold unsigned? Numeral.unsignedText
  cases frac with
  | nil =>
    have whole : fraction rest = [] := noFraction rfl
    simp [takeWhile_exact areDigits noDigit, dropWhile_exact areDigits noDigit, nonempty, whole]
  | cons d ds =>
    have point : ∀ c ∈ ('.' :: d :: ds ++ rest).head?, c.isDigit = false := by
      rintro c ⟨⟩
      rfl
    have read : fraction ('.' :: d :: ds ++ rest) = d :: ds :=
      takeWhile_exact fractionDigits noDigit
    have taken := takeWhile_exact areDigits point
    have left := dropWhile_exact areDigits point
    simp only [reduceCtorEq, ↓reduceIte, List.append_assoc, taken, left, read, nonempty]
    simp

theorem numeral_ok {cs rest : List Char} {n : Numeral} (read : numeral? cs = some (n, rest)) :
    n.Proper ∧ n.EndsAt rest ∧ cs = n.text ++ rest := by
  unfold numeral? at read
  rw [Numeral.text_eq]
  split at read
  · obtain ⟨negative, proper, ends, rfl⟩ := unsigned_ok read
    exact ⟨proper, ends, by simp [negative]⟩
  · obtain ⟨positive, proper, ends, rfl⟩ := unsigned_ok read
    exact ⟨proper, ends, by simp [positive]⟩

/-- A numeral is read in front of everything that does not belong to it. -/
theorem numeral_text {n : Numeral} (proper : n.Proper) {rest : List Char} (ends : n.EndsAt rest) :
    numeral? (n.text ++ rest) = some (n, rest) := by
  have read := unsigned_text proper ends
  rw [Numeral.text_eq, List.append_assoc]
  cases sign : n.negative with
  | true =>
    rw [sign] at read
    exact read
  | false =>
    rw [sign] at read
    obtain ⟨d, ds, digits⟩ := List.exists_cons_of_ne_nil proper.nonempty
    have isDigit : d.isDigit := proper.digits d (by simp [digits])
    have noSign : d ≠ '-' := by
      rintro rfl
      cases isDigit
    simp only [Bool.false_eq_true, ↓reduceIte, List.nil_append]
    unfold numeral?
    split
    · rename_i same
      rw [Numeral.unsignedText, digits] at same
      exact absurd (List.cons.inj same).1 noSign
    · exact read

/-! ### Symbols -/

/-- A character with which some symbol goes on to a longer one. -/
def continuesSymbol (c : Char) : Bool := c == '=' || c == '>' || c == '['

theorem isBlank_of_continuesSymbol {c : Char} (more : continuesSymbol c) :
    Text.isBlank c = false := by
  simp only [continuesSymbol, Bool.or_eq_true, beq_iff_eq] at more
  rcases more with (rfl | rfl) | rfl <;> decide

/-- What stands behind a text is no part of a symbol in front of it, unless the first character
behind goes on with that symbol. -/
theorem isPrefixOf_append {symbol front rest : List Char}
    (ends : ∀ c ∈ rest.head?, ¬ front ++ [c] <+: symbol) :
    symbol.isPrefixOf (front ++ rest) = symbol.isPrefixOf front := by
  induction symbol generalizing front with
  | nil => simp
  | cons s symbol ih =>
    cases front with
    | cons c front =>
      rw [List.cons_append, List.isPrefixOf_cons_cons, List.isPrefixOf_cons_cons]
      by_cases same : s = c
      · subst same
        have endsRest : ∀ d ∈ rest.head?, ¬ front ++ [d] <+: symbol := fun d isHead longer =>
          ends d isHead ((List.prefix_cons_inj s).mpr longer)
        rw [ih endsRest]
      · rw [beq_false_of_ne same, Bool.false_and, Bool.false_and]
    | nil =>
      cases rest with
      | nil => rfl
      | cons c rest =>
        have different : s ≠ c := by
          rintro rfl
          exact ends s rfl ⟨symbol, rfl⟩
        simp [List.isPrefixOf, different]

theorem symbol_ok {cs symbol : List Char} {token : Token}
    (read : symbol? cs = some (symbol, token)) :
    (symbol, token) ∈ symbols ∧ ∃ rest, cs = symbol ++ rest := by
  have member := List.mem_of_find?_eq_some read
  have front : symbol.isPrefixOf cs :=
    List.find?_some (p := fun entry : List Char × Token => entry.1.isPrefixOf cs) read
  obtain ⟨rest, same⟩ := List.isPrefixOf_iff_prefix.mp front
  exact ⟨member, rest, same.symm⟩

/-- A symbol is read in front of everything that does not go on with a symbol. -/
theorem symbol_text {symbol : List Char} {token : Token} (known : (symbol, token) ∈ symbols)
    {rest : List Char} (ends : ∀ c ∈ rest.head?, continuesSymbol c = false) :
    symbol? (symbol ++ rest) = some (symbol, token) := by
  have longer : ∀ entry ∈ symbols, ∀ other ∈ symbols, entry.1 <+: other.1 →
      (other.1.drop entry.1.length).head?.all continuesSymbol := by decide
  have alone : ∀ entry ∈ symbols, symbol? entry.1 = some entry := by decide
  rw [← alone _ known]
  unfold symbol?
  refine List.find?_congr ?_
  intro other member
  apply isPrefixOf_append
  rintro c isHead ⟨tail, other_eq⟩
  have more := longer _ known other member ⟨c :: tail, by simpa using other_eq⟩
  have behind : (other.1.drop symbol.length).head? = some c := by simp [← other_eq]
  rw [behind, Option.all_some] at more
  rw [ends c isHead] at more
  cases more

/-! ### Cuts -/

/-- All that a cut can be, one constructor for each kind of lexeme and each error. -/
inductive Cut.Of (position : Nat) (c : Char) (cs : List Char) : Cut → Prop where
  | string {value text rest : List Char} (quote : c = '"' ∨ c = '\x27')
    (read : stringBody? c cs = some (value, text, rest)) :
    Of position c cs ⟨.ok (.literal (.string (String.ofList value))), c :: text, rest⟩
  | unterminated (quote : c = '"' ∨ c = '\x27') (read : stringBody? c cs = none) :
    Of position c cs ⟨.error (.unterminatedString position), c :: cs, []⟩
  | number {numeral : Numeral} {value : Literal} {rest : List Char}
    (unquoted : ¬(c = '"' ∨ c = '\x27')) (read : numeral? (c :: cs) = some (numeral, rest))
    (fits : numeral.literal? = some value) :
    Of position c cs ⟨.ok (.literal value), numeral.text, rest⟩
  | invalidNumber {numeral : Numeral} {rest : List Char} (unquoted : ¬(c = '"' ∨ c = '\x27'))
    (read : numeral? (c :: cs) = some (numeral, rest)) (exceeds : numeral.literal? = none) :
    Of position c cs
      ⟨.error (.invalidNumber (String.ofList numeral.text) position), numeral.text, rest⟩
  | word (unquoted : ¬(c = '"' ∨ c = '\x27')) (noNumber : numeral? (c :: cs) = none)
    (start : isWordStart c) :
    Of position c cs ⟨.ok (wordToken ((c :: cs).takeWhile isWordPart)),
      (c :: cs).takeWhile isWordPart, (c :: cs).dropWhile isWordPart⟩
  | symbol {symbol : List Char} {token : Token} (unquoted : ¬(c = '"' ∨ c = '\x27'))
    (noNumber : numeral? (c :: cs) = none) (noWord : isWordStart c = false)
    (read : symbol? (c :: cs) = some (symbol, token)) :
    Of position c cs ⟨.ok token, symbol, (c :: cs).drop symbol.length⟩
  | unexpected (unquoted : ¬(c = '"' ∨ c = '\x27')) (noNumber : numeral? (c :: cs) = none)
    (noWord : isWordStart c = false) (noSymbol : symbol? (c :: cs) = none) :
    Of position c cs ⟨.error (.unexpectedCharacter c position), [], c :: cs⟩

theorem cut_of (position : Nat) (c : Char) (cs : List Char) :
    Cut.Of position c cs (cut position c cs) := by
  unfold cut
  split
  · rename_i quote
    split
    · exact .string quote ‹_›
    · exact .unterminated quote ‹_›
  · rename_i unquoted
    split
    · split
      · exact .number unquoted ‹_› ‹_›
      · exact .invalidNumber unquoted ‹_› ‹_›
    · rename_i noNumber
      split
      · exact .word unquoted noNumber ‹_›
      · rename_i noWord
        have notStart : isWordStart c = false := by simpa using noWord
        split
        · exact .symbol unquoted noNumber notStart ‹_›
        · exact .unexpected unquoted noNumber notStart ‹_›

variable {position : Nat} {c : Char} {cs : List Char} {token : Token}

theorem Cut.Of.eq {front : Cut} (described : Cut.Of position c cs front) :
    cut position c cs = front := by
  cases described with
  | string quote read => simp [cut, quote, read]
  | unterminated quote read => simp [cut, quote, read]
  | number unquoted read fits => simp [cut, unquoted, read, fits]
  | invalidNumber unquoted read exceeds => simp [cut, unquoted, read, exceeds]
  | word unquoted noNumber start => simp [cut, unquoted, noNumber, start]
  | symbol unquoted noNumber noWord read => simp [cut, unquoted, noNumber, noWord, read]
  | unexpected unquoted noNumber noWord noSymbol =>
    simp [cut, unquoted, noNumber, noWord, noSymbol]

/-- Only a sign or a digit starts a number. -/
theorem numeral_none (noSign : c ≠ '-') (noDigit : c.isDigit = false) (cs : List Char) :
    numeral? (c :: cs) = none := by
  unfold numeral?
  split
  · rename_i same
    exact absurd (List.cons.inj same).1 noSign
  · simp [unsigned?, noDigit]

theorem isWordStart_apart (start : isWordStart c) :
    ¬(c = '"' ∨ c = '\x27') ∧ ∀ cs, numeral? (c :: cs) = none := by
  have different (d : Char) (noStart : isWordStart d = false) : c ≠ d := by
    rintro rfl
    rw [noStart] at start
    cases start
  have noDigit : c.isDigit = false := by
    have least := (toNat_of_isWordStart start).1
    have apart : '9'.toNat < 'A'.toNat := by decide
    rw [← Bool.not_eq_true, Char.isDigit_iff_toNat]
    omega
  exact ⟨not_or.mpr ⟨different '"' (by decide), different '\x27' (by decide)⟩,
    numeral_none (different '-' (by decide)) noDigit⟩

theorem symbols_apart {symbol : List Char} (known : (c :: symbol, token) ∈ symbols) :
    ¬(c = '"' ∨ c = '\x27') ∧ (∀ cs, numeral? (c :: cs) = none) ∧ isWordStart c = false := by
  have apart : ∀ entry ∈ symbols, entry.1.head?.all fun d =>
      (¬(d = '"' ∨ d = '\x27') ∧ d ≠ '-') ∧ d.isDigit = false ∧ isWordStart d = false := by decide
  have first := apart _ known
  rw [List.head?_cons, Option.all_some] at first
  obtain ⟨⟨unquoted, noSign⟩, noDigit, noWord⟩ := of_decide_eq_true first
  exact ⟨unquoted, numeral_none noSign noDigit, noWord⟩

theorem isBlank_of_symbol {symbol : List Char} (known : (c :: symbol, token) ∈ symbols) :
    Text.isBlank c = false := by
  have visible : ∀ entry ∈ symbols, entry.1.head?.all fun d => Text.isBlank d = false := by decide
  have first := visible _ known
  rw [List.head?_cons, Option.all_some] at first
  exact of_decide_eq_true first

/-- A symbol that is cut off starts with the first character. -/
theorem symbol_cons {symbol : List Char} (read : symbol? (c :: cs) = some (symbol, token)) :
    ∃ more rest, symbol = c :: more ∧ cs = more ++ rest ∧ (c :: more, token) ∈ symbols := by
  obtain ⟨known, rest, same⟩ := symbol_ok read
  cases symbol with
  | nil => exact absurd rfl (symbol_ne_nil read)
  | cons d more =>
    obtain ⟨rfl, rfl⟩ := List.cons.inj same
    exact ⟨more, rest, rfl, rfl, known⟩

theorem cut_word {more rest : List Char} (start : isWordStart c)
    (inside : ∀ d ∈ more, isWordPart d) (ends : ∀ d ∈ rest.head?, isWordPart d = false) :
    cut position c (more ++ rest) = ⟨.ok (wordToken (c :: more)), c :: more, rest⟩ := by
  obtain ⟨unquoted, noNumber⟩ := isWordStart_apart start
  have insideAll : ∀ d ∈ c :: more, isWordPart d :=
    List.forall_mem_cons.mpr ⟨isWordPart_of_isWordStart start, inside⟩
  rw [(Cut.Of.word unquoted (noNumber _) start).eq, ← List.cons_append,
    takeWhile_exact insideAll ends, dropWhile_exact insideAll ends]

theorem cut_symbol {more rest : List Char} (known : (c :: more, token) ∈ symbols)
    (ends : ∀ d ∈ rest.head?, continuesSymbol d = false) :
    cut position c (more ++ rest) = ⟨.ok token, c :: more, rest⟩ := by
  obtain ⟨unquoted, noNumber, noWord⟩ := symbols_apart known
  have read : symbol? (c :: (more ++ rest)) = some (c :: more, token) := symbol_text known ends
  rw [(Cut.Of.symbol unquoted (noNumber _) noWord read).eq]
  simp

/-- The text of a lexeme stands in front of what was left, and in front of a boundary the same
lexeme is cut off. -/
theorem cut_ok (read : (cut position c cs).outcome = .ok token) :
    ∃ more rest, cut position c cs = ⟨.ok token, c :: more, rest⟩ ∧ cs = more ++ rest ∧
      ∀ place other, Boundary other →
        cut place c (more ++ other) = ⟨.ok token, c :: more, other⟩ := by
  have described := cut_of position c cs
  generalize cut position c cs = front at read described ⊢
  cases described with
  | unterminated => cases read
  | invalidNumber => cases read
  | unexpected => cases read
  | @string value text rest quote body =>
    cases read
    obtain ⟨same, again⟩ := stringBody_ok (backslash_not_quote quote) body
    exact ⟨text, rest, rfl, same, fun place other _ => (Cut.Of.string quote (again other)).eq⟩
  | @number numeral value rest unquoted number fits =>
    cases read
    obtain ⟨proper, -, same⟩ := numeral_ok number
    obtain ⟨d, more, text_eq⟩ := List.exists_cons_of_ne_nil (Numeral.text_ne_nil proper)
    rw [text_eq] at same ⊢
    obtain ⟨rfl, rfl⟩ := List.cons.inj same
    refine ⟨more, rest, rfl, rfl, fun place other boundary => ?_⟩
    have again := numeral_text proper (numeral.endsAt_of_boundary boundary)
    rw [text_eq] at again
    have alone : Cut.Of place c (more ++ other) ⟨.ok (.literal value), numeral.text, other⟩ :=
      .number unquoted again fits
    rw [alone.eq, text_eq]
  | word unquoted noNumber start =>
    cases read
    have part : isWordPart c := isWordPart_of_isWordStart start
    have parts := List.takeWhile_append_dropWhile (p := isWordPart) (l := cs)
    rw [List.takeWhile_cons, if_pos part, List.dropWhile_cons, if_pos part]
    exact ⟨_, _, rfl, parts.symm, fun place other boundary => cut_word start
      (fun d => List.mem_takeWhile_imp) (boundary.head_false fun d => isBlank_of_isWordPart)⟩
  | @symbol symbol token unquoted noNumber noWord found =>
    cases read
    obtain ⟨more, rest, rfl, rfl, known⟩ := symbol_cons found
    exact ⟨more, rest, by simp, rfl, fun place other boundary =>
      cut_symbol known (boundary.head_false fun d => isBlank_of_continuesSymbol)⟩

/-! ### Lexers -/

theorem utf8Width_append (front back : List Char) :
    utf8Width (front ++ back) = utf8Width front + utf8Width back := by
  induction front with
  | nil => simp [utf8Width]
  | cons c front ih => rw [List.cons_append, utf8Width, ih, utf8Width, Nat.add_assoc]

namespace Lexer

variable {l after : Lexer} {lexeme : Lexeme} {blanks : List Char}

/-- Blanks only move the place of what stands behind them. -/
theorem next_blanks (blank : ∀ b ∈ blanks, Text.isBlank b) :
    (⟨position, blanks ++ cs⟩ : Lexer).next = (⟨position + utf8Width blanks, cs⟩ : Lexer).next := by
  have skipped : (⟨position, blanks ++ cs⟩ : Lexer).skipBlanks =
      (⟨position + utf8Width blanks, cs⟩ : Lexer).skipBlanks := by
    simp only [skipBlanks, List.takeWhile_append_of_pos blank, List.dropWhile_append_of_pos blank,
      utf8Width_append, Nat.add_assoc]
  simp only [next, skipped]

/-- A text that starts with no blank has its front cut off. -/
theorem next_visible (visible : Text.isBlank c = false) :
    (⟨position, c :: cs⟩ : Lexer).next =
      ((cut position c cs).outcome.map fun token =>
          some ⟨token, String.ofList (cut position c cs).text, position⟩,
        ⟨position + utf8Width (cut position c cs).text, (cut position c cs).rest⟩) := by
  have skipped : (⟨position, c :: cs⟩ : Lexer).skipBlanks = ⟨position, c :: cs⟩ := by
    simp [skipBlanks, visible, utf8Width]
  simp only [next, skipped]

/-- Every text is blank, or blanks and then a character that is none. -/
theorem blanks_split (l : Lexer) :
    (∀ b ∈ l.rest, Text.isBlank b) ∨
      ∃ blanks c cs, (∀ b ∈ blanks, Text.isBlank b) ∧ Text.isBlank c = false ∧
        l = ⟨l.position, blanks ++ c :: cs⟩ := by
  have parts := List.takeWhile_append_dropWhile (p := Text.isBlank) (l := l.rest)
  have blank : ∀ b ∈ l.rest.takeWhile Text.isBlank, Text.isBlank b :=
    fun b => List.mem_takeWhile_imp
  cases visible : l.rest.dropWhile Text.isBlank with
  | nil => exact .inl (List.dropWhile_eq_nil_iff.mp visible)
  | cons c cs =>
    have first : Text.isBlank c = false := head_dropWhile c (by rw [visible]; rfl)
    rw [visible] at parts
    exact .inr ⟨_, c, cs, blank, first, by rw [parts]⟩

theorem next_end {l : Lexer} (blank : ∀ b ∈ l.rest, Text.isBlank b) :
    l.next = (.ok none, ⟨l.position + utf8Width l.rest, []⟩) := by
  have all : (⟨l.position, l.rest ++ []⟩ : Lexer).next = _ := next_blanks blank
  rwa [List.append_nil] at all

/-- What is cut off a text that starts with no blank is the next lexeme. -/
theorem next_of_cut {text rest : List Char} (visible : Text.isBlank c = false)
    (cutEq : cut position c cs = ⟨.ok token, text, rest⟩) : (⟨position, c :: cs⟩ : Lexer).next =
      (.ok (some ⟨token, String.ofList text, position⟩), ⟨position + utf8Width text, rest⟩) := by
  rw [next_visible visible, cutEq]
  rfl

/-- At the end of a text only blanks are left. -/
theorem next_none (read : l.next = (.ok none, after)) : ∀ c ∈ l.rest, Text.isBlank c := by
  rcases l.blanks_split with blank | ⟨blanks, c, cs, blank, visible, same⟩
  · exact blank
  · rw [same, next_blanks blank, next_visible visible] at read
    obtain ⟨token, -, none_eq⟩ := map_ok (Prod.mk.inj read).1
    cases none_eq

/-- Every lexeme was cut off some text. -/
theorem next_cut (read : l.next = (.ok (some lexeme), after)) : ∃ position c cs text rest,
    lexeme.text = String.ofList text ∧ Cut.Of position c cs ⟨.ok lexeme.token, text, rest⟩ := by
  rcases l.blanks_split with blank | ⟨blanks, c, cs, blank, visible, same⟩
  · rw [next_end blank] at read
    cases read
  · rw [same, next_blanks blank, next_visible visible] at read
    generalize l.position + utf8Width blanks = position at read
    obtain ⟨token, isToken, lexeme_eq⟩ := map_ok (Prod.mk.inj read).1
    cases lexeme_eq
    have described := cut_of position c cs
    generalize cut position c cs = front at isToken described
    obtain ⟨outcome, text, rest⟩ := front
    cases isToken
    exact ⟨position, c, cs, text, rest, rfl, described⟩

/-- The lexeme stands behind blanks and in front of the rest, and wherever its text stands in front
of a boundary the same lexeme is read. -/
structure Took (l : Lexer) (lexeme : Lexeme) (after : Lexer) : Prop where
  nonempty : lexeme.text ≠ ""
  behind : ∃ blanks, (∀ c ∈ blanks, Text.isBlank c) ∧
    l.rest = blanks ++ (lexeme.text.toList ++ after.rest) ∧
    lexeme.position = l.position + utf8Width blanks
  position_eq : after.position = lexeme.position + utf8Width lexeme.text.toList
  again : ∀ place other, Boundary other →
    (⟨place, lexeme.text.toList ++ other⟩ : Lexer).next =
      (.ok (some ⟨lexeme.token, lexeme.text, place⟩),
        ⟨place + utf8Width lexeme.text.toList, other⟩)

theorem next_ok (read : l.next = (.ok (some lexeme), after)) : Took l lexeme after := by
  rcases l.blanks_split with blank | ⟨blanks, c, cs, blank, visible, same⟩
  · rw [next_end blank] at read
    cases read
  · have rest_eq : l.rest = blanks ++ c :: cs := congrArg Lexer.rest same
    rw [same, next_blanks blank, next_visible visible] at read
    obtain ⟨outcome, rfl⟩ := Prod.mk.inj read
    obtain ⟨token, isToken, lexeme_eq⟩ := map_ok outcome
    cases lexeme_eq
    obtain ⟨more, rest, cutEq, rfl, again⟩ := cut_ok isToken
    rw [cutEq]
    refine ⟨by simp, ⟨blanks, blank, ?_, rfl⟩, by simp, ?_⟩
    · rw [rest_eq, String.toList_ofList, List.cons_append]
    · intro place other boundary
      rw [String.toList_ofList, List.cons_append]
      exact next_of_cut visible (again place other boundary)

/-! ### Lists of lexemes -/

theorem lexemes_error {cause : FilterError} (read : l.next = (.error cause, after)) :
    l.lexemes = .error cause := by
  rw [lexemes]
  split <;> simp_all

theorem lexemes_end (read : l.next = (.ok none, after)) : l.lexemes = .ok [] := by
  rw [lexemes]
  split <;> simp_all

theorem lexemes_more (read : l.next = (.ok (some lexeme), after)) :
    l.lexemes = after.lexemes.map (lexeme :: ·) := by
  rw [lexemes]
  split <;> simp_all

/-- Every lexeme of a run was read at some place. -/
theorem next_of_mem {ls : List Lexeme} (read : l.lexemes = .ok ls) :
    ∀ lexeme ∈ ls, ∃ before after : Lexer, before.next = (.ok (some lexeme), after) := by
  fun_induction lexemes l generalizing ls with
  | case1 => cases read
  | case2 =>
    cases read
    simp
  | case3 l lexeme after next ih =>
    obtain ⟨more, readMore, rfl⟩ := map_ok read
    exact List.forall_mem_cons.mpr ⟨⟨l, after, next⟩, ih readMore⟩

end Lexer

end QueryFilter
