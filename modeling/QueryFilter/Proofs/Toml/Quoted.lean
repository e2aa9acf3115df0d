import QueryFilter.Toml.Quoted

/-!
# Strings are read back

Whatever form `quotedText` chooses for a string, the reader finds the string again and stops right
behind it: `quoted_quotedText`. The reader is followed mode by mode: `Reads` says what a part of the
text adds to the string and which mode it leads to.
-/

namespace QueryFilter.Toml

variable {quotes : Quotes} {mode next last : Mode} {s rest : List Char} {mark : Char}

/-! ### Parts of a string -/

/-- Reading the text in one mode adds the value to the string and leads to another mode. -/
def Reads (quotes : Quotes) (mode : Mode) (text value : List Char) (next : Mode) : Prop :=
  ∀ rest, quotedBody? quotes mode (text ++ rest) =
    (quotedBody? quotes next rest).map fun (out, rest) => (value ++ out, rest)

theorem Reads.nil : Reads quotes mode [] [] mode := by
  intro rest
  simp

theorem Reads.append {text more value moreValue : List Char}
    (first : Reads quotes mode text value next)
    (second : Reads quotes next more moreValue last) :
    Reads quotes mode (text ++ more) (value ++ moreValue) last := by
  intro rest
  rw [List.append_assoc, first, second, Option.map_map]
  congr 1
  funext ⟨out, rest⟩
  simp

theorem Reads.of_move {c : Char} {out : List Char} (step : move quotes mode c = .advance out next) :
    Reads quotes mode [c] out next := by
  intro rest
  rw [List.singleton_append, quotedBody?, step]

theorem Reads.flatMap {f : Char → List Char}
    (each : ∀ c ∈ s, Reads quotes .plain (f c) [c] .plain) :
    Reads quotes .plain (s.flatMap f) s .plain := by
  induction s with
  | nil => exact .nil
  | cons c s ih =>
    have rest := ih fun other member => each other (List.mem_cons_of_mem _ member)
    simpa using (each c List.mem_cons_self).append rest

/-- A text between single marks. -/
theorem body_oneLine {text : List Char} (reads : Reads ⟨mark, false⟩ .plain text s .plain)
    (rest : List Char) :
    quotedBody? ⟨mark, false⟩ .plain (text ++ mark :: rest) = some (s, rest) := by
  have close : move ⟨mark, false⟩ .plain mark = .close [] false := by simp [move, plainMove]
  rw [reads, quotedBody?, close]
  simp

/-! ### Characters -/

theorem isTextChar_of_not_control {c : Char} (plain : isControl c = false) : isTextChar c := by
  simp [isTextChar, plain]

theorem reads_plain {c : Char} (notMark : c ≠ quotes.mark)
    (notEscape : c ≠ '\\' ∨ quotes.mark ≠ '"')
    (isText : isTextChar c) : Reads quotes .plain [c] [c] .plain := by
  have notLineEnd : c ≠ '\n' ∧ c ≠ '\r' := by
    constructor <;> rintro rfl <;> cases isText
  have noEscape : ¬ (c = '\\' ∧ quotes.escapes) := by
    rintro ⟨isBackslash, escapes⟩
    rcases notEscape with different | different
    · exact different isBackslash
    · exact different (by simpa [Quotes.escapes] using escapes)
  apply Reads.of_move
  simp only [move, plainMove, if_neg notMark, if_neg noEscape, notLineEnd.1, notLineEnd.2, isText,
    false_and, if_false, if_true]

section

variable (tripled : Bool)

theorem reads_backslash : Reads ⟨'"', tripled⟩ .plain ['\\'] [] .backslash := by
  apply Reads.of_move
  cases tripled <;> rfl

theorem reads_escape {letter c : Char} (known : escape? letter = some c) :
    Reads ⟨'"', tripled⟩ .plain ['\\', letter] [c] .plain := by
  refine (reads_backslash tripled).append (Reads.of_move ?_)
  unfold escape? at known
  split at known <;> cases known <;> cases tripled <;> rfl

theorem hexDigit_toUpper : ∀ digit < 16, hexDigit? (Nat.digitChar digit).toUpper = some digit := by
  decide

theorem codePointEscape_eq : ∀ n < 128, codePointEscape (Char.ofNat n) =
    ['\\', 'u', '0', '0', (Nat.digitChar (n / 16)).toUpper, (Nat.digitChar (n % 16)).toUpper] := by
  decide

theorem reads_hexDigit {left value digit : Nat} (more : left ≠ 1) (small : digit < 16) :
    Reads quotes (.codePoint left value) [(Nat.digitChar digit).toUpper] []
      (.codePoint (left - 1) (value * 16 + digit)) := by
  apply Reads.of_move
  simp [move, hexDigit_toUpper digit small, more]

theorem reads_lastHexDigit {value digit : Nat} (small : digit < 16)
    (valid : (value * 16 + digit).isValidChar) :
    Reads quotes (.codePoint 1 value) [(Nat.digitChar digit).toUpper]
      [Char.ofNat (value * 16 + digit)] .plain := by
  apply Reads.of_move
  simp [move, hexDigit_toUpper digit small, valid]

theorem reads_codePointEscape {c : Char} (small : c.toNat < 128) :
    Reads ⟨'"', tripled⟩ .plain (codePointEscape c) [c] .plain := by
  have escape : Reads ⟨'"', tripled⟩ .plain ['\\', 'u'] [] (.codePoint 4 0) :=
    (reads_backslash tripled).append (Reads.of_move rfl)
  have zeros : Reads ⟨'"', tripled⟩ (.codePoint 4 0) ['0', '0'] [] (.codePoint 2 0) :=
    (reads_hexDigit (by decide) (show 0 < 16 by decide)).append
      (reads_hexDigit (by decide) (show 0 < 16 by decide))
  have high : Reads ⟨'"', tripled⟩ (.codePoint 2 0) _ [] (.codePoint 1 (0 * 16 + c.toNat / 16)) :=
    reads_hexDigit (by decide) (by omega)
  have whole : (0 * 16 + c.toNat / 16) * 16 + c.toNat % 16 = c.toNat := by omega
  have valid : ((0 * 16 + c.toNat / 16) * 16 + c.toNat % 16).isValidChar := by
    rw [whole]
    exact .inl (by omega)
  have low : Reads ⟨'"', tripled⟩ _ _ _ .plain :=
    reads_lastHexDigit (Nat.mod_lt _ (by decide)) valid
  rw [whole, Char.ofNat_toNat] at low
  have spelled := codePointEscape_eq c.toNat small
  rw [Char.ofNat_toNat] at spelled
  rw [spelled]
  exact ((escape.append zeros).append high).append low

/-- Between double quotes every character can be told. -/
theorem reads_escapedChar (c : Char) :
    Reads ⟨'"', tripled⟩ .plain (escapedChar c) [c] .plain := by
  unfold escapedChar
  repeat' split
  iterate 5
    · subst_vars
      exact reads_escape tripled rfl
  · rename_i special
    rcases special with rfl | rfl <;> exact reads_escape tripled rfl
  · rename_i control
    apply reads_codePointEscape
    simp only [isControl, Bool.or_eq_true, decide_eq_true_eq, beq_iff_eq] at control
    rcases control with low | rfl
    · omega
    · decide
  · rename_i unspecial uncontrol
    obtain ⟨notMark, notEscape⟩ := not_or.mp unspecial
    exact reads_plain notMark (.inl notEscape)
      (isTextChar_of_not_control (by simpa using uncontrol))

end

theorem escapedChar_head (c : Char) : ∃ first more, escapedChar c = first :: more ∧ first ≠ '"' ∧
    first ≠ '\n' ∧ first ≠ '\r' := by
  unfold escapedChar
  repeat' split
  any_goals exact ⟨'\\', _, rfl, by decide, by decide, by decide⟩
  rename_i notLineFeed _ notReturn unspecial _
  exact ⟨c, [], rfl, (not_or.mp unspecial).1, notLineFeed, notReturn⟩

/-! ### Between three marks -/

/-- The mode behind marks that may still turn out to be the end. -/
def behind (marks : Nat) : Mode := if marks = 0 then .plain else .marks marks

theorem reads_mark (marks : Nat) (few : marks < 4) :
    Reads ⟨mark, true⟩ (behind marks) [mark] [] (behind (marks + 1)) := by
  apply Reads.of_move
  by_cases none : marks = 0
  · subst none
    simp [behind, move, plainMove]
  · have : marks ≠ 4 := by omega
    simp [behind, none, move, this]

/-- Marks that turn out not to be the end belong to the string. -/
theorem body_behind {c : Char} {marks : Nat} (few : marks < 3) (notMark : c ≠ mark)
    (cs : List Char) : quotedBody? ⟨mark, true⟩ (behind marks) (c :: cs) =
      (quotedBody? ⟨mark, true⟩ .plain (c :: cs)).map fun (out, rest) =>
        (List.replicate marks mark ++ out, rest) := by
  by_cases none : marks = 0
  · subst none
    simp [behind]
  have after : move ⟨mark, true⟩ (behind marks) c =
      (plainMove ⟨mark, true⟩ c).after (List.replicate marks mark) := by
    rw [behind, if_neg none, move, if_neg notMark, if_neg (Nat.not_le.mpr few)]
  rw [quotedBody?, quotedBody?, after, move]
  cases plainMove ⟨mark, true⟩ c with
  | advance out mode =>
    simp only [Move.after, Option.map_map]
    congr 1
    funext ⟨more, rest⟩
    simp
  | close out keep => rfl
  | fail => rfl

theorem reads_behind {c : Char} {text value : List Char} {marks : Nat} (few : marks < 3)
    (notMark : c ≠ mark) (reads : Reads ⟨mark, true⟩ .plain (c :: text) value next) :
    Reads ⟨mark, true⟩ (behind marks) (c :: text) (List.replicate marks mark ++ value) next := by
  intro rest
  rw [List.cons_append, body_behind few notMark, ← List.cons_append, reads, Option.map_map]
  congr 1
  funext ⟨more, rest⟩
  simp

theorem body_ended (count : Nat) (boundary : rest.head? ≠ some mark) :
    quotedBody? ⟨mark, true⟩ (.marks (count + 3)) rest =
      some (List.replicate count mark, rest) := by
  cases rest with
  | nil => simp [quotedBody?]
  | cons c rest =>
    have notMark : c ≠ mark := by simpa using boundary
    simp [quotedBody?, move, notMark]

/-- Three marks end a string, and up to two marks before them belong to it. -/
theorem body_close {marks : Nat} (few : marks < 3) (boundary : rest.head? ≠ some mark) :
    quotedBody? ⟨mark, true⟩ (behind marks) (List.replicate 3 mark ++ rest) =
      some (List.replicate marks mark, rest) := by
  have two : Reads ⟨mark, true⟩ (behind marks) [mark, mark] [] (behind (marks + 2)) :=
    (reads_mark marks (by omega)).append (reads_mark (marks + 1) (by omega))
  have read := two (mark :: rest)
  change quotedBody? ⟨mark, true⟩ (behind marks) ([mark, mark] ++ mark :: rest) = _
  rw [read]
  by_cases most : marks = 2
  · subst most
    simp [behind, quotedBody?, move]
  · have last : Reads ⟨mark, true⟩ (behind (marks + 2)) [mark] [] (behind (marks + 3)) :=
      reads_mark (marks + 2) (by omega)
    have last := last rest
    rw [List.singleton_append] at last
    rw [last, behind, if_neg (by omega), body_ended marks boundary]
    simp

/-- With escapes, the reader of a string on several lines undoes the writer. -/
theorem body_escapedLines (s : List Char) {marks : Nat} (few : marks < 3)
    (boundary : rest.head? ≠ some '"') :
    quotedBody? ⟨'"', true⟩ (behind marks)
        (escapedLines marks s ++ (List.replicate 3 '"' ++ rest)) =
      some (List.replicate marks '"' ++ s, rest) := by
  induction s generalizing marks with
  | nil => simpa [escapedLines] using body_close few boundary
  | cons c s ih =>
    rw [escapedLines]
    split
    · rename_i lineFeed
      subst lineFeed
      have plain : Reads ⟨'"', true⟩ .plain ['\n'] ['\n'] .plain := Reads.of_move rfl
      have read := reads_behind few (by decide) plain
      rw [← List.singleton_append, List.append_assoc, read, show Mode.plain = behind 0 from rfl,
        ih (by decide)]
      simp
    · split
      · rename_i unescaped
        obtain ⟨rfl, room⟩ := unescaped
        have read : Reads ⟨'"', true⟩ (behind marks) ['"'] [] (behind (marks + 1)) :=
          reads_mark marks (by omega)
        rw [← List.singleton_append, List.append_assoc, read, ih (by omega)]
        simp [List.replicate_succ']
      · obtain ⟨first, more, spelled, notMark, -⟩ := escapedChar_head c
        have plain := reads_escapedChar true c
        rw [spelled] at plain
        have read := reads_behind few notMark plain
        rw [spelled, List.append_assoc, read, show Mode.plain = behind 0 from rfl, ih (by decide)]
        simp

theorem hasTriple_of_append {front back : List Char} (h : hasTriple mark (front ++ back) = false) :
    hasTriple mark back = false := by
  induction front with
  | nil => exact h
  | cons c front ih =>
    apply ih
    rw [List.cons_append] at h
    generalize front ++ back = rest at h ⊢
    match rest with
    | [] => rfl
    | [_] => rfl
    | _ :: _ :: _ => exact (Bool.or_eq_false_iff.mp h).2

theorem marks_lt_of_hasTriple {marks : Nat}
    (h : hasTriple mark (List.replicate marks mark ++ s) = false) : marks < 3 := by
  apply Nat.lt_of_not_le
  intro many
  obtain ⟨more, rfl⟩ := Nat.exists_eq_add_of_le many
  simp [Nat.add_comm 3, List.replicate_succ, hasTriple] at h

/-- Without escapes a string stands for itself, as long as no three of its marks are in a row. -/
theorem body_literal (marks : Nat) (notEscape : mark ≠ '"')
    (few : hasTriple mark (List.replicate marks mark ++ s) = false)
    (isText : ∀ c ∈ s, c = '\n' ∨ isTextChar c) (boundary : rest.head? ≠ some mark) :
    quotedBody? ⟨mark, true⟩ (behind marks) (s ++ (List.replicate 3 mark ++ rest)) =
      some (List.replicate marks mark ++ s, rest) := by
  have room : marks < 3 := marks_lt_of_hasTriple few
  induction s generalizing marks with
  | nil => simpa using body_close room boundary
  | cons c s ih =>
    have later : ∀ c ∈ s, c = '\n' ∨ isTextChar c :=
      fun other member => isText other (List.mem_cons_of_mem _ member)
    by_cases isMark : c = mark
    · subst isMark
      have more : List.replicate marks c ++ c :: s = List.replicate (marks + 1) c ++ s := by
        simp [List.replicate_succ']
      rw [more] at few ⊢
      have read : Reads ⟨c, true⟩ (behind marks) [c] [] (behind (marks + 1)) :=
        reads_mark marks (by omega)
      rw [← List.singleton_append, List.append_assoc, read,
        ih (marks + 1) few later (marks_lt_of_hasTriple few)]
      rfl
    · have plain : Reads ⟨mark, true⟩ .plain [c] [c] .plain := by
        rcases isText c List.mem_cons_self with rfl | isText
        · exact Reads.of_move (by simp [move, plainMove, isMark])
        · exact reads_plain isMark (.inr notEscape) isText
      have read := reads_behind room isMark plain
      have none : hasTriple mark (List.replicate 0 mark ++ s) = false := by
        have tail : hasTriple mark ([c] ++ s) = false := hasTriple_of_append few
        exact hasTriple_of_append tail
      rw [← List.singleton_append, List.append_assoc, read, show Mode.plain = behind 0 from rfl,
        ih 0 none later (by decide)]
      simp

/-! ### Which form it is -/

section

variable (isQuote : mark = '"' ∨ mark = '\x27')
include isQuote

theorem quotedLine_onOneLine {body : List Char} (reads : Reads ⟨mark, false⟩ .plain body s .plain)
    (rest : List Char) : quotedLine? (onOneLine mark body ++ rest) = some (s, rest) := by
  have read := body_oneLine reads rest
  simpa [onOneLine, quotedLine?, isQuote] using read

theorem quoted_onOneLine {body : List Char} (reads : Reads ⟨mark, false⟩ .plain body s .plain)
    (first : body.head? ≠ some mark) (boundary : rest.head? ≠ some mark) :
    quoted? (onOneLine mark body ++ rest) = some (s, rest) := by
  have read := body_oneLine reads rest
  cases body with
  | nil =>
    -- Two marks are a whole string unless a third one follows.
    cases rest with
    | nil => simpa [onOneLine, quoted?, isQuote] using read
    | cons c rest =>
      have notMark : mark ≠ c := by simpa [eq_comm] using boundary
      simpa [onOneLine, quoted?, isQuote, notMark] using read
  | cons c body =>
    have notMark : mark ≠ c := by simpa [eq_comm] using first
    cases more : body ++ mark :: rest with
    | nil => simp at more
    | cons d more' =>
      rw [List.cons_append, more] at read
      simpa [onOneLine, quoted?, isQuote, notMark, more] using read

theorem quoted_tripled (cs : List Char) : quoted? (List.replicate 3 mark ++ cs) =
    quotedBody? ⟨mark, true⟩ .plain (dropFirstLineEnd cs) := by
  simp [List.replicate, quoted?, isQuote]

theorem quoted_onLines {body : List Char}
    (first : '\n' ∉ s → ∀ c ∈ (body ++ [mark]).head?, c ≠ '\n' ∧ c ≠ '\r')
    (read : quotedBody? ⟨mark, true⟩ .plain (body ++ (List.replicate 3 mark ++ rest)) =
      some (s, rest)) :
    quoted? (onLines mark s body ++ rest) = some (s, rest) := by
  rw [onLines, List.append_assoc, List.append_assoc, List.append_assoc, quoted_tripled isQuote]
  by_cases several : '\n' ∈ s
  · rw [if_pos several]
    exact read
  · have unchanged : dropFirstLineEnd (body ++ (List.replicate 3 mark ++ rest)) =
        body ++ (List.replicate 3 mark ++ rest) := by
      cases body with
      | nil =>
        obtain ⟨notLineFeed, notReturn⟩ := first several mark (by simp)
        simp [dropFirstLineEnd, lineEnd?, List.replicate, notLineFeed, notReturn]
      | cons c body =>
        obtain ⟨notLineFeed, notReturn⟩ := first several c (by simp)
        simp [dropFirstLineEnd, lineEnd?, notLineFeed, notReturn]
    rw [if_neg several, List.nil_append, unchanged]
    exact read

end

theorem quoted_none {c : Char} (notQuote : ¬ (c = '"' ∨ c = '\x27')) :
    quoted? (c :: rest) = none := by
  unfold quoted?
  split <;> rename_i same <;> cases same
  · exact if_neg notQuote
  · exact if_neg notQuote

theorem isText_of_needsEscapes (plain : needsEscapes s = false) :
    ∀ c ∈ s, c = '\n' ∨ isTextChar c := by
  intro c member
  have each := List.any_eq_false.mp plain c member
  simp only [Bool.and_eq_true, bne_iff_ne, not_and, Decidable.not_not] at each
  by_cases control : isControl c
  · by_cases tab : c = '\t'
    · subst tab
      exact .inr rfl
    · exact .inl (each ⟨control, tab⟩)
  · exact .inr (isTextChar_of_not_control (by simpa using control))

theorem flatMap_escapedChar_head (s : List Char) : (s.flatMap escapedChar).head? ≠ some '"' := by
  cases s with
  | nil => simp
  | cons c s =>
    obtain ⟨first, more, spelled, notMark, -⟩ := escapedChar_head c
    simpa [spelled] using notMark

theorem escapedLines_head {marks : Nat} (oneLine : '\n' ∉ s) :
    ∀ c ∈ (escapedLines marks s ++ ['"']).head?, c ≠ '\n' ∧ c ≠ '\r' := by
  cases s with
  | nil => simp [escapedLines]
  | cons d s =>
    obtain ⟨first, more, spelled, -, notLineFeed, notReturn⟩ := escapedChar_head d
    have different : d ≠ '\n' := by
      rintro rfl
      exact oneLine List.mem_cons_self
    rw [escapedLines, if_neg different]
    split
    · simp
    · simpa [spelled] using ⟨notLineFeed, notReturn⟩

/-- A string without control characters stands for itself between single quotes on one line. -/
theorem reads_unescaped (unescaped : needsEscapes s = false) (oneLine : '\n' ∉ s)
    (noMark : '\x27' ∉ s) : Reads ⟨'\x27', false⟩ .plain s s .plain := by
  have each : ∀ c ∈ s, Reads ⟨'\x27', false⟩ .plain [c] [c] .plain := by
    intro c member
    have notMark : c ≠ '\x27' := fun same => noMark (same ▸ member)
    rcases isText_of_needsEscapes unescaped c member with lineFeed | isText
    · exact absurd (lineFeed ▸ member) oneLine
    · exact reads_plain notMark (.inr (by decide)) isText
  simpa using Reads.flatMap (f := fun c => [c]) each

theorem text_head (isText : ∀ c ∈ s, c = '\n' ∨ isTextChar c) (oneLine : '\n' ∉ s) :
    ∀ c ∈ (s ++ ['\x27']).head?, c ≠ '\n' ∧ c ≠ '\r' := by
  cases s with
  | nil => simp
  | cons d s =>
    have notLineFeed : d ≠ '\n' := by
      rintro rfl
      exact oneLine List.mem_cons_self
    have notReturn : d ≠ '\r' := by
      rintro rfl
      rcases isText _ List.mem_cons_self with same | isText
      · cases same
      · cases isText
    simpa using ⟨notLineFeed, notReturn⟩

/-- The reader finds every string in the form that the writer chose for it. -/
theorem quoted_quotedText (s : List Char) (notDouble : rest.head? ≠ some '"')
    (notSingle : rest.head? ≠ some '\x27') : quoted? (quotedText s ++ rest) = some (s, rest) := by
  have escaped : quoted? (onOneLine '"' (s.flatMap escapedChar) ++ rest) = some (s, rest) :=
    quoted_onOneLine (.inl rfl) (.flatMap fun c _ => reads_escapedChar false c)
      (flatMap_escapedChar_head s) notDouble
  have escapedOnLines : quoted? (onLines '"' s (escapedLines 0 s) ++ rest) = some (s, rest) :=
    quoted_onLines (.inl rfl) escapedLines_head
      (body_escapedLines s (show 0 < 3 by decide) notDouble)
  unfold quotedText
  dsimp only
  split
  · exact escaped
  split
  · rename_i fits
    simp only [Bool.and_eq_true, Bool.not_eq_true', List.contains_eq_mem, decide_eq_false_iff_not]
      at fits
    obtain ⟨⟨unescaped, oneLine⟩, noMark⟩ := fits
    have first : s.head? ≠ some '\x27' := fun same => noMark (List.mem_of_head? same)
    exact quoted_onOneLine (.inr rfl) (reads_unescaped unescaped oneLine noMark) first notSingle
  split
  · exact escapedOnLines
  split
  · rename_i fits
    simp only [Bool.and_eq_true, Bool.not_eq_true'] at fits
    obtain ⟨unescaped, few⟩ := fits
    have isText := isText_of_needsEscapes unescaped
    exact quoted_onLines (.inr rfl) (text_head isText)
      (body_literal 0 (by decide) few isText notSingle)
  split
  · exact escapedOnLines
  · exact escaped

end QueryFilter.Toml
