import QueryFilter.Config.Toml
import QueryFilter.Proofs.Toml.Scalar

/-!
# The statements of a written configuration

The reader finds in a written configuration the statements that the writer meant: `read_lines`. Each
key, array and line is read back in front of any text that may follow it, and `Adds` puts the lines
together.
-/

namespace QueryFilter.Config

open Toml

variable {rest more text : List Char} {name key : String} {statement : Option Statement}

/-! ### Keys -/

theorem quotedLine_none {c : Char} (notQuote : ¬ (c = '"' ∨ c = '\x27')) :
    quotedLine? (c :: rest) = none :=
  if_neg notQuote

/-- What stands behind a key: no character that could belong to it. -/
def EndsKey (rest : List Char) : Prop := ∀ c ∈ rest.head?, isBareKeyChar c = false

theorem keyPart_bare {c : Char} {tail : List Char} (bare : ∀ d ∈ c :: tail, isBareKeyChar d)
    (ends : EndsKey rest) :
    keyPart? (c :: tail ++ rest) = some (String.ofList (c :: tail), rest) := by
  have notQuote : ¬ (c = '"' ∨ c = '\x27') := by
    rintro (rfl | rfl) <;> cases bare _ List.mem_cons_self
  have word : (c :: tail ++ rest).takeWhile isBareKeyChar = c :: tail := by
    rw [List.takeWhile_append_of_pos bare]
    cases rest with
    | nil => simp
    | cons d rest => simp [ends d rfl]
  have left : (c :: tail ++ rest).dropWhile isBareKeyChar = rest := by
    rw [List.dropWhile_append_of_pos bare]
    cases rest with
    | nil => simp
    | cons d rest => simp [ends d rfl]
  unfold keyPart?
  rw [List.cons_append, quotedLine_none notQuote, ← List.cons_append, word, left]

theorem keyPart_quoted {body s : List Char} (read : quotedLine? (body ++ rest) = some (s, rest)) :
    keyPart? (body ++ rest) = some (String.ofList s, rest) := by
  rw [keyPart?, read]

theorem keyPart_keyText (name : String) (ends : EndsKey rest) :
    keyPart? (keyText name ++ rest) = some (name, rest) := by
  unfold keyText
  dsimp only
  split
  · rename_i bare
    obtain ⟨c, tail, spelled⟩ := List.exists_cons_of_ne_nil bare.1
    rw [spelled, keyPart_bare (by simpa [spelled] using bare.2) ends, ← spelled,
      String.ofList_toList]
  split
  · rename_i plain
    simp only [Bool.and_eq_true, Bool.not_eq_true', List.contains_eq_mem, decide_eq_false_iff_not,
      List.any_eq_false, bne_iff_ne, not_and, Decidable.not_not] at plain
    obtain ⟨⟨controls, -⟩, noMark⟩ := plain
    have unescaped : needsEscapes name.toList = false := by
      simp only [needsEscapes, List.any_eq_false, Bool.and_eq_true, bne_iff_ne, not_and,
        Decidable.not_not]
      intro c member control
      exact absurd (controls c member control.1) control.2
    have oneLine : '\n' ∉ name.toList := fun member => by cases controls _ member rfl
    have read := quotedLine_onOneLine (.inr rfl) (reads_unescaped unescaped oneLine noMark) rest
    rw [keyPart_quoted read, String.ofList_toList]
  · have reads : Reads ⟨'"', false⟩ .plain (name.toList.flatMap escapedChar) name.toList .plain :=
      .flatMap fun c _ => reads_escapedChar false c
    rw [keyPart_quoted (quotedLine_onOneLine (.inl rfl) reads rest), String.ofList_toList]

theorem keyText_head (name : String) : ∃ c tail, keyText name = c :: tail ∧
    (isBareKeyChar c ∨ c = '"' ∨ c = '\x27') := by
  unfold keyText
  dsimp only
  split
  · rename_i bare
    obtain ⟨c, tail, spelled⟩ := List.exists_cons_of_ne_nil bare.1
    exact ⟨c, tail, spelled, .inl (List.all_eq_true.mp bare.2 c (by simp [spelled]))⟩
  split <;> simp [onOneLine]

/-- A written key begins with none of the characters that mean something else there. -/
theorem keyText_head_ne {c : Char} (other : isBareKeyChar c = false)
    (notQuote : ¬ (c = '"' ∨ c = '\x27')) (name : String) (rest : List Char) :
    (keyText name ++ rest).head? ≠ some c := by
  obtain ⟨first, tail, spelled, start⟩ := keyText_head name
  rw [spelled]
  rintro ⟨⟩
  rcases start with bare | quote
  · rw [other] at bare
    cases bare
  · exact notQuote quote

theorem skipSpaces_of_visible {cs : List Char} (visible : ∀ c ∈ cs.head?, isSpace c = false) :
    skipSpaces cs = cs := by
  cases cs with
  | nil => rfl
  | cons c cs => simp [skipSpaces, visible c rfl]

theorem keyText_visible (name : String) (rest : List Char) :
    ∀ c ∈ (keyText name ++ rest).head?, isSpace c = false := by
  intro c isHead
  simp only [isSpace, Bool.or_eq_false_iff, beq_eq_false_iff_ne]
  constructor <;> rintro rfl
  · exact keyText_head_ne rfl (by decide) name rest isHead
  · exact keyText_head_ne rfl (by decide) name rest isHead

theorem skipSpaces_keyText (name : String) (rest : List Char) :
    skipSpaces (keyText name ++ rest) = keyText name ++ rest :=
  skipSpaces_of_visible (keyText_visible name rest)

theorem keyParts_last (name : String) (ends : EndsKey rest)
    (notPoint : (skipSpaces rest).head? ≠ some '.') :
    keyParts? (keyText name ++ rest) = some ([name], skipSpaces rest) := by
  rw [keyParts?, skipSpaces_keyText, keyPart_keyText name ends]
  dsimp only
  split
  · rename_i point
    rw [point] at notPoint
    exact absurd rfl notPoint
  · rfl

theorem keyParts_more (name : String) :
    keyParts? (keyText name ++ '.' :: rest) =
      (keyParts? rest).map fun (parts, rest) => (name :: parts, rest) := by
  have shorter : rest.length < (keyText name ++ '.' :: rest).length := by
    rw [List.length_append, List.length_cons]
    omega
  have point : skipSpaces ('.' :: rest) = '.' :: rest := rfl
  have ends : EndsKey ('.' :: rest) := by
    rintro c ⟨⟩
    rfl
  rw [keyParts?, skipSpaces_keyText, keyPart_keyText name ends]
  dsimp only
  rw [point]
  exact if_pos shorter

theorem key_single (name : String) (ends : EndsKey rest)
    (notPoint : (skipSpaces rest).head? ≠ some '.') :
    key? (keyText name ++ rest) = some (([], name), skipSpaces rest) := by
  simp [key?, keyParts_last name ends notPoint, maxDepth]

theorem key_pair (table name : String) (ends : EndsKey rest)
    (notPoint : (skipSpaces rest).head? ≠ some '.') :
    key? (keyText table ++ '.' :: (keyText name ++ rest)) =
      some (([table], name), skipSpaces rest) := by
  simp [key?, keyParts_more, keyParts_last name ends notPoint, maxDepth]

/-! ### Values -/

/-- The text is read as the value if its line ends there. -/
def Tells (text : List Char) (value : Value) : Prop :=
  (∀ c ∈ text.head?, isSpace c = false) ∧
    ∀ more, value? maxDepth (text ++ '\n' :: more) = some (value, '\n' :: more)

theorem toDigits_tells {n : Nat} (fits : n ≤ Int64.maxValue.toInt) :
    Tells (Nat.toDigits 10 n) (.integer n) := by
  refine ⟨?_, fun more => value_toDigits maxDepth fits⟩
  intro c isHead
  have isDigit := (decimal_toDigits n).isDigit c (List.mem_of_mem_head? isHead)
  simp only [isSpace, Bool.or_eq_false_iff, beq_eq_false_iff_ne]
  exact ⟨ne_of_isDigit isDigit rfl, ne_of_isDigit isDigit rfl⟩

/-! ### Arrays -/

section

variable {α : Type} {close : Char} {trailing : Bool} {skip : List Char → Option (List Char)}
  {item : List Char → Option (α × List Char)} {cs left next : List Char} {first : α}

theorem items_last (read : item cs = some (first, left))
    (behind : skip left = some (close :: rest)) (notComma : close ≠ ',') :
    items? close trailing skip item cs = some ([first], rest) := by
  rw [items?, read]
  simp [behind]

variable {separated : List Char} (read : item cs = some (first, left))
  (behind : skip left = some (',' :: separated)) (skipped : skip separated = some next)
include read behind skipped

theorem items_trailing (closed : next.head? = some close) :
    items? close true skip item cs = some ([first], next.drop 1) := by
  rw [items?, read]
  simp [behind, skipped, closed]

theorem items_more (notClosed : next.head? ≠ some close) (shorter : next.length < cs.length) :
    items? close trailing skip item cs =
      (items? close trailing skip item next).map fun (more, rest) => (first :: more, rest) := by
  rw [items?, read]
  simp [behind, skipped, notClosed, shorter]

end

theorem skipLines_quotedText (s : List Char) :
    skipLines? false (quotedText s ++ rest) = some (quotedText s ++ rest) := by
  obtain ⟨c, tail, spelled, isQuote⟩ := quotedText_head s
  rw [spelled]
  rcases isQuote with rfl | rfl <;> rfl

theorem quotedText_head_ne (s : List Char) : (quotedText s ++ rest).head? ≠ some ']' := by
  obtain ⟨c, tail, spelled, isQuote⟩ := quotedText_head s
  rw [spelled]
  rintro ⟨⟩
  simp at isQuote

/-- An item on a line of its own. -/
def itemLine (item : String) : List Char :=
  "    ".toList ++ quotedText item.toList ++ [',', '\n']

theorem skipLines_itemLine (item : String) : skipLines? false ('\n' :: (itemLine item ++ rest)) =
    some (quotedText item.toList ++ ',' :: '\n' :: rest) := by
  have indented : skipLines? false ('\n' :: (itemLine item ++ rest)) =
      skipLines? false (quotedText item.toList ++ ',' :: '\n' :: rest) := by
    rw [itemLine, List.append_assoc, List.append_assoc]
    simp [skipLines?, isSpace]
  rw [indented, skipLines_quotedText]

theorem value_item (depth : Nat) (item : String) (notDouble : rest.head? ≠ some '"')
    (notSingle : rest.head? ≠ some '\x27') :
    value? depth (quotedText item.toList ++ rest) = some (.string item, rest) := by
  rw [value_quotedText depth item.toList notDouble notSingle, String.ofList_toList]

theorem items_itemLines (depth : Nat) (item : String) (items : List String) (rest : List Char) :
    items? ']' true (skipLines? false) (value? depth)
        (quotedText item.toList ++ ',' :: '\n' :: (items.flatMap itemLine ++ ']' :: rest)) =
      some ((item :: items).map Value.string, rest) := by
  have comma {more : List Char} : skipLines? false (',' :: more) = some (',' :: more) := rfl
  induction items generalizing item with
  | nil =>
    have closed : skipLines? false ('\n' :: ']' :: rest) = some (']' :: rest) := rfl
    exact items_trailing (value_item depth item (by simp) (by simp)) comma closed rfl
  | cons next items ih =>
    rw [List.flatMap_cons, List.append_assoc,
      items_more (value_item depth item (by simp) (by simp)) comma (skipLines_itemLine next)
        (quotedText_head_ne next.toList) (by simp [itemLine]; omega), ih]
    rfl

theorem array_items {read : List Char → Option (Value × List Char)} {cs next : List Char}
    {items : List Value} (skipped : skipLines? false cs = some next)
    (notClosed : next.head? ≠ some ']')
    (found : items? ']' true (skipLines? false) read next = some (items, rest)) :
    array? read cs = some (.array items, rest) := by
  unfold array?
  rw [skipped]
  simp only [Option.bind_eq_bind, Option.bind_some]
  split
  · exact absurd rfl notClosed
  · rw [found]
    rfl

theorem arrayText_lines (item next : String) (items : List String) :
    arrayText (item :: next :: items) =
      '[' :: '\n' :: ((item :: next :: items).flatMap itemLine ++ [']']) := by
  rfl

theorem value_arrayText (depth : Nat) (items : List String) :
    value? (depth + 1) (arrayText items ++ rest) =
      some (.array (items.map Value.string), rest) := by
  match items with
  | [] => rfl
  | [item] =>
    have single : items? ']' true (skipLines? false) (value? depth)
        (quotedText item.toList ++ ']' :: rest) = some ([.string item], rest) :=
      items_last (value_item depth item (by simp) (by simp)) rfl (by decide)
    have read := array_items (skipLines_quotedText item.toList) (quotedText_head_ne item.toList)
      single
    simpa [arrayText, value?] using read
  | item :: next :: items =>
    have read := array_items (skipLines_itemLine item) (quotedText_head_ne item.toList)
      (items_itemLines depth item (next :: items) rest)
    rw [← List.append_assoc, ← List.flatMap_cons] at read
    rw [arrayText_lines]
    simpa only [List.cons_append, List.append_assoc, List.nil_append, value?] using read

theorem arrayText_tells (items : List String) :
    Tells (arrayText items) (.array (items.map Value.string)) := by
  refine ⟨?_, fun more => value_arrayText (maxDepth - 1) items⟩
  intro c isHead
  match items with
  | [] => cases isHead; rfl
  | [_] => cases isHead; rfl
  | _ :: _ :: _ => cases isHead; rfl

/-! ### Lines -/

theorem assignment_line {value : Value} (key : String) (tells : Tells text value)
    (more : List Char) :
    assignment? (value? maxDepth) (keyText key ++ (" = ".toList ++ text ++ '\n' :: more)) =
      some (⟨[], key, value⟩, '\n' :: more) := by
  have behind : skipSpaces (" = ".toList ++ text ++ '\n' :: more) =
      '=' :: ' ' :: (text ++ '\n' :: more) := rfl
  have ends : EndsKey (" = ".toList ++ text ++ '\n' :: more) := by
    rintro c ⟨⟩
    rfl
  have visible : ∀ c ∈ (text ++ '\n' :: more).head?, isSpace c = false := by
    cases text with
    | nil =>
      rintro c ⟨⟩
      rfl
    | cons c text => exact tells.1
  have skipped : skipSpaces (' ' :: (text ++ '\n' :: more)) = text ++ '\n' :: more :=
    skipSpaces_of_visible visible
  unfold assignment?
  rw [key_single key ends (by rw [behind]; simp), behind]
  simp only [Option.bind_eq_bind, Option.bind_some, expect?, if_true, skipped, tells.2]
  rfl

/-- A line that begins with a key is an assignment. -/
theorem statement_keyText {a : Assignment} {left : List Char}
    (read : assignment? (value? maxDepth) (keyText key ++ rest) = some (a, left)) :
    statement? (keyText key ++ rest) = some (some (.assignment a), left) := by
  have head {c : Char} (other : isBareKeyChar c = false) (notQuote : ¬ (c = '"' ∨ c = '\x27')) :
      (keyText key ++ rest).head? ≠ some c := keyText_head_ne other notQuote key rest
  obtain ⟨c, tail, spelled, -⟩ := keyText_head key
  unfold statement?
  rw [skipSpaces_keyText]
  rw [spelled, List.cons_append] at head read ⊢
  have notHeader : c ≠ '[' := by
    rintro rfl
    exact head rfl (by decide) rfl
  have noStatement : ¬ (c = '#' ∨ c = '\n' ∨ c = '\r') := by
    rintro (rfl | rfl | rfl) <;> exact head rfl (by decide) rfl
  simp [notHeader, noStatement, read]

theorem statement_bracket {cs : List Char} {path : List String}
    (read : key? cs = some ((path, key), ']' :: rest)) (single : cs.head? ≠ some '[') :
    statement? ('[' :: cs) = some (some (.header path key false), rest) := by
  have skipped : skipSpaces ('[' :: cs) = '[' :: cs := rfl
  unfold statement?
  rw [skipped]
  split
  · rename_i same
    cases same
  · rename_i same
    cases same
    exact absurd rfl single
  · rename_i same
    cases same
    simp [read, expect?]
  · rename_i notHeader same
    cases same
    exact (notHeader rfl).elim

/-! ### Statements -/

/-- The text adds the statements to those of any text behind it. -/
def Adds (text : List Char) (statements : List Statement) : Prop :=
  ∀ more, statements? (text ++ more) = (statements? more).map (statements ++ ·)

theorem statements_nil : statements? [] = some [] := by
  rw [statements?]
  rfl

theorem Adds.nil : Adds [] [] := by
  intro more
  simp

theorem Adds.append {moreText : List Char} {statements moreStatements : List Statement}
    (first : Adds text statements) (second : Adds moreText moreStatements) :
    Adds (text ++ moreText) (statements ++ moreStatements) := by
  intro more
  rw [List.append_assoc, first, second, Option.map_map]
  congr 1
  funext others
  simp

theorem Adds.flatMap {α : Type} {spell : α → List Char} {tell : α → List Statement} {items : List α}
    (each : ∀ item ∈ items, Adds (spell item) (tell item)) :
    Adds (items.flatMap spell) (items.flatMap tell) := by
  induction items with
  | nil => exact .nil
  | cons item items ih =>
    exact (each item List.mem_cons_self).append
      (ih fun other member => each other (List.mem_cons_of_mem _ member))

theorem Adds.line (statement : Option Statement)
    (read : ∀ more, statement? (text ++ '\n' :: more) = some (statement, '\n' :: more)) :
    Adds (text ++ ['\n']) statement.toList := by
  intro more
  have ended : restOfLine? ('\n' :: more) = some more := rfl
  rw [List.append_assoc, List.singleton_append, statements?, read]
  dsimp only
  rw [ended]
  cases more with
  | nil => simp [statements_nil]
  | cons c more =>
    dsimp only
    rw [if_pos (by simp; omega)]

theorem adds_blank : Adds ['\n'] [] := by
  have blank : Adds ([] ++ ['\n']) none.toList := Adds.line none fun _ => rfl
  exact blank

theorem adds_line {value : Value} (bare : keyText key = key.toList) (tells : Tells text value) :
    Adds (line key text) [.assignment ⟨[], key, value⟩] := by
  apply Adds.line (some (.assignment ⟨[], key, value⟩))
  intro more
  have read := statement_keyText (assignment_line key tells more)
  rw [← bare, List.append_assoc, List.append_assoc, ← List.append_assoc " = ".toList]
  exact read

theorem maxLimit_eq : (maxLimit : Int) = Int64.maxValue.toInt := by decide

def number (key : String) (n : Nat) : Assignment := ⟨[], key, .integer n⟩

theorem adds_numberLine {n : Nat} (bare : keyText key = key.toList) (fits : n ≤ maxLimit) :
    Adds (numberLine key n) [.assignment (number key n)] := by
  have inRange : (n : Int) ≤ Int64.maxValue.toInt := by
    rw [← maxLimit_eq]
    exact Int.ofNat_le.mpr fits
  exact adds_line bare (toDigits_tells inRange)

theorem adds_optionalLine {n? : Option Nat} (bare : keyText key = key.toList)
    (fits : ∀ n ∈ n?, n ≤ maxLimit) :
    Adds ((n?.map (numberLine key)).getD []) ((n?.map (number key)).toList.map .assignment) := by
  cases n? with
  | none => exact .nil
  | some n => exact adds_numberLine bare (fits n rfl)

theorem keyText_scopes : keyText "scopes" = "scopes".toList := by decide

theorem endsKey_bracket : EndsKey (']' :: rest) := by
  rintro c ⟨⟩
  rfl

theorem skipSpaces_bracket : skipSpaces (']' :: rest) = ']' :: rest := rfl

theorem adds_header {body : List Char} {path : List String}
    (read : ∀ more, key? (body ++ ']' :: more) = some ((path, key), ']' :: more))
    (single : ∀ more, (body ++ ']' :: more).head? ≠ some '[') :
    Adds ("\n[".toList ++ body ++ "]\n".toList) [.header path key false] := by
  have header : Adds ('[' :: body ++ [']'] ++ ['\n']) [.header path key false] := by
    apply Adds.line (some (.header path key false))
    intro more
    simpa using statement_bracket (read ('\n' :: more)) (single ('\n' :: more))
  simpa using adds_blank.append header

theorem adds_scopeHeader (name : String) :
    Adds ("\n[scopes.".toList ++ keyText name ++ "]\n".toList)
      [.header ["scopes"] name false] := by
  have header : Adds ("\n[".toList ++ (keyText "scopes" ++ '.' :: keyText name) ++ "]\n".toList)
      [.header ["scopes"] name false] := by
    apply adds_header
    · intro more
      rw [List.append_assoc, List.cons_append]
      exact key_pair "scopes" name endsKey_bracket (by simp [skipSpaces_bracket])
    · intro more
      rw [List.append_assoc]
      exact keyText_head_ne rfl (by decide) "scopes" _
  rw [keyText_scopes] at header
  simpa using header

theorem adds_emptyScopes : Adds "\n[scopes]\n".toList [.header [] "scopes" false] := by
  have header : Adds ("\n[".toList ++ keyText "scopes" ++ "]\n".toList)
      [.header [] "scopes" false] := by
    apply adds_header
    · intro more
      exact key_single "scopes" endsKey_bracket (by simp [skipSpaces_bracket])
    · intro more
      exact keyText_head_ne rfl (by decide) "scopes" _
  rw [keyText_scopes] at header
  exact header

/-! ### Configurations -/

/-- The assignments that a scope is written as. -/
def settings (scope : Scope) : List Assignment :=
  ⟨[], "allowed_keys", .array (scope.keys.map Value.string)⟩ ::
    ((scope.depth.map (number "max_depth")).toList ++
      (scope.terms.map (number "max_terms")).toList)

/-- The assignments before the first header. -/
def heading (config : Config) : List Assignment :=
  [number "version" config.version.toNat, number "max_depth" config.limits.depth,
    number "max_terms" config.limits.terms]

/-- The section that a scope is written as. -/
def scopeSection (entry : String × Scope) : Section :=
  ⟨["scopes"], entry.1, false, settings entry.2⟩

/-- The sections that scopes are written as. -/
def scopeSections (scopes : List (String × Scope)) : List Section :=
  match scopes with
  | [] => [⟨[], "scopes", false, []⟩]
  | scopes => scopes.map scopeSection

def sectionStatements (s : Section) : List Statement :=
  .header s.path s.key s.inArray :: s.assignments.map .assignment

theorem keyText_maxDepth : keyText "max_depth" = "max_depth".toList := by decide

theorem keyText_maxTerms : keyText "max_terms" = "max_terms".toList := by decide

/-- The limits of a scope can be written. -/
def ScopeFits (scope : Scope) : Prop :=
  ∀ n ∈ scope.depth.toList ++ scope.terms.toList, n ≤ maxLimit

theorem adds_scopeText (name : String) {scope : Scope} (fits : ScopeFits scope) :
    Adds (scopeText name scope) (sectionStatements (scopeSection (name, scope))) := by
  let keys : Assignment := ⟨[], "allowed_keys", .array (scope.keys.map Value.string)⟩
  have keysLine : Adds (line "allowed_keys" (arrayText scope.keys)) [.assignment keys] :=
    adds_line (by decide) (arrayText_tells scope.keys)
  have depth : ∀ n ∈ scope.depth, n ≤ maxLimit := fun n isDepth =>
    fits n (List.mem_append_left _ (Option.mem_toList.mpr isDepth))
  have terms : ∀ n ∈ scope.terms, n ≤ maxLimit := fun n isTerms =>
    fits n (List.mem_append_right _ (Option.mem_toList.mpr isTerms))
  have whole := (((adds_scopeHeader name).append keysLine).append
    (adds_optionalLine keyText_maxDepth depth)).append (adds_optionalLine keyText_maxTerms terms)
  have statements : sectionStatements (scopeSection (name, scope)) =
      [.header ["scopes"] name false] ++ [.assignment keys] ++
        (scope.depth.map (number "max_depth")).toList.map .assignment ++
        (scope.terms.map (number "max_terms")).toList.map .assignment := by
    rw [sectionStatements, scopeSection, settings, List.map_cons, List.map_append]
    rfl
  rw [statements]
  exact whole

/-- The lines that scopes are written as. -/
def scopeLines (scopes : List (String × Scope)) : List Char :=
  match scopes with
  | [] => "\n[scopes]\n".toList
  | scopes => scopes.flatMap fun (name, scope) => scopeText name scope

/-- The lines that a configuration is written as. -/
def lines (config : Config) : List Char :=
  numberLine "version" config.version.toNat ++ numberLine "max_depth" config.limits.depth ++
    numberLine "max_terms" config.limits.terms ++ scopeLines config.scopes.entries

/-- No limit of a configuration is too great to be written. -/
def Writable (config : Config) : Prop := ∀ n ∈ config.allLimits, n ≤ maxLimit

theorem toToml_of_writable {config : Config} (writable : config.Writable) :
    config.toToml? = some (String.ofList config.lines) := by
  have fits : config.allLimits.all (· ≤ maxLimit) := by
    simpa [Writable] using writable
  rw [toToml?, if_pos fits]
  rfl

theorem toToml_eq_none_iff {config : Config} : config.toToml? = none ↔ ¬ config.Writable := by
  constructor
  · intro unwritten writable
    rw [toToml_of_writable writable] at unwritten
    cases unwritten
  · intro tooGreat
    refine if_neg fun fits => tooGreat ?_
    simpa [Writable] using fits

theorem adds_scopeLines {scopes : List (String × Scope)}
    (fits : ∀ entry ∈ scopes, ScopeFits entry.2) :
    Adds (scopeLines scopes) ((scopeSections scopes).flatMap sectionStatements) := by
  cases scopes with
  | nil => exact adds_emptyScopes
  | cons first scopes =>
    have mapped : scopeSections (first :: scopes) = (first :: scopes).map scopeSection := rfl
    rw [mapped, List.flatMap_map]
    exact Adds.flatMap fun entry member => adds_scopeText entry.1 (fits entry member)

theorem adds_lines {config : Config} (writable : config.Writable) :
    Adds config.lines
      (config.heading.map .assignment ++
        (scopeSections config.scopes.entries).flatMap sectionStatements) := by
  have fits : config.version.toNat ≤ maxLimit :=
    Nat.le_trans (Nat.le_of_lt config.version.toNat_lt) (by decide)
  have spelled : keyText "version" = "version".toList := by decide
  have numbers := ((adds_numberLine spelled fits).append
    (adds_numberLine keyText_maxDepth (writable config.limits.depth (by simp [allLimits])))).append
    (adds_numberLine keyText_maxTerms (writable config.limits.terms (by simp [allLimits])))
  refine numbers.append (adds_scopeLines fun entry member n isLimit => writable n ?_)
  simp only [allLimits, List.mem_append, List.mem_flatMap]
  exact .inr ⟨entry, member, List.mem_append.mp isLimit⟩

/-- The reader finds the statements that a configuration is written as. -/
theorem read_lines {config : Config} (writable : config.Writable) :
    read? (String.ofList config.lines) =
      document? (config.heading.map .assignment ++
        (scopeSections config.scopes.entries).flatMap sectionStatements) := by
  have found := adds_lines writable []
  rw [List.append_nil, statements_nil, Option.map_some, List.append_nil] at found
  obtain ⟨tail, start⟩ : ∃ tail, config.lines = 'v' :: tail := ⟨_, rfl⟩
  rw [read?, String.toList_ofList]
  split
  · rename_i mark
    rw [start] at mark
    cases mark
  · rw [found, Option.bind_some]

end QueryFilter.Config
