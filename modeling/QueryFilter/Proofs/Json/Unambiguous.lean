import Mathlib.Tactic.IntervalCases
import QueryFilter.Proofs.Json.Numbers

/-!
# Texts of JSON values

A value shows where its text ends, whatever follows it: a string ends with the first quote that is
not escaped, an array and an object with their bracket, and a number in front of a character that no
number has. So two values have the same text only if they are the same: `text_injective`.
-/

namespace QueryFilter.Json

variable {rest more : List Char}

/-! ### Strings -/

/-- The character that a letter behind a backslash stands for. -/
def escapeMeaning (c : Char) : Char :=
  match c with
  | 'b' => '\x08'
  | 'f' => '\x0c'
  | 'n' => '\n'
  | 'r' => '\r'
  | 't' => '\t'
  | _ => c

def hexValue (digits : List Char) : Nat :=
  digits.foldl (fun value c =>
    value * 16 + if c.isDigit then c.toNat - '0'.toNat else c.toNat - 'a'.toNat + 10) 0

/-- The first character of a string and the text behind it. -/
def firstChar? : List Char → Option (Char × List Char)
  | '\\' :: 'u' :: a :: b :: c :: d :: rest => some (Char.ofNat (hexValue [a, b, c, d]), rest)
  | '\\' :: c :: rest => some (escapeMeaning c, rest)
  | c :: rest => some (c, rest)
  | [] => none

theorem firstChar_unicodeEscape {c : Char} (control : c.toNat < 0x20) :
    firstChar? (unicodeEscape c ++ rest) = some (c, rest) := by
  rw [← Char.ofNat_toNat c]
  generalize c.toNat = code at control ⊢
  interval_cases code <;> rfl

theorem firstChar_escapedChar (c : Char) : firstChar? (escapedChar c ++ rest) = some (c, rest) := by
  unfold escapedChar
  split
  · rename_i special
    rcases (by simpa using special : c = '"' ∨ c = '\\') with rfl | rfl <;> rfl
  split
  · subst_vars; rfl
  split
  · subst_vars; rfl
  split
  · subst_vars; rfl
  split
  · subst_vars; rfl
  split
  · subst_vars; rfl
  split
  · rename_i control
    exact firstChar_unicodeEscape control
  · rename_i plain _ _ _ _ _ _
    have noEscape : c ≠ '\\' := by
      rintro rfl
      simp at plain
    simp [firstChar?, noEscape]

theorem escapedChar_head (c : Char) : ∃ d ds, escapedChar c = d :: ds ∧ d ≠ '"' := by
  unfold escapedChar
  split_ifs with special
  case neg => exact ⟨c, [], rfl, by rintro rfl; simp at special⟩
  all_goals exact ⟨'\\', _, rfl, by decide⟩

theorem stringBody_separable {cs ds : List Char}
    (same : cs.flatMap escapedChar ++ '"' :: rest = ds.flatMap escapedChar ++ '"' :: more) :
    cs = ds ∧ rest = more := by
  have notEnd (d : Char) (ds : List Char) {rest more : List Char} :
      '"' :: rest ≠ (d :: ds).flatMap escapedChar ++ more := by
    intro same
    obtain ⟨e, es, escape_eq, noQuote⟩ := escapedChar_head d
    rw [List.flatMap_cons, escape_eq] at same
    exact noQuote (List.cons.inj same).1.symm
  induction cs generalizing ds with
  | nil =>
    cases ds with
    | nil => exact ⟨rfl, (List.cons.inj same).2⟩
    | cons d ds => exact absurd same (notEnd d ds)
  | cons c cs ih =>
    cases ds with
    | nil => exact absurd same.symm (notEnd c cs)
    | cons d ds =>
      have first := congrArg firstChar? same
      rw [List.flatMap_cons, List.flatMap_cons, List.append_assoc, List.append_assoc,
        firstChar_escapedChar, firstChar_escapedChar] at first
      obtain ⟨rfl, sameRest⟩ := Prod.mk.inj (Option.some.inj first)
      obtain ⟨rfl, sameEnd⟩ := ih sameRest
      exact ⟨rfl, sameEnd⟩

/-! ### Parts in front of others -/

/-- What follows goes on with no character of a number. -/
def StopsNumber (rest : List Char) : Prop := ∀ c ∈ rest.head?, isNumberChar c = false

theorem stopsNumber_cons {c : Char} (ends : isNumberChar c = false) : StopsNumber (c :: rest) := by
  rintro d ⟨⟩
  exact ends

/-- Two parts that cannot be taken for each other: if two texts that begin with them are the same,
then the parts are, and so is what follows them. -/
def Separable {α : Type} (write : α → List Char) (a b : α) : Prop :=
  ∀ {rest more : List Char}, StopsNumber rest → StopsNumber more →
    write a ++ rest = write b ++ more → a = b ∧ rest = more

theorem number_separable {front back : List Char} (number : ∀ c ∈ front, isNumberChar c)
    (otherNumber : ∀ c ∈ back, isNumberChar c) (ends : StopsNumber rest)
    (otherEnds : StopsNumber more)
    (same : front ++ rest = back ++ more) : front = back ∧ rest = more := by
  have sameFront : front = back := by
    rw [← takeWhile_exact number ends, same, takeWhile_exact otherNumber otherEnds]
  rw [sameFront] at same
  exact ⟨sameFront, List.append_cancel_left same⟩

theorem string_separable (s t : String) : Separable stringText s t := by
  intro rest more _ _ same
  simp only [stringText, List.append_assoc, List.singleton_append] at same
  obtain ⟨sameChars, sameRest⟩ := stringBody_separable (List.cons.inj same).2
  exact ⟨String.toList_inj.mp sameChars, sameRest⟩

/-! ### Lists -/

section

variable {α : Type} {write : α → List Char} {close : Char} {items others : List α}

theorem intercalate_cons_map (write : α → List Char) (item : α) (items : List α) :
    [','].intercalate ((item :: items).map write) =
      write item ++ items.flatMap fun item => ',' :: write item := by
  induction items generalizing item with
  | nil => simp
  | cons next items ih =>
    rw [List.map_cons, List.map_cons, List.intercalate_cons_cons, ← List.map_cons, ih]
    simp

theorem stopsNumber_list (ends : isNumberChar close = false) (items : List α) :
    StopsNumber ((items.flatMap fun item => ',' :: write item) ++ close :: rest) := by
  cases items with
  | nil => exact stopsNumber_cons ends
  | cons item items => exact stopsNumber_cons rfl

theorem tail_separable (ends : isNumberChar close = false) (notComma : close ≠ ',')
    (separable : ∀ item ∈ items, ∀ other ∈ others, Separable write item other)
    (same : (items.flatMap fun item => ',' :: write item) ++ close :: rest =
      (others.flatMap fun item => ',' :: write item) ++ close :: more) :
    items = others ∧ rest = more := by
  induction items generalizing others with
  | nil =>
    cases others with
    | nil => exact ⟨rfl, (List.cons.inj same).2⟩
    | cons other others => exact absurd (List.cons.inj same).1 notComma
  | cons item items ih =>
    cases others with
    | nil => exact absurd (List.cons.inj same).1.symm notComma
    | cons other others =>
      simp only [List.flatMap_cons, List.cons_append, List.append_assoc] at same
      obtain ⟨rfl, sameTail⟩ := separable item List.mem_cons_self other List.mem_cons_self
        (stopsNumber_list ends items) (stopsNumber_list ends others) (List.cons.inj same).2
      obtain ⟨rfl, sameRest⟩ := ih (fun item member other otherMember => separable item
        (List.mem_cons_of_mem _ member) other (List.mem_cons_of_mem _ otherMember)) sameTail
      exact ⟨rfl, sameRest⟩

theorem list_separable (ends : isNumberChar close = false) (notComma : close ≠ ',')
    (starts : ∀ item tail rest, write item ++ tail ≠ close :: rest)
    (separable : ∀ item ∈ items, ∀ other ∈ others, Separable write item other)
    (same : [','].intercalate (items.map write) ++ close :: rest =
      [','].intercalate (others.map write) ++ close :: more) : items = others ∧ rest = more := by
  cases items with
  | nil =>
    cases others with
    | nil => exact ⟨rfl, (List.cons.inj same).2⟩
    | cons other others =>
      rw [intercalate_cons_map, List.append_assoc] at same
      exact absurd same.symm (starts other _ _)
  | cons item items =>
    cases others with
    | nil =>
      rw [intercalate_cons_map, List.append_assoc] at same
      exact absurd same (starts item _ _)
    | cons other others =>
      rw [intercalate_cons_map, intercalate_cons_map, List.append_assoc, List.append_assoc] at same
      obtain ⟨rfl, sameTail⟩ := separable item List.mem_cons_self other List.mem_cons_self
        (stopsNumber_list ends items) (stopsNumber_list ends others) same
      obtain ⟨rfl, sameRest⟩ := tail_separable ends notComma (fun item member other otherMember =>
        separable item (List.mem_cons_of_mem _ member) other (List.mem_cons_of_mem _ otherMember))
        sameTail
      exact ⟨rfl, sameRest⟩

end

/-! ### Values -/

/-- All floats in the value are finite. -/
inductive Finite : Json → Prop where
  | null : Finite .null
  | bool (value : Bool) : Finite (.bool value)
  | integer (value : Int) : Finite (.integer value)
  | float {value : Binary64} (finite : value.isFinite) : Finite (.float value)
  | string (value : String) : Finite (.string value)
  | array {items : List Json} (each : ∀ item ∈ items, Finite item) : Finite (.array items)
  | object {fields : List (String × Json)} (each : ∀ field ∈ fields, Finite field.2) :
    Finite (.object fields)

def fieldText (field : String × Json) : List Char := stringText field.1 ++ ':' :: field.2.chars

theorem chars_array (items : List Json) :
    (array items).chars = '[' :: ([','].intercalate (items.map chars) ++ [']']) := by
  have texts : itemChars items = items.map chars := by
    induction items with
    | nil => rfl
    | cons item items ih => rw [itemChars, ih, List.map_cons]
  rw [chars, texts]
  simp

theorem chars_object (fields : List (String × Json)) :
    (object fields).chars = '\x7b' :: ([','].intercalate (fields.map fieldText) ++ ['\x7d']) := by
  have texts : fieldChars fields = fields.map fieldText := by
    induction fields with
    | nil => rfl
    | cons field fields ih =>
      rw [fieldChars, ih, List.map_cons, fieldText, List.append_assoc, List.singleton_append]
  rw [chars, texts]
  simp

/-- The character with which the text of a value starts, or one for all of its kind: a zero for
numbers and a `t` for truth values. -/
def opening : Json → Char
  | .null => 'n'
  | .bool _ => 't'
  | .integer _ | .float _ => '0'
  | .string _ => '"'
  | .array _ => '['
  | .object _ => '\x7b'

def openingOf (c : Char) : Char :=
  if c.isDigit ∨ c = '-' then '0' else if c = 'f' then 't' else c

theorem chars_opening (j : Json) : ∃ c cs, j.chars = c :: cs ∧ openingOf c = j.opening := by
  cases j with
  | null => exact ⟨_, _, rfl, rfl⟩
  | bool value => cases value <;> exact ⟨_, _, rfl, rfl⟩
  | integer n =>
    obtain ⟨c, cs, text_eq, start⟩ := integerText_head n
    exact ⟨c, cs, text_eq, if_pos start⟩
  | float x =>
    obtain ⟨c, cs, text_eq, start⟩ := floatText_head x
    exact ⟨c, cs, text_eq, if_pos start⟩
  | string s => exact ⟨_, _, rfl, rfl⟩
  | array items => exact ⟨_, _, chars_array items, rfl⟩
  | object fields => exact ⟨_, _, chars_object fields, rfl⟩

theorem opening_eq {j k : Json} (same : j.chars ++ rest = k.chars ++ more) :
    j.opening = k.opening := by
  obtain ⟨c, cs, text_eq, first⟩ := j.chars_opening
  obtain ⟨d, ds, otherText_eq, otherFirst⟩ := k.chars_opening
  rw [text_eq, otherText_eq] at same
  rw [← first, ← otherFirst, (List.cons.inj same).1]

theorem chars_ne_close (j : Json) (tail rest : List Char) : j.chars ++ tail ≠ ']' :: rest := by
  intro same
  obtain ⟨c, cs, text_eq, first⟩ := j.chars_opening
  rw [text_eq] at same
  rw [(List.cons.inj same).1] at first
  cases j <;> cases first

theorem fieldText_separable {field other : String × Json}
    (separable : Separable chars field.2 other.2) : Separable fieldText field other := by
  intro rest more ends otherEnds same
  simp only [fieldText, List.append_assoc] at same
  obtain ⟨sameName, sameBehind⟩ :=
    string_separable field.1 other.1 (stopsNumber_cons rfl) (stopsNumber_cons rfl) same
  obtain ⟨sameValue, sameRest⟩ := separable ends otherEnds (List.cons.inj sameBehind).2
  exact ⟨Prod.ext sameName sameValue, sameRest⟩

theorem array_separable {items others : List Json}
    (separable : ∀ item ∈ items, ∀ other ∈ others, Separable chars item other)
    (same : (array items).chars ++ rest = (array others).chars ++ more) :
    items = others ∧ rest = more := by
  rw [chars_array, chars_array] at same
  simp only [List.cons_append, List.append_assoc, List.nil_append] at same
  exact list_separable rfl (by decide) chars_ne_close separable (List.cons.inj same).2

theorem object_separable {fields others : List (String × Json)}
    (separable : ∀ field ∈ fields, ∀ other ∈ others, Separable chars field.2 other.2)
    (same : (object fields).chars ++ rest = (object others).chars ++ more) :
    fields = others ∧ rest = more := by
  rw [chars_object, chars_object] at same
  simp only [List.cons_append, List.append_assoc, List.nil_append] at same
  have starts (field : String × Json) (tail rest : List Char) :
      fieldText field ++ tail ≠ '\x7d' :: rest := by
    intro same
    cases (List.cons.inj same).1
  exact list_separable rfl (by decide) starts
    (fun field member other otherMember =>
      fieldText_separable (separable field member other otherMember))
    (List.cons.inj same).2

/-- The text of a value ends where that of another value does that starts in the same way. -/
theorem chars_separable {j k : Json} (finite : j.Finite) (otherFinite : k.Finite) :
    Separable chars j k := by
  -- The first character tells the kind of the value, but not which kind of number it is.
  induction finite generalizing k with
  | null =>
    intro rest more _ _ same
    cases otherFinite with
    | null => exact ⟨rfl, List.append_cancel_left same⟩
    | _ => cases opening_eq same
  | bool value =>
    intro rest more _ _ same
    cases otherFinite with
    | bool otherValue =>
      cases value <;> cases otherValue
      · exact ⟨rfl, List.append_cancel_left same⟩
      · cases (List.cons.inj same).1
      · cases (List.cons.inj same).1
      · exact ⟨rfl, List.append_cancel_left same⟩
    | _ => cases opening_eq same
  | integer n =>
    intro rest more ends otherEnds same
    cases otherFinite with
    | integer m =>
      obtain ⟨sameText, sameRest⟩ := number_separable (integerText_numberChar n)
        (integerText_numberChar m) ends otherEnds same
      exact ⟨congrArg Json.integer (integerText_injective sameText), sameRest⟩
    | @float x _ =>
      obtain ⟨sameText, -⟩ := number_separable (integerText_numberChar n)
        (floatText_numberChar x) ends otherEnds same
      exact absurd sameText (integerText_ne_floatText n x)
    | _ => cases opening_eq same
  | @float x finite =>
    intro rest more ends otherEnds same
    cases otherFinite with
    | @float y otherFinite =>
      obtain ⟨sameText, sameRest⟩ := number_separable (floatText_numberChar x)
        (floatText_numberChar y) ends otherEnds same
      exact ⟨congrArg Json.float (floatText_injective finite otherFinite sameText), sameRest⟩
    | integer n =>
      obtain ⟨sameText, -⟩ := number_separable (floatText_numberChar x)
        (integerText_numberChar n) ends otherEnds same
      exact absurd sameText.symm (integerText_ne_floatText n x)
    | _ => cases opening_eq same
  | string s =>
    intro rest more ends otherEnds same
    cases otherFinite with
    | string t =>
      obtain ⟨sameString, sameRest⟩ := string_separable s t ends otherEnds same
      exact ⟨congrArg Json.string sameString, sameRest⟩
    | _ => cases opening_eq same
  | @array items _ ih =>
    intro rest more ends otherEnds same
    cases otherFinite with
    | array othersFinite =>
      obtain ⟨sameItems, sameRest⟩ := array_separable
        (fun item member other otherMember => ih item member (othersFinite other otherMember)) same
      exact ⟨congrArg Json.array sameItems, sameRest⟩
    | _ => cases opening_eq same
  | @object fields _ ih =>
    intro rest more ends otherEnds same
    cases otherFinite with
    | object othersFinite =>
      obtain ⟨sameFields, sameRest⟩ := object_separable
        (fun field member other otherMember => ih field member (othersFinite other otherMember))
        same
      exact ⟨congrArg Json.object sameFields, sameRest⟩
    | _ => cases opening_eq same

theorem text_injective {j k : Json} (finite : j.Finite) (otherFinite : k.Finite)
    (same : j.text = k.text) : j = k := by
  have nothing : StopsNumber [] := by simp [StopsNumber]
  have sameChars : j.chars = k.chars := String.ofList_injective same
  exact (chars_separable finite otherFinite nothing nothing
    (by rw [List.append_nil, List.append_nil, sameChars])).1

end QueryFilter.Json
