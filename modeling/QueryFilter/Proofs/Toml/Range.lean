import QueryFilter.Proofs.Toml.Tables
import QueryFilter.Toml.Reader

/-!
# Integers that are read fit 64 bits

No reader finds an integer above the greatest one of 64 bits, and building tables from what was read
adds none: `read_inRange`. The invariant goes through the readers of values, the operations on
tables, and the document.
-/

namespace QueryFilter.Toml

/-! ### The invariant -/

/-- No integer in the value is above the greatest one of 64 bits. -/
inductive Value.InRange : Value → Prop
  | string (s : String) : InRange (.string s)
  | integer {n : Int} (fits : n ≤ Int64.maxValue.toInt) : InRange (.integer n)
  | float (value : Binary64) : InRange (.float value)
  | boolean (value : Bool) : InRange (.boolean value)
  | dateTime (text : String) : InRange (.dateTime text)
  | array {items : List Value} (each : ∀ item ∈ items, item.InRange) : InRange (.array items)
  | table {entries : List (String × Value)} (each : ∀ entry ∈ entries, entry.2.InRange) :
    InRange (.table entries)

inductive Item.InRange : Item → Prop
  | value {value : Value} (fits : value.InRange) : InRange (.value value)
  | table {origin : Origin} {entries : List (String × Item)}
    (each : ∀ entry ∈ entries, entry.2.InRange) : InRange (.table origin entries)
  | tables {tables : List (List (String × Item))}
    (each : ∀ table ∈ tables, ∀ entry ∈ table, entry.2.InRange) : InRange (.tables tables)

def Entries.InRange (entries : Entries) : Prop := ∀ entry ∈ entries, entry.2.InRange

def Section.InRange (s : Section) : Prop := ∀ a ∈ s.assignments, a.value.InRange

/-! ### Tables -/

namespace Entries

variable {entries result : Entries} {key : String} {item : Item}

theorem inRange_nil : InRange [] := by
  intro entry member
  cases member

theorem InRange.lookup (inRange : InRange entries) (found : entries.lookup key = some item) :
    item.InRange := by
  obtain ⟨front, back, rfl, -⟩ := List.lookup_eq_some_iff.mp found
  exact inRange (key, item) (by simp)

theorem InRange.append (inRange : InRange entries) (fits : item.InRange) :
    InRange (entries ++ [(key, item)]) := by
  intro entry member
  rcases List.mem_append.mp member with old | new
  · exact inRange entry old
  · obtain rfl := List.mem_singleton.mp new
    exact fits

theorem InRange.replace (inRange : InRange entries) (fits : item.InRange) :
    InRange (replace key item entries) := by
  intro entry member
  obtain ⟨old, isOld, rfl⟩ := List.mem_map.mp member
  split
  · exact fits
  · exact inRange old isOld

theorem InRange.add (inRange : InRange entries) (fits : item.InRange)
    (added : entries.add? key item = some result) : InRange result := by
  unfold add? at added
  split at added
  · cases added
  · cases added
    exact inRange.append fits

theorem inRange_tables {tables : List Entries} {last : Entries}
    (each : ∀ table ∈ tables, InRange table) (fits : InRange last) :
    Item.InRange (.tables (tables ++ [last])) := by
  refine .tables fun table member => ?_
  rcases List.mem_append.mp member with old | new
  · exact each table old
  · obtain rfl := List.mem_singleton.mp new
    exact fits

/-- A change at the end of a path keeps the range if the change itself does. -/
theorem InRange.change {missing : Origin} {mayEnter : Origin → Bool}
    {change : Origin → Entries → Option Entries}
    (keeps : ∀ {origin inner result}, InRange inner → change origin inner = some result →
      InRange result) {path : List String} {origin : Origin} (inRange : InRange entries)
    (changed : change? missing mayEnter change path origin entries = some result) :
    InRange result := by
  induction path generalizing origin entries result with
  | nil => exact keeps inRange changed
  | cons key path ih =>
    rw [change?] at changed
    split at changed
    · obtain ⟨inner, made, rfl⟩ := Option.map_eq_some_iff.mp changed
      exact inRange.append (.table (ih inRange_nil made))
    · cases changed
    · rename_i found
      cases inRange.lookup found with
      | table each =>
        split at changed
        · obtain ⟨inner, made, rfl⟩ := Option.map_eq_some_iff.mp changed
          exact inRange.replace (.table (ih each made))
        · cases changed
    · rename_i tables found
      cases inRange.lookup found with
      | tables each =>
        obtain ⟨inner, made, rfl⟩ := Option.map_eq_some_iff.mp changed
        obtain ⟨last, isLast, made⟩ := Option.bind_eq_some_iff.mp made
        have others : ∀ table ∈ tables.dropLast, InRange table := fun table member =>
          each table ((List.dropLast_sublist tables).subset member)
        exact inRange.replace
          (inRange_tables others (ih (each last (List.mem_of_getLast? isLast)) made))

theorem foldlM_inRange {α : Type} {step : Entries → α → Option Entries} {Fits : α → Prop}
    {parts : List α}
    (keeps : ∀ {entries part result}, InRange entries → Fits part →
      step entries part = some result → InRange result)
    (fits : ∀ part ∈ parts, Fits part) (inRange : InRange entries)
    (folded : parts.foldlM step entries = some result) : InRange result := by
  induction parts generalizing entries with
  | nil =>
    cases folded
    exact inRange
  | cons part parts ih =>
    rw [List.foldlM_cons] at folded
    obtain ⟨middle, made, folded⟩ := Option.bind_eq_some_iff.mp folded
    exact ih (fun other member => fits other (List.mem_cons_of_mem _ member))
      (keeps inRange (fits part List.mem_cons_self) made) folded

theorem InRange.assign {a : Assignment} (inRange : InRange entries) (fits : a.value.InRange)
    (assigned : assign? entries a = some result) : InRange result := by
  refine inRange.change ?_ assigned
  intro origin inner result inRange added
  split at added
  · exact inRange.add (.value fits) added
  · cases added

theorem InRange.assignAll {assignments : List Assignment} (inRange : InRange entries)
    (fits : ∀ a ∈ assignments, a.value.InRange)
    (assigned : assignAll? entries assignments = some result) : InRange result := by
  have keeps {entries result : Entries} {a : Assignment} (inRange : InRange entries)
      (fits : a.value.InRange) (assigned : assign? entries a = some result) : InRange result :=
    inRange.assign fits assigned
  exact foldlM_inRange keeps fits inRange assigned

theorem InRange.define {s : Section} (inRange : InRange entries) (fits : s.InRange)
    (defined : define? s entries = some result) : InRange result := by
  unfold define? at defined
  split at defined
  · obtain ⟨table, made, rfl⟩ := Option.map_eq_some_iff.mp defined
    exact inRange.append (.table (inRange_nil.assignAll fits made))
  · rename_i found
    cases inRange.lookup found with
    | table each =>
      obtain ⟨table, made, rfl⟩ := Option.map_eq_some_iff.mp defined
      exact inRange.replace (.table (InRange.assignAll each fits made))
  · obtain ⟨table, made, rfl⟩ := Option.map_eq_some_iff.mp defined
    have single : Item.InRange (.tables ([] ++ [table])) :=
      inRange_tables (by simp) (inRange_nil.assignAll fits made)
    exact inRange.append single
  · rename_i found
    cases inRange.lookup found with
    | tables each =>
      obtain ⟨table, made, rfl⟩ := Option.map_eq_some_iff.mp defined
      exact inRange.replace (inRange_tables each (inRange_nil.assignAll fits made))
  · cases defined

theorem InRange.addSection {s : Section} (inRange : InRange entries) (fits : s.InRange)
    (added : addSection? entries s = some result) : InRange result :=
  inRange.change (fun inRange defined => inRange.define fits defined) added

end Entries

theorem toValues_each {entries : Entries} (each : ∀ entry ∈ entries, entry.2.toValue.InRange) :
    ∀ entry ∈ Entries.toValues entries, entry.2.InRange := by
  rw [Entries.toValues_eq_map]
  intro entry member
  obtain ⟨old, isOld, rfl⟩ := List.mem_map.mp member
  exact each old isOld

theorem Item.InRange.toValue {item : Item} (inRange : item.InRange) : item.toValue.InRange := by
  induction inRange with
  | value fits => exact fits
  | table _ ih =>
    rw [Item.toValue]
    exact .table (toValues_each ih)
  | tables _ ih =>
    rw [Item.toValue, Entries.tableValues_eq_map]
    refine .array fun item member => ?_
    obtain ⟨table, isTable, rfl⟩ := List.mem_map.mp member
    exact .table (toValues_each (ih table isTable))

theorem Entries.InRange.toValues {entries : Entries} (inRange : InRange entries) :
    ∀ entry ∈ toValues entries, entry.2.InRange :=
  toValues_each fun entry member => (inRange entry member).toValue

/-! ### Readers -/

variable {cs rest : List Char} {value : Value} {read : List Char → Option (Value × List Char)}

/-- All items of a list have what each item has that the reader finds. -/
theorem items_each {α : Type} {P : α → Prop} {close : Char} {trailing : Bool}
    {skip : List Char → Option (List Char)} {item : List Char → Option (α × List Char)}
    (each : ∀ ⦃cs a rest⦄, item cs = some (a, rest) → P a) {items : List α}
    (found : items? close trailing skip item cs = some (items, rest)) : ∀ a ∈ items, P a := by
  fun_induction items? close trailing skip item cs generalizing items rest
  case case2 isFirst _ _ _ _ _ =>
    cases found
    simpa using each isFirst
  case case3 isFirst _ _ _ _ _ _ ih =>
    obtain ⟨⟨more, left⟩, isMore, found⟩ := Option.map_eq_some_iff.mp found
    cases found
    exact List.forall_mem_cons.mpr ⟨each isFirst, ih isMore⟩
  case case6 isFirst _ _ _ =>
    cases found
    simpa using each isFirst
  all_goals cases found

def ReadsInRange (read : List Char → Option (Value × List Char)) : Prop :=
  ∀ ⦃cs value rest⦄, read cs = some (value, rest) → value.InRange

theorem assignment_inRange (reads : ReadsInRange read) {a : Assignment}
    (found : assignment? read cs = some (a, rest)) : a.value.InRange := by
  simp only [assignment?, Option.bind_eq_bind, Option.bind_eq_some_iff] at found
  obtain ⟨key, -, behind, -, ⟨value, left⟩, isValue, found⟩ := found
  cases found
  exact reads isValue

theorem array_inRange (reads : ReadsInRange read) (found : array? read cs = some (value, rest)) :
    value.InRange := by
  simp only [array?, Option.bind_eq_bind, Option.bind_eq_some_iff] at found
  obtain ⟨next, -, found⟩ := found
  split at found
  · cases found
    exact .array (by simp)
  · obtain ⟨⟨items, left⟩, isItems, found⟩ := Option.bind_eq_some_iff.mp found
    cases found
    exact .array (items_each reads isItems)

theorem inlineTable_inRange (reads : ReadsInRange read)
    (found : inlineTable? read cs = some (value, rest)) : value.InRange := by
  unfold inlineTable? at found
  split at found
  · cases found
    exact .table (by simp)
  · obtain ⟨⟨assignments, left⟩, isAssignments, found⟩ := Option.bind_eq_some_iff.mp found
    obtain ⟨entries, assigned, found⟩ := Option.bind_eq_some_iff.mp found
    cases found
    have fits : ∀ a ∈ assignments, a.value.InRange :=
      items_each (fun _ _ _ => assignment_inRange reads) isAssignments
    exact .table (Entries.inRange_nil.assignAll fits assigned).toValues

theorem integerInRange_le {n m : Int} (inRange : integerInRange? n = some m) :
    m ≤ Int64.maxValue.toInt := by
  unfold integerInRange? at inRange
  split at inRange
  · rename_i fits
    cases inRange
    exact fits.2
  · cases inRange

theorem radixInteger_inRange {radix : Nat} {isDigit : Char → Bool}
    (found : radixInteger? radix isDigit cs = some (value, rest)) : value.InRange := by
  obtain ⟨⟨digits, left⟩, -, found⟩ := Option.bind_eq_some_iff.mp found
  obtain ⟨n, inRange, found⟩ := Option.map_eq_some_iff.mp found
  cases found
  exact .integer (integerInRange_le inRange)

theorem decimalInteger_inRange (found : decimalInteger? cs = some (value, rest)) :
    value.InRange := by
  obtain ⟨⟨digits, left⟩, -, found⟩ := Option.bind_eq_some_iff.mp found
  obtain ⟨n, inRange, found⟩ := Option.map_eq_some_iff.mp found
  cases found
  exact .integer (integerInRange_le inRange)

theorem integer_inRange (found : integer? cs = some (value, rest)) : value.InRange := by
  unfold integer? at found
  split at found
  · exact radixInteger_inRange found
  · exact radixInteger_inRange found
  · exact radixInteger_inRange found
  · exact decimalInteger_inRange found

theorem string_inRange (found : string? cs = some (value, rest)) : value.InRange := by
  obtain ⟨⟨s, left⟩, -, found⟩ := Option.map_eq_some_iff.mp found
  cases found
  exact .string _

theorem dateTime_inRange (found : dateTime? cs = some (value, rest)) : value.InRange := by
  obtain ⟨left, -, found⟩ := Option.map_eq_some_iff.mp found
  cases found
  exact .dateTime _

theorem finiteFloat_inRange (found : finiteFloat? cs = some (value, rest)) : value.InRange := by
  unfold finiteFloat? at found
  simp only at found
  split at found
  · cases found
  · split at found
    · cases found
    · split at found <;> cases found
      exact .float _

theorem specialFloat_inRange (found : specialFloat? cs = some (value, rest)) : value.InRange := by
  unfold specialFloat? at found
  simp only at found
  split at found <;> cases found <;> exact .float _

theorem float_inRange (found : float? cs = some (value, rest)) : value.InRange := by
  simp only [float?, Option.orElse_eq_orElse, Option.orElse_eq_or, Option.or_eq_some_iff] at found
  rcases found with finite | ⟨-, special⟩
  · exact finiteFloat_inRange finite
  · exact specialFloat_inRange special

theorem boolean_inRange (found : boolean? cs = some (value, rest)) : value.InRange := by
  unfold boolean? at found
  split at found <;> cases found <;> exact .boolean _

theorem scalar_inRange
    (found : (string? cs <|> dateTime? cs <|> float? cs <|> integer? cs <|> boolean? cs) =
      some (value, rest)) : value.InRange := by
  simp only [Option.orElse_eq_orElse, Option.orElse_eq_or, Option.or_eq_some_iff] at found
  rcases found with found | ⟨-, found | ⟨-, found | ⟨-, found | ⟨-, found⟩⟩⟩⟩
  · exact string_inRange found
  · exact dateTime_inRange found
  · exact float_inRange found
  · exact integer_inRange found
  · exact boolean_inRange found

theorem value_inRange (depth : Nat) : ReadsInRange (value? depth) := by
  -- Arrays and inline tables hold values of one level less.
  have step {depth : Nat} (inner : ∀ lower, depth = lower + 1 → ReadsInRange (value? lower)) :
      ReadsInRange (value? depth) := by
    intro cs value rest found
    unfold value? at found
    split at found
    · cases found
    · cases found
    · exact array_inRange (inner _ rfl) found
    · exact inlineTable_inRange (inner _ rfl) found
    · exact scalar_inRange found
  induction depth with
  | zero => exact step fun _ more => nomatch more
  | succ depth ih =>
    refine step fun lower same => ?_
    cases same
    exact ih

/-! ### Documents -/

def Statement.InRange : Statement → Prop
  | .assignment a => a.value.InRange
  | .header _ _ _ => True

theorem statement_inRange {statement : Statement}
    (found : statement? cs = some (some statement, rest)) : statement.InRange := by
  unfold statement? at found
  split at found
  · cases found
  · obtain ⟨⟨key, behind⟩, -, found⟩ := Option.bind_eq_some_iff.mp found
    obtain ⟨left, -, found⟩ := Option.bind_eq_some_iff.mp found
    cases found
    trivial
  · obtain ⟨⟨key, behind⟩, -, found⟩ := Option.bind_eq_some_iff.mp found
    obtain ⟨left, -, found⟩ := Option.bind_eq_some_iff.mp found
    cases found
    trivial
  · split at found
    · cases found
    · obtain ⟨⟨a, left⟩, isAssignment, found⟩ := Option.map_eq_some_iff.mp found
      cases found
      exact assignment_inRange (value_inRange maxDepth) isAssignment

theorem statements_inRange {found : List Statement} (read : statements? cs = some found) :
    ∀ statement ∈ found, statement.InRange := by
  have line {cs rest : List Char} {statement : Option Statement}
      (isRead : statement? cs = some (statement, rest)) : ∀ s ∈ statement.toList, s.InRange := by
    intro s isStatement
    obtain rfl := Option.mem_toList.mp isStatement
    exact statement_inRange isRead
  fun_induction statements? cs generalizing found
  case case3 isRead _ =>
    cases read
    exact line isRead
  case case4 isRead _ _ _ _ ih =>
    obtain ⟨later, isLater, rfl⟩ := Option.map_eq_some_iff.mp read
    exact List.forall_mem_append.mpr ⟨line isRead, ih isLater⟩
  all_goals cases read

theorem sections_inRange {statements : List Statement}
    (each : ∀ statement ∈ statements, statement.InRange) :
    (∀ a ∈ (sections statements).1, a.value.InRange) ∧
      ∀ s ∈ (sections statements).2, s.InRange := by
  induction statements with
  | nil => simp [sections]
  | cons statement statements ih =>
    obtain ⟨first, later⟩ := List.forall_mem_cons.mp each
    obtain ⟨assignments, parts⟩ := ih later
    cases statement with
    | assignment a => exact ⟨List.forall_mem_cons.mpr ⟨first, assignments⟩, parts⟩
    | header path key inArray =>
      exact ⟨by simp [sections], List.forall_mem_cons.mpr ⟨assignments, parts⟩⟩

theorem document_inRange {statements : List Statement} {entries : List (String × Value)}
    (each : ∀ statement ∈ statements, statement.InRange)
    (made : document? statements = some entries) : ∀ entry ∈ entries, entry.2.InRange := by
  obtain ⟨assignments, parts⟩ := sections_inRange each
  obtain ⟨top, assigned, made⟩ := Option.bind_eq_some_iff.mp made
  obtain ⟨whole, added, made⟩ := Option.bind_eq_some_iff.mp made
  cases made
  have topInRange := Entries.inRange_nil.assignAll assignments assigned
  have keeps {entries result : Entries} {s : Section} (inRange : entries.InRange) (fits : s.InRange)
      (added : entries.addSection? s = some result) : result.InRange :=
    inRange.addSection fits added
  exact (Entries.foldlM_inRange keeps parts topInRange added).toValues

/-- Every value of a text that is read is in range. -/
theorem read_inRange {text : String} {entries : List (String × Value)}
    (found : read? text = some entries) : ∀ entry ∈ entries, entry.2.InRange := by
  obtain ⟨statements, isRead, made⟩ := Option.bind_eq_some_iff.mp found
  exact document_inRange (statements_inRange isRead) made

end QueryFilter.Toml
