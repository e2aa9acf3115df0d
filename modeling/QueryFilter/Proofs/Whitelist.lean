import QueryFilter.Proofs.Walk

/-!
# Allowed keys only restrict

A filter with a list of keys accepts what the filter that allows every field accepts, as the same
clause, as long as all of its columns are listed: `clause_ofList_iff`.
-/

namespace QueryFilter

/-! ### Sets of names -/

section

variable {α : Type}

theorem lookup_insertEntry_same (name : String) (value : α) (entries : List (String × α)) :
    (insertEntry name value entries).lookup name = some value := by
  induction entries with
  | nil => simp [insertEntry]
  | cons entry entries ih =>
    obtain ⟨first, _⟩ := entry
    unfold insertEntry
    by_cases before : name < first
    · simp [before]
    · by_cases same : name = first
      · simp [same]
      · have passed : (name == first) = false := beq_false_of_ne same
        rw [if_neg before, if_neg same, List.lookup_cons, passed]
        exact ih

theorem lookup_insertEntry_other {name other : String} (different : other ≠ name) (value : α)
    (entries : List (String × α)) :
    (insertEntry name value entries).lookup other = entries.lookup other := by
  have absent : (other == name) = false := beq_false_of_ne different
  induction entries with
  | nil => simp [insertEntry, List.lookup_cons, absent]
  | cons entry entries ih =>
    obtain ⟨first, _⟩ := entry
    unfold insertEntry
    by_cases before : name < first
    · simp [before, List.lookup_cons, absent]
    · by_cases same : name = first
      · subst same
        simp [List.lookup_cons, absent]
      · rw [if_neg before, if_neg same, List.lookup_cons, List.lookup_cons, ih]

theorem NameMap.find_insert (map : NameMap α) (name other : String) (value : α) :
    (map.insert name value).find? other = if other = name then some value else map.find? other := by
  unfold NameMap.find? NameMap.insert
  by_cases same : other = name
  · rw [if_pos same, same, lookup_insertEntry_same]
  · rw [if_neg same, lookup_insertEntry_other same]

end

theorem NameSet.isSome_find_ofNames (names : List String) (name : String) :
    ((NameSet.ofNames names).find? name).isSome ↔ name ∈ names := by
  have generalized : ∀ set : NameSet,
      (((names.map fun n => (n, ())).foldl (fun map entry => map.insert entry.1 entry.2)
        set).find? name).isSome ↔ (set.find? name).isSome ∨ name ∈ names := by
    induction names with
    | nil => simp
    | cons first rest ih =>
      intro set
      rw [List.map_cons, List.foldl_cons, ih, NameMap.find_insert, List.mem_cons]
      by_cases same : name = first
      · simp [same]
      · simp [same]
  have empty : (NameMap.empty.find? name : Option Unit) = none := rfl
  rw [NameSet.ofNames, NameMap.ofList, generalized, empty]
  simp

namespace KeySet

theorem allows_ofList {keys : List String} (noWildcard : everyField ∉ keys) (field : String) :
    (ofList keys).allows field ↔ field ∈ keys := by
  rw [ofList, if_neg noWildcard]
  exact NameSet.isSome_find_ofNames keys field

theorem checkField_ok_iff (keys : KeySet) (field : String) :
    keys.checkField field = .ok () ↔ keys.allows field := by
  cases keys with
  | any => simp [checkField, allows]
  | only known =>
    unfold checkField
    by_cases allowed : (KeySet.only known).allows field
    · simp [allowed]
    · simp [allowed]

end KeySet

/-! ### Checks -/

variable {keys : KeySet}

theorem Operand.checkArgs_ok_iff {args : List Operand} :
    checkArgs keys args = .ok () ↔ ∀ arg ∈ args, arg.check keys = .ok () := by
  induction args with
  | nil => simp [checkArgs]
  | cons arg args ih => simp only [checkArgs, then_ok_iff, ih, List.forall_mem_cons]

theorem Operand.check_ok_iff {operand : Operand} :
    operand.check keys = .ok () ↔ ∀ field ∈ operand.fields, keys.allows field := by
  induction operand using Operand.induction with
  | field name => simp [check, fields, KeySet.checkField_ok_iff]
  | literal value => simp [check, fields]
  | call name args ih =>
    rw [check, checkArgs_ok_iff, fields_call]
    constructor
    · intro checked field member
      obtain ⟨arg, present, member⟩ := List.mem_flatMap.mp member
      exact (ih arg present).mp (checked arg present) field member
    · intro allowed arg present
      apply (ih arg present).mpr
      intro field member
      exact allowed field (List.mem_flatMap.mpr ⟨arg, present, member⟩)

/-- The check passes an expression if all of its fields are allowed. -/
theorem Expr.check_ok_iff {expr : Expr} :
    expr.check keys = .ok () ↔ ∀ field ∈ expr.fields, keys.allows field := by
  induction expr with
  | comparison left op right =>
    simp only [check, then_ok_iff, Operand.check_ok_iff, fields, List.forall_mem_append]
  | inList field negated values => simp [check, fields, KeySet.checkField_ok_iff]
  | isNull field negated => simp [check, fields, KeySet.checkField_ok_iff]
  | and left right ihLeft ihRight | or left right ihLeft ihRight =>
    simp only [check, then_ok_iff, ihLeft, ihRight, fields, List.forall_mem_append]
  | group inner ih => exact ih

/-! ### Filters -/

theorem clause_of_check_iff {scope text : String} {limits : Limits} {clause : Clause} :
    (⟨scope, keys, limits⟩ : Filter).clause text = .ok clause ↔
      ∃ expr, parse limits text = .ok expr ∧ (∀ field ∈ expr.fields, keys.allows field) ∧
        expr.toClause scope = .ok clause := by
  simp only [clause_ok_iff, expr_ok_iff, Expr.check_ok_iff, and_assoc]

/-- Listing keys keeps the clauses all of whose columns are listed and changes none of them. -/
theorem clause_ofList_iff (scope text : String) (limits : Limits) (clause : Clause)
    {keys : List String} (noWildcard : KeySet.everyField ∉ keys) :
    (⟨scope, .ofList keys, limits⟩ : Filter).clause text = .ok clause ↔
      (⟨scope, .ofList [KeySet.everyField], limits⟩ : Filter).clause text = .ok clause ∧
      ∀ column ∈ clause.columns, column.1 = scope ∧ column.2 ∈ keys := by
  have everything : ∀ field, (KeySet.ofList [KeySet.everyField]).allows field := fun _ => rfl
  constructor
  · intro accepted
    obtain ⟨expr, parsed, allowed, compiled⟩ := clause_of_check_iff.mp accepted
    refine ⟨clause_of_check_iff.mpr ⟨expr, parsed, fun field _ => everything field, compiled⟩, ?_⟩
    intro column member
    rw [toClause_columns compiled] at member
    obtain ⟨field, present, rfl⟩ := List.mem_map.mp member
    exact ⟨rfl, (KeySet.allows_ofList noWildcard field).mp (allowed field present)⟩
  · rintro ⟨accepted, listed⟩
    obtain ⟨expr, parsed, -, compiled⟩ := clause_of_check_iff.mp accepted
    refine clause_of_check_iff.mpr ⟨expr, parsed, ?_, compiled⟩
    intro field present
    apply (KeySet.allows_ofList noWildcard field).mpr
    have member : (scope, field) ∈ clause.columns := by
      rw [toClause_columns compiled]
      exact List.mem_map_of_mem present
    exact (listed _ member).2

theorem clause_ofList_search :
    KeySet.everyField ∉ ["name", "title"] ∧
      (⟨"users", .ofList ["name", "title"], {}⟩ : Filter).clause "title ct concat(name, 1)" =
        .ok (.compare (.column "users" "title") .like (.function "CONCAT" [.value (.string "%"),
          .function "CONCAT" [.column "users" "name", .value (.integer 1)],
          .value (.string "%")])) := by
  have noWildcard : KeySet.everyField ∉ ["name", "title"] := by decide
  have tokenized : tokenize "title ct concat(name, 1)" = .ok [⟨.name "title", "title", 0⟩,
      ⟨.comparison .contains, "ct", 6⟩, ⟨.name "concat", "concat", 9⟩, ⟨.openParen, "(", 15⟩,
      ⟨.name "name", "name", 16⟩, ⟨.comma, ",", 20⟩, ⟨.literal (.integer 1), "1", 22⟩,
      ⟨.closeParen, ")", 23⟩] := by decide +kernel
  refine ⟨noWildcard, (clause_ofList_iff _ _ _ _ noWildcard).mpr ⟨?_, ?_⟩⟩
  · exact (clause_of_tokens tokenized).trans rfl
  · simp [Clause.columns, Scalar.columns, Scalar.columnsOfArgs]

end QueryFilter
