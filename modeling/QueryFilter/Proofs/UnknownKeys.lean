import Mathlib.Data.List.Sort
import QueryFilter.Proofs.Whitelist

/-!
# The first field that is not allowed

An expression is checked field by field, in source order, against a list of keys. It passes if every
field is listed, or every field is allowed, and otherwise the first field that is not listed is the
one that is named: `check_ofList`. Only which keys are listed matters, not how.
-/

namespace QueryFilter

/-! ### Sets of keys -/

theorem NameMap.names_increasing {α : Type} (map : NameMap α) :
    map.names.Pairwise (· < ·) :=
  List.pairwise_map.mpr map.increasing

theorem NameSet.mem_names_ofNames {names : List String} {name : String} :
    name ∈ (NameSet.ofNames names).names ↔ name ∈ names := by
  rw [← isSome_find_ofNames names name, NameMap.find?, List.lookup_isSome_iff, NameMap.names,
    List.mem_map]
  constructor
  · rintro ⟨entry, member, rfl⟩
    exact ⟨entry, member, beq_self_eq_true _⟩
  · rintro ⟨entry, member, same⟩
    exact ⟨entry, member, (beq_iff_eq.mp same).symm⟩

/-- A set of names is known by its members. -/
theorem NameSet.ofNames_congr {names others : List String}
    (same : ∀ name, name ∈ others ↔ name ∈ names) :
    NameSet.ofNames others = NameSet.ofNames names := by
  have sameNames : (NameSet.ofNames others).names = (NameSet.ofNames names).names := by
    refine (NameMap.names_increasing _).eq_of_mem_iff (NameMap.names_increasing _) fun name => ?_
    rw [mem_names_ofNames, mem_names_ofNames, same]
  have fromNames (set : NameSet) : set.entries = set.names.map fun name => (name, ()) := by
    rw [NameMap.names, List.map_map]
    exact (List.map_id _).symm
  generalize NameSet.ofNames others = first at sameNames
  generalize NameSet.ofNames names = second at sameNames
  have sameEntries : first.entries = second.entries := by
    rw [fromNames, fromNames, sameNames]
  cases first
  cases second
  cases sameEntries
  rfl

namespace KeySet

variable {keys others : List String} {field : String}

theorem ofList_congr (same : ∀ key, key ∈ others ↔ key ∈ keys) : ofList others = ofList keys := by
  unfold ofList
  simp only [same, NameSet.ofNames_congr same]

theorem checkField_any (wildcard : everyField ∈ keys) :
    (ofList keys).checkField field = .ok () := by
  rw [ofList, if_pos wildcard]
  rfl

theorem checkField_unlisted (noWildcard : everyField ∉ keys) (unlisted : field ∉ keys) :
    (ofList keys).checkField field =
      .error (.unknownKey field (suggestion field (NameSet.ofNames keys).names)) := by
  have refused : (ofList keys).allows field = false := by
    rw [← Bool.not_eq_true, allows_ofList noWildcard]
    exact unlisted
  rw [ofList, if_neg noWildcard] at refused ⊢
  rw [checkField, refused]
  rfl

end KeySet

/-! ### Checks in source order -/

theorem Operand.check_eq_forM (keys : KeySet) (operand : Operand) :
    operand.check keys = forM operand.fields keys.checkField := by
  induction operand using Operand.induction with
  | field name => simp [check, fields]
  | literal value => rfl
  | call name args ih =>
    rw [check, fields_call]
    induction args with
    | nil => rfl
    | cons arg args ihArgs =>
      obtain ⟨first, others⟩ := List.forall_mem_cons.mp ih
      rw [checkArgs, List.flatMap_cons, List.forM_append, first, ihArgs others]

/-- The check visits the fields of an expression, each where it stands. -/
theorem Expr.check_eq_forM (keys : KeySet) (expr : Expr) :
    expr.check keys = forM expr.fields keys.checkField := by
  induction expr with
  | comparison left op right =>
    rw [check, fields, List.forM_append, Operand.check_eq_forM, Operand.check_eq_forM]
  | inList field negated values => simp [check, fields]
  | isNull field negated => simp [check, fields]
  | and left right ihLeft ihRight | or left right ihLeft ihRight =>
    rw [check, fields, List.forM_append, ihLeft, ihRight]
  | group inner ih => exact ih

/-- The check against a list of keys passes if the wildcard or every field is listed, and otherwise
it names the first field that is not, with a suggestion among the keys in increasing order. It is the
same for every list of the same keys. -/
theorem check_ofList (expr : Expr) (keys : List String) :
    (expr.check (.ofList keys) = .ok () ↔
      KeySet.everyField ∈ keys ∨ ∀ field ∈ expr.fields, field ∈ keys) ∧
    (∀ e, expr.check (.ofList keys) = .error e ↔ KeySet.everyField ∉ keys ∧
      ∃ before field after names, expr.fields = before ++ field :: after ∧
        (∀ other ∈ before, other ∈ keys) ∧ field ∉ keys ∧
        names.Pairwise (· < ·) ∧ (∀ name, name ∈ names ↔ name ∈ keys) ∧
        e = .unknownKey field (suggestion field names)) ∧
    ∀ others : List String, (∀ key, key ∈ others ↔ key ∈ keys) →
      expr.check (.ofList others) = expr.check (.ofList keys) := by
  have passes {field : String} : (KeySet.ofList keys).checkField field = .ok () ↔
      KeySet.everyField ∈ keys ∨ field ∈ keys := by
    by_cases wildcard : KeySet.everyField ∈ keys
    · simp [KeySet.checkField_any wildcard, wildcard]
    · rw [KeySet.checkField_ok_iff, KeySet.allows_ofList wildcard]
      simp [wildcard]
  refine ⟨?_, ?_, ?_⟩
  · rw [expr.check_eq_forM, forM_ok_iff]
    simp only [passes]
    by_cases wildcard : KeySet.everyField ∈ keys <;> simp [wildcard]
  · intro e
    rw [expr.check_eq_forM, forM_error_iff]
    constructor
    · rintro ⟨before, field, after, fields_eq, earlier, failed⟩
      have refused : ¬ (KeySet.everyField ∈ keys ∨ field ∈ keys) := by
        intro listed
        rw [passes.mpr listed] at failed
        cases failed
      obtain ⟨noWildcard, unlisted⟩ := not_or.mp refused
      rw [KeySet.checkField_unlisted noWildcard unlisted] at failed
      cases failed
      refine ⟨noWildcard, before, field, after, _, fields_eq, ?_, unlisted,
        NameMap.names_increasing _, fun name => NameSet.mem_names_ofNames, rfl⟩
      intro other member
      exact (passes.mp (earlier other member)).resolve_left noWildcard
    · rintro ⟨noWildcard, before, field, after, names, fields_eq, earlier, unlisted, increasing,
        sameNames, rfl⟩
      have names_eq : names = (NameSet.ofNames keys).names := by
        refine increasing.eq_of_mem_iff (NameMap.names_increasing _) fun name => ?_
        rw [sameNames, NameSet.mem_names_ofNames]
      refine ⟨before, field, after, fields_eq, ?_, ?_⟩
      · exact fun other member => passes.mpr (.inr (earlier other member))
      · rw [names_eq, KeySet.checkField_unlisted noWildcard unlisted]
  · intro others same
    rw [KeySet.ofList_congr same]

/-- The field inside of the call comes before the one behind it, and the order of the keys does not
matter for the suggestion. -/
theorem check_ofList_in_call :
    (∀ key, key ∈ ["name", "id", "name"] ↔ key ∈ ["id", "name"]) ∧
      (Expr.and (.comparison (.field "id") .equal (.call "sum" [.field "nmae", .field "Id"]))
        (.isNull "name" false)).check (.ofList ["name", "id", "name"]) =
          .error (.unknownKey "nmae" (some "name")) := by
  have same : ∀ key, key ∈ ["name", "id", "name"] ↔ key ∈ ["id", "name"] := by
    intro key
    simp only [List.mem_cons, List.not_mem_nil, or_false]
    tauto
  obtain ⟨-, rejects, congr⟩ := check_ofList
    (.and (.comparison (.field "id") .equal (.call "sum" [.field "nmae", .field "Id"]))
      (.isNull "name" false)) ["id", "name"]
  have close : suggestion "nmae" ["id", "name"] = some "name" := by decide +kernel
  refine ⟨same, (congr _ same).trans ((rejects _).mpr ⟨by decide, ?_⟩)⟩
  exact ⟨["id"], "nmae", ["Id", "name"], ["id", "name"], rfl, by simp, by decide, by decide,
    fun name => Iff.rfl, by rw [close]⟩

end QueryFilter
