import QueryFilter.Clause.Json
import QueryFilter.Proofs.Json.Unambiguous
import QueryFilter.Proofs.Sql.Unambiguous

/-!
# Clauses are read back from their JSON form

Two clauses with finite floats have the same text only if they are the same: `jsonText_eq_iff`. Every
scalar and every clause names its constructor, and the values under it are told apart by their texts.
-/

namespace QueryFilter

/-- Lists that are written alike have the same items if each item is written in its own way. -/
theorem eq_of_map_eq {α β : Type} {f : α → β} {items others : List α}
    (each : ∀ item ∈ items, ∀ other ∈ others, f item = f other → item = other)
    (same : items.map f = others.map f) : items = others := by
  induction items generalizing others with
  | nil => exact (List.map_eq_nil_iff.mp same.symm).symm
  | cons item items ih =>
    obtain ⟨other, rest, rfl, first, tail⟩ := List.map_eq_cons_iff.mp same.symm
    have sameItem := each item List.mem_cons_self other List.mem_cons_self first.symm
    have sameItems := ih (fun item member other otherMember => each item
      (List.mem_cons_of_mem _ member) other (List.mem_cons_of_mem _ otherMember)) tail.symm
    rw [sameItem, sameItems]

/-! ### The form tells the value -/

theorem literal_toJson_injective {value other : Literal} (finite : value.Finite)
    (otherFinite : other.Finite) (same : value.toJson = other.toJson) : value = other := by
  have read := literal_toJson finite
  rw [same, literal_toJson otherFinite] at read
  exact (Option.some.inj read).symm

theorem Scalar.listToJson_eq_map (scalars : List Scalar) :
    listToJson scalars = scalars.map toJson := by
  induction scalars with
  | nil => rfl
  | cons scalar scalars ih => rw [listToJson, ih, List.map_cons]

def conditionJson (condition : Connector × Clause) : Json :=
  .object [("boolean", .string condition.1.jsonName), ("clause", condition.2.toJson)]

theorem Clause.conditionsToJson_eq_map (conditions : List (Connector × Clause)) :
    conditionsToJson conditions = conditions.map conditionJson := by
  induction conditions with
  | nil => rfl
  | cons condition conditions ih =>
    rw [conditionsToJson, ih, List.map_cons]
    rfl

theorem scalar_toJson_injective {scalar other : Scalar}
    (finite : ∀ value ∈ scalar.values, value.Finite)
    (otherFinite : ∀ value ∈ other.values, value.Finite) (same : scalar.toJson = other.toJson) :
    scalar = other := by
  induction scalar using Scalar.induction generalizing other with
  | column table name =>
    cases other <;> simp_all [Scalar.toJson, Json.tagged]
  | value literal =>
    cases other with
    | value otherLiteral =>
      have sameValue : literal.toJson = otherLiteral.toJson := by
        simpa [Scalar.toJson, Json.tagged] using same
      exact congrArg Scalar.value (literal_toJson_injective (finite literal List.mem_cons_self)
        (otherFinite otherLiteral List.mem_cons_self) sameValue)
    | _ => simp [Scalar.toJson, Json.tagged] at same
  | function name args ih =>
    cases other with
    | function otherName others =>
      simp only [Scalar.toJson, Json.tagged, Scalar.listToJson_eq_map] at same
      rw [Scalar.values_function] at finite otherFinite
      have inside {args : List Scalar} (finite : ∀ value ∈ args.flatMap Scalar.values, value.Finite)
          (arg : Scalar) (member : arg ∈ args) : ∀ value ∈ arg.values, value.Finite :=
        fun value valueMember => finite value (List.mem_flatMap.mpr ⟨arg, member, valueMember⟩)
      have sameParts : name = otherName ∧ args.map Scalar.toJson = others.map Scalar.toJson := by
        simpa using same
      have sameArgs : args = others := eq_of_map_eq (fun arg member other otherMember sameArg =>
        ih arg member (inside finite arg member) (inside otherFinite other otherMember) sameArg)
        sameParts.2
      rw [sameParts.1, sameArgs]
    | _ => simp [Scalar.toJson, Json.tagged] at same

theorem relation_jsonName_injective {relation other : Relation}
    (same : relation.jsonName = other.jsonName) : relation = other := by
  revert same
  cases relation <;> cases other <;> decide

theorem connector_jsonName_injective {connector other : Connector}
    (same : connector.jsonName = other.jsonName) : connector = other := by
  revert same
  cases connector <;> cases other <;> decide

theorem clause_toJson_injective {clause other : Clause}
    (finite : ∀ value ∈ clause.values, value.Finite)
    (otherFinite : ∀ value ∈ other.values, value.Finite) (same : clause.toJson = other.toJson) :
    clause = other := by
  induction clause using Clause.induction generalizing other with
  | compare left relation right =>
    cases other with
    | compare otherLeft otherRelation otherRight =>
      obtain ⟨finiteLeft, finiteRight⟩ := List.forall_mem_append.mp finite
      obtain ⟨otherFiniteLeft, otherFiniteRight⟩ := List.forall_mem_append.mp otherFinite
      have sameParts : left.toJson = otherLeft.toJson ∧
          relation.jsonName = otherRelation.jsonName ∧ right.toJson = otherRight.toJson := by
        simpa [Clause.toJson, Json.tagged] using same
      rw [scalar_toJson_injective finiteLeft otherFiniteLeft sameParts.1,
        relation_jsonName_injective sameParts.2.1,
        scalar_toJson_injective finiteRight otherFiniteRight sameParts.2.2]
    | _ => simp [Clause.toJson, Json.tagged] at same
  | inList column values negated =>
    cases other with
    | inList otherColumn others otherNegated =>
      obtain ⟨finiteColumn, finiteValues⟩ := List.forall_mem_append.mp finite
      obtain ⟨otherFiniteColumn, otherFiniteValues⟩ := List.forall_mem_append.mp otherFinite
      simp only [Clause.toJson, Json.tagged, Json.object.injEq, List.cons.injEq, Prod.mk.injEq,
        Json.array.injEq, Json.bool.injEq, true_and, and_true] at same
      obtain ⟨sameColumn, sameValues, sameNegated⟩ := same
      have sameList : values = others := eq_of_map_eq (fun value member other otherMember =>
        literal_toJson_injective (finiteValues value member) (otherFiniteValues other otherMember))
        sameValues
      rw [scalar_toJson_injective finiteColumn otherFiniteColumn sameColumn, sameList, sameNegated]
    | _ => simp [Clause.toJson, Json.tagged] at same
  | isNull column negated =>
    cases other with
    | isNull otherColumn otherNegated =>
      have sameParts : column.toJson = otherColumn.toJson ∧ negated = otherNegated := by
        simpa [Clause.toJson, Json.tagged] using same
      rw [scalar_toJson_injective finite otherFinite sameParts.1, sameParts.2]
    | _ => simp [Clause.toJson, Json.tagged] at same
  | nested conditions ih =>
    cases other with
    | nested others =>
      have sameConditions : conditions.map conditionJson = others.map conditionJson := by
        simpa [Clause.toJson, Json.tagged, Clause.conditionsToJson_eq_map] using same
      rw [Clause.values_nested] at finite otherFinite
      refine congrArg Clause.nested (eq_of_map_eq ?_ sameConditions)
      intro condition member other otherMember sameCondition
      have sameParts : condition.1.jsonName = other.1.jsonName ∧
          condition.2.toJson = other.2.toJson := by
        simpa [conditionJson] using sameCondition
      have sameClause : condition.2 = other.2 := ih condition member
        (fun value inside => finite value (List.mem_flatMap.mpr ⟨condition, member, inside⟩))
        (fun value inside => otherFinite value (List.mem_flatMap.mpr ⟨other, otherMember, inside⟩))
        sameParts.2
      exact Prod.ext (connector_jsonName_injective sameParts.1) sameClause
    | _ => simp [Clause.toJson, Json.tagged] at same

/-! ### The form has finite floats -/

theorem literal_toJson_finite (value : Literal) : value.toJson.Finite := by
  cases value with
  | integer n => exact .integer _
  | string s => exact .string s
  | float x =>
    rw [Literal.toJson]
    split
    · rename_i finite
      exact .float finite
    · exact .null

theorem tagged_finite (type : String) {fields : List (String × Json)}
    (each : ∀ field ∈ fields, field.2.Finite) : (Json.tagged type fields).Finite :=
  .object (List.forall_mem_cons.mpr ⟨.string type, each⟩)

theorem array_map_finite {α : Type} {write : α → Json} {items : List α}
    (each : ∀ item ∈ items, (write item).Finite) : (Json.array (items.map write)).Finite := by
  refine .array fun json member => ?_
  obtain ⟨item, itemMember, rfl⟩ := List.mem_map.mp member
  exact each item itemMember

theorem scalar_toJson_finite (scalar : Scalar) : scalar.toJson.Finite := by
  induction scalar using Scalar.induction with
  | column table name => exact tagged_finite _ (by simp [Json.Finite.string])
  | value literal => exact tagged_finite _ (by simp [literal_toJson_finite])
  | function name args ih =>
    have each : (Json.array (args.map Scalar.toJson)).Finite := array_map_finite ih
    rw [Scalar.toJson, Scalar.listToJson_eq_map]
    exact tagged_finite _ (by simp [Json.Finite.string, each])

theorem clause_toJson_finite (clause : Clause) : clause.toJson.Finite := by
  induction clause using Clause.induction with
  | compare left relation right =>
    exact tagged_finite _ (by simp [Json.Finite.string, scalar_toJson_finite])
  | inList column values negated =>
    have each : (Json.array (values.map Literal.toJson)).Finite :=
      array_map_finite fun value _ => literal_toJson_finite value
    exact tagged_finite _ (by simp [Json.Finite.bool, scalar_toJson_finite, each])
  | isNull column negated =>
    exact tagged_finite _ (by simp [Json.Finite.bool, scalar_toJson_finite])
  | nested conditions ih =>
    have each : (Json.array (conditions.map conditionJson)).Finite :=
      array_map_finite fun condition member =>
        .object (by simp [Json.Finite.string, ih condition member])
    rw [Clause.toJson, Clause.conditionsToJson_eq_map]
    exact tagged_finite _ (by simp [each])

/-! ### Texts -/

/-- Clauses whose floats are finite have the same text only if they are the same clause. -/
theorem jsonText_eq_iff {clause other : Clause} (finite : ∀ value ∈ clause.values, value.Finite)
    (otherFinite : ∀ value ∈ other.values, value.Finite) :
    clause.toJson.text = other.toJson.text ↔ clause = other := by
  constructor
  · intro same
    have sameForm := Json.text_injective (clause_toJson_finite clause) (clause_toJson_finite other) same
    exact clause_toJson_injective finite otherFinite sameForm
  · intro same
    rw [same]

/-- An integer, a float and a string of the same look, beside a string that looks like the rest of
the list. -/
theorem jsonText_eq_iff_alike :
    let clause (value : Literal) : Clause :=
      .nested [(.or, .inList (.column "t" "\"") [value, .string "1],\"negated\":"] true)]
    let integer := clause (.integer 1)
    let float := clause (.float ⟨0x3FF0000000000000⟩)
    let string := clause (.string "1.0")
    (∀ value ∈ integer.values, value.Finite) ∧ (∀ value ∈ float.values, value.Finite) ∧
      (∀ value ∈ string.values, value.Finite) ∧
      integer.toJson.text ≠ float.toJson.text ∧ float.toJson.text ≠ string.toJson.text := by
  intro clause integer float string
  have all {first : Literal} (finite : first.Finite) :
      ∀ value ∈ (clause first).values, value.Finite :=
    List.forall_mem_cons.mpr ⟨finite, List.forall_mem_singleton.mpr trivial⟩
  have finiteInteger : ∀ value ∈ integer.values, value.Finite := all trivial
  have finiteOne : (⟨0x3FF0000000000000⟩ : Binary64).isFinite = true := by decide +kernel
  have finiteFloat : ∀ value ∈ float.values, value.Finite := all finiteOne
  have finiteString : ∀ value ∈ string.values, value.Finite := all trivial
  refine ⟨finiteInteger, finiteFloat, finiteString, ?_, ?_⟩
  · intro same
    have sameClause := (jsonText_eq_iff finiteInteger finiteFloat).mp same
    simp [integer, float, clause] at sameClause
  · intro same
    have sameClause := (jsonText_eq_iff finiteFloat finiteString).mp same
    simp [float, string, clause] at sameClause

end QueryFilter
