import QueryFilter.Proofs.Compilation
import QueryFilter.Proofs.Grammar

/-!
# Walks over clauses

The columns and the values of a clause from left to right. In the clause of an expression the
columns are the fields of the expression: `toClause_columns`.
-/

namespace QueryFilter

/-! ### Walks -/

@[elab_as_elim]
theorem Scalar.induction {motive : Scalar → Prop}
    (column : ∀ table name, motive (.column table name)) (value : ∀ value, motive (.value value))
    (function : ∀ name args, (∀ arg ∈ args, motive arg) → motive (.function name args)) :
    ∀ scalar, motive scalar := by
  intro scalar
  refine @Scalar.rec motive (fun args => ∀ arg ∈ args, motive arg) column value function ?_ ?_ scalar
  · simp
  · intro arg args first rest other member
    rcases List.mem_cons.mp member with rfl | member
    · exact first
    · exact rest other member

@[elab_as_elim]
theorem Clause.induction {motive : Clause → Prop}
    (compare : ∀ left relation right, motive (.compare left relation right))
    (inList : ∀ column values negated, motive (.inList column values negated))
    (isNull : ∀ column negated, motive (.isNull column negated))
    (nested : ∀ conditions, (∀ condition ∈ conditions, motive condition.2) →
      motive (.nested conditions)) :
    ∀ clause, motive clause := by
  intro clause
  refine @Clause.rec motive (fun conditions => ∀ condition ∈ conditions, motive condition.2)
    (fun condition => motive condition.2) compare inList isNull nested ?_ ?_ ?_ clause
  · simp
  · intro condition conditions first rest other member
    rcases List.mem_cons.mp member with rfl | member
    · exact first
    · exact rest other member
  · intro connector clause holds
    exact holds

mutual

def Scalar.columns : Scalar → List (String × String)
  | .column table name => [(table, name)]
  | .value _ => []
  | .function _ args => Scalar.columnsOfArgs args

def Scalar.columnsOfArgs : List Scalar → List (String × String)
  | [] => []
  | arg :: args => arg.columns ++ Scalar.columnsOfArgs args

end

mutual

def Scalar.values : Scalar → List Literal
  | .column .. => []
  | .value literal => [literal]
  | .function _ args => Scalar.valuesOfArgs args

def Scalar.valuesOfArgs : List Scalar → List Literal
  | [] => []
  | arg :: args => arg.values ++ Scalar.valuesOfArgs args

end

mutual

def Clause.columns : Clause → List (String × String)
  | .compare left _ right => left.columns ++ right.columns
  | .inList column _ _ => column.columns
  | .isNull column _ => column.columns
  | .nested conditions => Clause.columnsOfConditions conditions

def Clause.columnsOfConditions : List (Connector × Clause) → List (String × String)
  | [] => []
  | (_, clause) :: rest => clause.columns ++ Clause.columnsOfConditions rest

end

mutual

def Clause.values : Clause → List Literal
  | .compare left _ right => left.values ++ right.values
  | .inList column values _ => column.values ++ values
  | .isNull column _ => column.values
  | .nested conditions => Clause.valuesOfConditions conditions

def Clause.valuesOfConditions : List (Connector × Clause) → List Literal
  | [] => []
  | (_, clause) :: rest => clause.values ++ Clause.valuesOfConditions rest

end

theorem Operand.fields_call (name : String) (args : List Operand) :
    (Operand.call name args).fields = args.flatMap fields := by
  rw [fields]
  induction args with
  | nil => rfl
  | cons arg args ih => rw [fieldsOfArgs, ih, List.flatMap_cons]

theorem Scalar.columns_function (name : String) (args : List Scalar) :
    (Scalar.function name args).columns = args.flatMap columns := by
  rw [columns]
  induction args with
  | nil => rfl
  | cons arg args ih => rw [columnsOfArgs, ih, List.flatMap_cons]

theorem Scalar.values_function (name : String) (args : List Scalar) :
    (Scalar.function name args).values = args.flatMap values := by
  rw [values]
  induction args with
  | nil => rfl
  | cons arg args ih => rw [valuesOfArgs, ih, List.flatMap_cons]

theorem Clause.columns_nested (conditions : List (Connector × Clause)) :
    (Clause.nested conditions).columns = conditions.flatMap (·.2.columns) := by
  rw [columns]
  induction conditions with
  | nil => rfl
  | cons condition rest ih => rw [columnsOfConditions, ih, List.flatMap_cons]

theorem Clause.values_nested (conditions : List (Connector × Clause)) :
    (Clause.nested conditions).values = conditions.flatMap (·.2.values) := by
  rw [values]
  induction conditions with
  | nil => rfl
  | cons condition rest ih => rw [valuesOfConditions, ih, List.flatMap_cons]

/-! ### Columns of a compiled expression -/

variable {table : String}

theorem flatMap_of_forall₂ {α β γ : Type} {related : α → β → Prop} {f : α → List γ}
    {g : β → List γ} {as : List α} {bs : List β} (h : List.Forall₂ related as bs)
    (agree : ∀ a ∈ as, ∀ b, related a b → g b = f a) : bs.flatMap g = as.flatMap f := by
  induction h with
  | nil => rfl
  | cons first _ ih =>
    rw [List.flatMap_cons, List.flatMap_cons, agree _ List.mem_cons_self _ first,
      ih fun a member => agree a (List.mem_cons_of_mem _ member)]

theorem toScalar_columns {operand : Operand} {scalar : Scalar}
    (compiled : operand.toScalar table = .ok scalar) :
    scalar.columns = operand.fields.map (table, ·) := by
  induction operand using Operand.induction generalizing scalar with
  | field name =>
    cases compiled
    rfl
  | literal value =>
    cases compiled
    rfl
  | call name args ih =>
    obtain ⟨f, scalars, compiledArgs, rfl⟩ := toScalar_call_ok compiled
    rw [Scalar.columns_function, Operand.fields_call, List.map_flatMap]
    exact flatMap_of_forall₂ compiledArgs fun arg member scalar h => ih arg member h

theorem toPattern_columns {operand : Operand} {pattern : Pattern} {scalar : Scalar}
    (compiled : operand.toPattern table pattern = .ok scalar) :
    scalar.columns = operand.fields.map (table, ·) := by
  rcases toPattern_ok compiled with ⟨value, rfl, rfl⟩ | ⟨-, sought, compiledSought, rfl⟩
  · rfl
  · rw [← toScalar_columns compiledSought, Scalar.columns_function]
    cases pattern <;> simp [Pattern.parts, Scalar.columns]

theorem toRightSide_columns {operand : Operand} {op : Comparison} {scalar : Scalar}
    (compiled : operand.toRightSide table op = .ok scalar) :
    scalar.columns = operand.fields.map (table, ·) := by
  rcases toRightSide_ok compiled with ⟨-, plain⟩ | ⟨pattern, -, matching⟩
  · exact toScalar_columns plain
  · exact toPattern_columns matching

theorem comparisonClause_columns {left right : Operand} {op : Comparison} {clause : Clause}
    (compiled : comparisonClause table left op right = .ok clause) :
    clause.columns = (left.fields ++ right.fields).map (table, ·) := by
  obtain ⟨first, second, compiledLeft, compiledRight, rfl⟩ := comparisonClause_ok compiled
  rw [Clause.columns, toScalar_columns compiledLeft, toRightSide_columns compiledRight,
    List.map_append]

/-! ### Whole expressions -/

/-- What a walk over a clause and one over an expression share: each goes through the parts in order,
and they agree on predicates. -/
structure WalksAgree {α : Type} (table : String) (target : Clause → List α)
    (source : Expr → List α) : Prop where
  nested : ∀ conditions, target (.nested conditions) = conditions.flatMap (target ·.2)
  and : ∀ left right, source (.and left right) = source left ++ source right
  or : ∀ left right, source (.or left right) = source left ++ source right
  group : ∀ inner, source (.group inner) = source inner
  comparison : ∀ {left op right clause}, comparisonClause table left op right = .ok clause →
    target clause = source (.comparison left op right)
  inList : ∀ field negated values,
    target (.inList (.column table field) values negated) = source (.inList field negated values)
  isNull : ∀ field negated,
    target (.isNull (.column table field) negated) = source (.isNull field negated)

namespace WalksAgree

variable {α : Type} {target : Clause → List α} {source : Expr → List α}

theorem conditions (agree : WalksAgree table target source) {expr : Expr} {connector : Connector}
    {conditions : List (Connector × Clause)}
    (compiles : expr.Compiles table connector conditions) :
    target (.nested conditions) = source expr := by
  induction compiles with
  | comparison _ compiled => rw [agree.nested, List.flatMap_singleton, agree.comparison compiled]
  | inList => rw [agree.nested, List.flatMap_singleton, agree.inList]
  | isNull => rw [agree.nested, List.flatMap_singleton, agree.isNull]
  | and _ _ ihLeft ihRight =>
    rw [agree.nested, List.flatMap_append, ← agree.nested, ← agree.nested, ihLeft, ihRight,
      agree.and]
  | or _ _ ihLeft ihRight =>
    rw [agree.nested, List.flatMap_append, ← agree.nested, ← agree.nested, ihLeft, ihRight,
      agree.or]
  | group _ _ ih => rw [agree.nested, List.flatMap_singleton, ih, agree.group]

theorem toClause (agree : WalksAgree table target source) {expr : Expr} {clause : Clause}
    (compiled : expr.toClause table = .ok clause) : target clause = source expr := by
  cases compilesTo_of_toClause compiled with
  | term _ alone =>
    have same := agree.conditions alone
    rwa [agree.nested, List.flatMap_singleton] at same
  | chain _ compiles => exact agree.conditions compiles

end WalksAgree

/-- The columns of a clause are the fields of its expression, in source order. -/
theorem toClause_columns {expr : Expr} {clause : Clause}
    (compiled : expr.toClause table = .ok clause) :
    clause.columns = expr.fields.map (table, ·) := by
  have agree : WalksAgree table Clause.columns fun expr => expr.fields.map (table, ·) := {
    nested := Clause.columns_nested
    and := fun _ _ => List.map_append
    or := fun _ _ => List.map_append
    group := fun _ => rfl
    comparison := comparisonClause_columns
    inList := fun _ _ _ => rfl
    isNull := fun _ _ => rfl }
  exact agree.toClause compiled

end QueryFilter
