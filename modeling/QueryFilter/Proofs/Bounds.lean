import QueryFilter.Proofs.Parsing
import QueryFilter.Proofs.Sql.Filled

/-!
# What the limits bound

The limits on depth and terms bound the height of an expression, and the limit on depth alone bounds
how deep its clause nests: `parse_bounds`. Chains of `and` and `or` lean to the left and are as high
as they are long, but their clause is one list of conditions.
-/

namespace QueryFilter

/-! ### The height of an expression -/

mutual

/-- The greatest number of operands on a path from the operand to a leaf. -/
def Operand.height : Operand → Nat
  | .field _ => 1
  | .literal _ => 1
  | .call _ args => Operand.heightOfArgs args + 1

def Operand.heightOfArgs : List Operand → Nat
  | [] => 0
  | arg :: args => max arg.height (Operand.heightOfArgs args)

end

/-- The greatest number of expressions and operands on a path from the expression to a leaf. -/
def Expr.height : Expr → Nat
  | .comparison left _ right => max left.height right.height + 1
  | .inList .. => 1
  | .isNull .. => 1
  | .and left right => max left.height right.height + 1
  | .or left right => max left.height right.height + 1
  | .group inner => inner.height + 1

theorem Operand.height_le (operand : Operand) : operand.height ≤ operand.nesting + 1 := by
  induction operand using Operand.induction with
  | field name => exact Nat.le_refl 1
  | literal value => exact Nat.le_refl 1
  | call name args ih =>
    have inner : heightOfArgs args ≤ argNesting args + 1 := by
      induction args with
      | nil => simp [heightOfArgs]
      | cons arg args ihArgs =>
        obtain ⟨first, others⟩ := List.forall_mem_cons.mp ih
        have rest := ihArgs others
        simp only [heightOfArgs, argNesting]
        omega
    simp only [height, nesting]
    omega

theorem Expr.predicates_pos (expr : Expr) : 0 < expr.predicates := by
  induction expr with
  | comparison | inList | isNull => exact Nat.one_pos
  | and left right ihLeft ihRight | or left right ihLeft ihRight => exact Nat.add_pos_left ihLeft _
  | group inner ih => exact ih

/-- Every group and call is a level, and so is every predicate of a chain but the first. -/
theorem Expr.height_le (expr : Expr) : expr.height ≤ expr.predicates + expr.nesting + 1 := by
  induction expr with
  | comparison left op right =>
    have first := left.height_le
    have second := right.height_le
    simp only [height, predicates, nesting]
    omega
  | inList field negated values => simp [height, predicates, nesting]
  | isNull field negated => simp [height, predicates, nesting]
  | and left right ihLeft ihRight | or left right ihLeft ihRight =>
    -- The level of the chain is paid for by a predicate of the side that is not the higher one.
    have positiveLeft := left.predicates_pos
    have positiveRight := right.predicates_pos
    simp only [height, predicates, nesting]
    omega
  | group inner ih =>
    simp only [height, predicates, nesting]
    omega

/-! ### The layers of a clause -/

mutual

/-- The greatest number of functions on a path from the scalar to a leaf. -/
def Scalar.layers : Scalar → Nat
  | .column .. => 0
  | .value _ => 0
  | .function _ args => Scalar.layersOfArgs args + 1

def Scalar.layersOfArgs : List Scalar → Nat
  | [] => 0
  | arg :: args => max arg.layers (Scalar.layersOfArgs args)

end

mutual

/-- The greatest number of nested clauses and functions on a path from the clause to a leaf. -/
def Clause.layers : Clause → Nat
  | .compare left _ right => max left.layers right.layers
  | .inList column _ _ => column.layers
  | .isNull column _ => column.layers
  | .nested conditions => Clause.layersOfConditions conditions + 1

def Clause.layersOfConditions : List (Connector × Clause) → Nat
  | [] => 0
  | (_, clause) :: rest => max clause.layers (Clause.layersOfConditions rest)

end

mutual

/-- The number of clauses that are not nested. -/
def Clause.predicates : Clause → Nat
  | .compare .. => 1
  | .inList .. => 1
  | .isNull .. => 1
  | .nested conditions => Clause.predicatesOfConditions conditions

def Clause.predicatesOfConditions : List (Connector × Clause) → Nat
  | [] => 0
  | (_, clause) :: rest => clause.predicates + Clause.predicatesOfConditions rest

end

theorem Clause.layersOfConditions_append (front back : List (Connector × Clause)) :
    layersOfConditions (front ++ back) =
      max (layersOfConditions front) (layersOfConditions back) := by
  induction front with
  | nil => simp [layersOfConditions]
  | cons condition front ih => simp only [List.cons_append, layersOfConditions, ih, Nat.max_assoc]

theorem Clause.predicatesOfConditions_append (front back : List (Connector × Clause)) :
    predicatesOfConditions (front ++ back) =
      predicatesOfConditions front + predicatesOfConditions back := by
  induction front with
  | nil => simp [predicatesOfConditions]
  | cons condition front ih =>
    simp only [List.cons_append, predicatesOfConditions, ih, Nat.add_assoc]

section

variable {table : String}

theorem toScalar_layers {operand : Operand} {scalar : Scalar}
    (compiled : operand.toScalar table = .ok scalar) : scalar.layers = operand.nesting := by
  induction operand using Operand.induction generalizing scalar with
  | field name =>
    cases compiled
    rfl
  | literal value =>
    cases compiled
    rfl
  | call name args ih =>
    obtain ⟨f, scalars, compiledArgs, rfl⟩ := toScalar_call_ok compiled
    have inner : Scalar.layersOfArgs scalars = Operand.argNesting args := by
      clear compiled
      induction compiledArgs with
      | nil => rfl
      | cons first _ ihArgs =>
        obtain ⟨same, others⟩ := List.forall_mem_cons.mp ih
        rw [Scalar.layersOfArgs, Operand.argNesting, same first, ihArgs others]
    rw [Scalar.layers, inner, Operand.nesting]

/-- A pattern that the query joins is a function around what it looks for. -/
theorem toPattern_layers {operand : Operand} {pattern : Pattern} {scalar : Scalar}
    (compiled : operand.toPattern table pattern = .ok scalar) :
    scalar.layers ≤ operand.nesting + 1 := by
  rcases toPattern_ok compiled with ⟨value, rfl, rfl⟩ | ⟨-, sought, compiledSought, rfl⟩
  · exact Nat.zero_le _
  · have same : sought.layers = operand.nesting := toScalar_layers compiledSought
    cases pattern <;> simp [Pattern.parts, Scalar.layers, Scalar.layersOfArgs, same]

theorem comparisonClause_layers {left right : Operand} {op : Comparison} {clause : Clause}
    (compiled : comparisonClause table left op right = .ok clause) :
    clause.layers ≤ max left.nesting right.nesting + 1 ∧ clause.predicates = 1 := by
  obtain ⟨first, second, compiledLeft, compiledRight, rfl⟩ := comparisonClause_ok compiled
  have layersLeft : first.layers = left.nesting := toScalar_layers compiledLeft
  have layersRight : second.layers ≤ right.nesting + 1 := by
    rcases toRightSide_ok compiledRight with ⟨-, plain⟩ | ⟨pattern, -, matching⟩
    · exact Nat.le_succ_of_le (Nat.le_of_eq (toScalar_layers plain))
    · exact toPattern_layers matching
  refine ⟨?_, rfl⟩
  rw [Clause.layers]
  omega

/-- The conditions of a chain have no more layers than the highest of its terms. -/
theorem conditions_layers {expr : Expr} {connector : Connector}
    {conditions : List (Connector × Clause)}
    (compiles : expr.Compiles table connector conditions) :
    Clause.layersOfConditions conditions ≤ expr.nesting + 1 ∧
      Clause.predicatesOfConditions conditions = expr.predicates := by
  induction compiles with
  | comparison _ compiled =>
    obtain ⟨layers, count⟩ := comparisonClause_layers compiled
    simp only [Clause.layersOfConditions, Clause.predicatesOfConditions, Expr.nesting,
      Expr.predicates]
    omega
  | inList | isNull => exact ⟨Nat.zero_le _, rfl⟩
  | and _ _ ihLeft ihRight | or _ _ ihLeft ihRight =>
    rw [Clause.layersOfConditions_append, Clause.predicatesOfConditions_append, Expr.nesting,
      Expr.predicates]
    omega
  | group _ _ ih =>
    simp only [Clause.layersOfConditions, Clause.predicatesOfConditions, Clause.layers,
      Clause.predicates, Expr.nesting, Expr.predicates]
    omega

theorem toClause_layers {expr : Expr} {clause : Clause}
    (compiled : expr.toClause table = .ok clause) :
    clause.layers ≤ expr.nesting + 2 ∧ clause.predicates = expr.predicates := by
  cases compilesTo_of_toClause compiled with
  | term _ compiles | chain _ compiles =>
    obtain ⟨layers, count⟩ := conditions_layers compiles
    simp only [Clause.layersOfConditions, Clause.predicatesOfConditions, Clause.layers,
      Clause.predicates] at layers count ⊢
    omega

end

/-! ### Accepted texts -/

/-- An expression within the limits is no higher than both together, and its clause nests no deeper
than the limit on depth, whatever the number of terms. The clause has the predicates of the
expression, every list in it has an item, every nested clause starts with `and`, and in no query
do two parentheses enclose nothing because of it. -/
theorem parse_bounds {limits : Limits} {text : String} {expr : Expr}
    (parsed : parse limits text = .ok expr) :
    expr.height ≤ limits.terms + limits.depth + 1 ∧
      ∀ {table : String} {clause : Clause}, expr.toClause table = .ok clause →
        clause.layers ≤ limits.depth + 2 ∧ clause.predicates = expr.predicates ∧
        clause.predicates ≤ limits.terms ∧ clause.Filled ∧
        ∀ query : Query, (∀ other ∈ query.clauses, other.Filled) →
          ¬ [.char '(', .char ')'] <:+: scan query.dialect.mark (query.push clause).sql.toList := by
  obtain ⟨lexemes, -, accepted⟩ := bind_ok parsed
  obtain ⟨-, shape, depth, terms⟩ := spells_of_parseLexemes accepted
  have height := expr.height_le
  refine ⟨by omega, ?_⟩
  intro table clause compiled
  obtain ⟨layers, count⟩ := toClause_layers compiled
  have filled : clause.Filled := toClause_filled shape compiled
  refine ⟨by omega, count, by omega, filled, ?_⟩
  intro query others
  have all : ∀ other ∈ (query.push clause).clauses, other.Filled :=
    List.forall_mem_append.mpr ⟨others, List.forall_mem_singleton.mpr filled⟩
  exact filled_query all

/-- A chain with a pattern in a group reaches both bounds. -/
theorem parse_bounds_reached : ∃ expr clause,
    parse ⟨1, 2⟩ "a is null or (b ct c)" = .ok expr ∧ expr.toClause "t" = .ok clause ∧
      expr.height = 2 + 1 + 1 ∧ clause.layers = 1 + 2 ∧ clause.predicates = 2 ∧ clause.Filled ∧
      ¬ [.char '(', .char ')'] <:+: scan '"' (⟨"t", .postgres, [clause]⟩ : Query).sql.toList := by
  have tokenized : tokenize "a is null or (b ct c)" = .ok [⟨.name "a", "a", 0⟩, ⟨.is, "is", 2⟩,
      ⟨.null, "null", 5⟩, ⟨.or, "or", 10⟩, ⟨.openParen, "(", 13⟩, ⟨.name "b", "b", 14⟩,
      ⟨.comparison .contains, "ct", 16⟩, ⟨.name "c", "c", 19⟩, ⟨.closeParen, ")", 20⟩] := by
    decide +kernel
  have parsed : parse ⟨1, 2⟩ "a is null or (b ct c)" = .ok (.or (.isNull "a" false)
      (.group (.comparison (.field "b") .contains (.field "c")))) := by
    rw [parse, tokenized]
    rfl
  have compiled : (Expr.or (.isNull "a" false)
      (.group (.comparison (.field "b") .contains (.field "c")))).toClause "t" = .ok (.nested [
        (.and, .isNull (.column "t" "a") false),
        (.or, .nested [(.and, .compare (.column "t" "b") .like (.function "CONCAT"
          [.value (.string "%"), .column "t" "c", .value (.string "%")]))])]) := rfl
  obtain ⟨-, bounds⟩ := parse_bounds parsed
  obtain ⟨-, count, -, filled, text⟩ := bounds compiled
  exact ⟨_, _, parsed, compiled, rfl, rfl, count, filled, text ⟨"t", .postgres, []⟩ (by simp)⟩

end QueryFilter
