import Mathlib.Data.List.Forall2
import QueryFilter.Filter
import QueryFilter.Proofs.Grammar
import QueryFilter.Proofs.Outcome

/-!
# Accepted expressions

What each stage between an expression and its clause did if the whole of it succeeded. For whole
expressions that is a relation, `Expr.Compiles`, with a case for each form, and what holds of every
clause is proved by induction on it.
-/

namespace QueryFilter

variable {table : String}

theorem toScalars_ok {args : List Operand} {scalars : List Scalar}
    (h : Operand.toScalars table args = .ok scalars) :
    List.Forall₂ (fun arg scalar => arg.toScalar table = .ok scalar) args scalars := by
  induction args generalizing scalars with
  | nil =>
    cases h
    exact .nil
  | cons arg args ih =>
    obtain ⟨first, compiled, h⟩ := bind_ok h
    obtain ⟨rest, compiledRest, h⟩ := bind_ok h
    cases h
    exact .cons compiled (ih compiledRest)

theorem exists_of_mem_right {α β : Type} {related : α → β → Prop} {as : List α} {bs : List β}
    (h : List.Forall₂ related as bs) {b : β} (member : b ∈ bs) : ∃ a ∈ as, related a b := by
  induction h with
  | nil => cases member
  | cons first _ ih =>
    rcases List.mem_cons.mp member with rfl | member
    · exact ⟨_, List.mem_cons_self, first⟩
    · obtain ⟨a, present, found⟩ := ih member
      exact ⟨a, List.mem_cons_of_mem _ present, found⟩

theorem apply_ok {f : Builtin} {args : List Scalar} {scalar : Scalar}
    (h : f.apply args = .ok scalar) : args.length = f.arity ∧ scalar = .function f.queryName args := by
  unfold Builtin.apply at h
  split at h
  · rename_i fits
    cases h
    exact ⟨by simpa [Builtin.takes] using fits, rfl⟩
  · cases h

theorem ofCall_ok {name : String} {args : List Scalar} {scalar : Scalar}
    (h : Scalar.ofCall name args = .ok scalar) :
    ∃ f, Builtin.named? name = some f ∧ args.length = f.arity ∧
      scalar = .function f.queryName args := by
  unfold Scalar.ofCall at h
  split at h
  · rename_i f found
    exact ⟨f, found, apply_ok h⟩
  · cases h

theorem toScalar_call_ok {name : String} {args : List Operand} {scalar : Scalar}
    (h : (Operand.call name args).toScalar table = .ok scalar) :
    ∃ f scalars, List.Forall₂ (fun arg scalar => arg.toScalar table = .ok scalar) args scalars ∧
      scalar = .function (Builtin.queryName f) scalars := by
  obtain ⟨scalars, compiled, h⟩ := bind_ok h
  obtain ⟨f, -, -, same⟩ := ofCall_ok h
  exact ⟨f, scalars, toScalars_ok compiled, same⟩

theorem toPattern_ok {operand : Operand} {pattern : Pattern} {scalar : Scalar}
    (h : operand.toPattern table pattern = .ok scalar) :
    (∃ value, operand = .literal value ∧ scalar = .value (.string (pattern.text value.text))) ∨
      (∀ value, operand ≠ .literal value) ∧ ∃ sought, operand.toScalar table = .ok sought ∧
        scalar = .function Builtin.concat.queryName (pattern.parts sought) := by
  unfold Operand.toPattern at h
  split at h
  · rename_i value
    cases h
    exact .inl ⟨value, rfl, rfl⟩
  · rename_i computed
    obtain ⟨sought, compiled, h⟩ := bind_ok h
    cases h
    exact .inr ⟨computed, sought, compiled, rfl⟩

/-- The right side of a comparison: a pattern for the operators that look for a text. -/
def Operand.toRightSide (table : String) (op : Comparison) (operand : Operand) :
    Except FilterError Scalar :=
  match op.relation.2 with
  | none => operand.toScalar table
  | some pattern => operand.toPattern table pattern

theorem toRightSide_ok {operand : Operand} {op : Comparison} {scalar : Scalar}
    (h : operand.toRightSide table op = .ok scalar) :
    (op.relation.2 = none ∧ operand.toScalar table = .ok scalar) ∨
      ∃ pattern, op.relation.2 = some pattern ∧ operand.toPattern table pattern = .ok scalar := by
  unfold Operand.toRightSide at h
  split at h
  · rename_i plain
    exact .inl ⟨plain, h⟩
  · rename_i pattern isPattern
    exact .inr ⟨pattern, isPattern, h⟩

theorem comparisonClause_eq (left : Operand) (op : Comparison) (right : Operand) :
    comparisonClause table left op right = (do
      let first ← left.toScalar table
      let second ← right.toRightSide table op
      .ok (.compare first op.relation.1 second)) := by
  unfold comparisonClause Operand.toRightSide
  cases op.relation.2 <;> rfl

theorem comparisonClause_ok {left right : Operand} {op : Comparison} {clause : Clause}
    (h : comparisonClause table left op right = .ok clause) :
    ∃ first second, left.toScalar table = .ok first ∧ right.toRightSide table op = .ok second ∧
      clause = .compare first op.relation.1 second := by
  rw [comparisonClause_eq] at h
  obtain ⟨first, compiledLeft, h⟩ := bind_ok h
  obtain ⟨second, compiledRight, h⟩ := bind_ok h
  cases h
  exact ⟨first, second, compiledLeft, compiledRight, rfl⟩

/-! ### Scalars of operands -/

/-- What holds of columns and values and is kept when a function is applied to something. -/
structure Scalar.Closed (table : String) (holds : Scalar → Prop) : Prop where
  column : ∀ name, holds (.column table name)
  value : ∀ literal, holds (.value literal)
  function : ∀ (f : Builtin) {args : List Scalar}, args ≠ [] → (∀ arg ∈ args, holds arg) →
    holds (.function f.queryName args)

namespace Scalar.Closed

variable {holds : Scalar → Prop} {operand : Operand} {scalar : Scalar}

theorem toScalar (closed : Closed table holds) (compiled : operand.toScalar table = .ok scalar) :
    holds scalar := by
  induction operand using Operand.induction generalizing scalar with
  | field name =>
    cases compiled
    exact closed.column name
  | literal value =>
    cases compiled
    exact closed.value value
  | call name args ih =>
    obtain ⟨scalars, compiledArgs, applied⟩ := bind_ok compiled
    obtain ⟨f, -, count, rfl⟩ := ofCall_ok applied
    have positive : 0 < f.arity := by cases f <;> decide
    refine closed.function f (List.ne_nil_of_length_pos (by omega)) ?_
    intro scalar member
    obtain ⟨arg, present, compiledArg⟩ := exists_of_mem_right (toScalars_ok compiledArgs) member
    exact ih arg present compiledArg

theorem toRightSide (closed : Closed table holds) {op : Comparison}
    (compiled : operand.toRightSide table op = .ok scalar) : holds scalar := by
  rcases toRightSide_ok compiled with ⟨-, plain⟩ | ⟨pattern, -, matching⟩
  · exact closed.toScalar plain
  · rcases toPattern_ok matching with ⟨value, rfl, rfl⟩ | ⟨-, sought, compiledSought, rfl⟩
    · exact closed.value _
    · have any : holds (.value (.string Pattern.any)) := closed.value _
      have holdsSought : holds sought := closed.toScalar compiledSought
      refine closed.function .concat ?_ ?_
      · cases pattern <;> simp [Pattern.parts]
      · cases pattern <;> simp [Pattern.parts, any, holdsSought]

end Scalar.Closed

/-! ### Whole expressions -/

/-- The expression compiles to the conditions, the first of which is joined by the connector. -/
inductive Expr.Compiles (table : String) :
    Connector → Expr → List (Connector × Clause) → Prop where
  | comparison (connector : Connector) {left right : Operand} {op : Comparison} {clause : Clause}
    (compiled : comparisonClause table left op right = .ok clause) :
    Compiles table connector (.comparison left op right) [(connector, clause)]
  | inList (connector : Connector) (field : String) (negated : Bool) (values : List Literal) :
    Compiles table connector (.inList field negated values)
      [(connector, .inList (.column table field) values negated)]
  | isNull (connector : Connector) (field : String) (negated : Bool) :
    Compiles table connector (.isNull field negated)
      [(connector, .isNull (.column table field) negated)]
  | and {connector : Connector} {left right : Expr} {front back : List (Connector × Clause)}
    (first : Compiles table connector left front) (second : Compiles table .and right back) :
    Compiles table connector (.and left right) (front ++ back)
  | or {connector : Connector} {left right : Expr} {front back : List (Connector × Clause)}
    (first : Compiles table connector left front) (second : Compiles table .or right back) :
    Compiles table connector (.or left right) (front ++ back)
  | group (connector : Connector) {inner : Expr} {conditions : List (Connector × Clause)}
    (inside : Compiles table .and inner conditions) :
    Compiles table connector (.group inner) [(connector, .nested conditions)]

section

variable {expr : Expr} {connector : Connector} {conditions : List (Connector × Clause)}

theorem compiles_of_toConditions (compiled : expr.toConditions table connector = .ok conditions) :
    expr.Compiles table connector conditions := by
  induction expr generalizing connector conditions with
  | comparison left op right =>
    obtain ⟨clause, clauseEq, same⟩ := bind_ok compiled
    cases same
    exact .comparison connector clauseEq
  | inList field negated values =>
    cases compiled
    exact .inList connector field negated values
  | isNull field negated =>
    cases compiled
    exact .isNull connector field negated
  | and left right ihLeft ihRight =>
    obtain ⟨front, compiledLeft, compiled⟩ := bind_ok compiled
    obtain ⟨back, compiledRight, same⟩ := bind_ok compiled
    cases same
    exact .and (ihLeft compiledLeft) (ihRight compiledRight)
  | or left right ihLeft ihRight =>
    obtain ⟨front, compiledLeft, compiled⟩ := bind_ok compiled
    obtain ⟨back, compiledRight, same⟩ := bind_ok compiled
    cases same
    exact .or (ihLeft compiledLeft) (ihRight compiledRight)
  | group inner ih =>
    obtain ⟨nested, compiledInner, same⟩ := bind_ok compiled
    cases same
    exact .group connector (ih compiledInner)

theorem Expr.Compiles.toConditions_eq (compiles : expr.Compiles table connector conditions) :
    expr.toConditions table connector = .ok conditions := by
  induction compiles with
  | comparison connector compiled =>
    rw [toConditions, compiled]
    rfl
  | inList | isNull => rfl
  | and _ _ ihLeft ihRight | or _ _ ihLeft ihRight =>
    rw [toConditions, ihLeft, ihRight]
    rfl
  | group connector _ ih =>
    rw [toConditions, ih]
    rfl

theorem toConditions_iff :
    expr.toConditions table connector = .ok conditions ↔ expr.Compiles table connector conditions :=
  ⟨compiles_of_toConditions, Expr.Compiles.toConditions_eq⟩

/-- The connector of the first condition decides nothing else. -/
theorem Expr.Compiles.behind (compiles : expr.Compiles table connector conditions)
    (other : Connector) : ∃ conditions, expr.Compiles table other conditions := by
  induction compiles with
  | comparison _ compiled => exact ⟨_, .comparison other compiled⟩
  | inList _ field negated values => exact ⟨_, .inList other field negated values⟩
  | isNull _ field negated => exact ⟨_, .isNull other field negated⟩
  | and _ second ih _ =>
    obtain ⟨front, first⟩ := ih
    exact ⟨_, .and first second⟩
  | or _ second ih _ =>
    obtain ⟨front, first⟩ := ih
    exact ⟨_, .or first second⟩
  | group _ inside => exact ⟨_, .group other inside⟩

theorem Expr.Compiles.alone (compiles : expr.Compiles table connector conditions)
    (isTerm : expr.isTerm) : ∃ clause, conditions = [(connector, clause)] := by
  cases compiles with
  | and | or => cases isTerm
  | _ => exact ⟨_, rfl⟩

end

/-- The clause of a term is its only condition, and that of a chain is nested around them all. -/
inductive Expr.CompilesTo (table : String) (expr : Expr) : Clause → Prop where
  | term {clause : Clause} (isTerm : expr.isTerm)
    (alone : expr.Compiles table .and [(.and, clause)]) : CompilesTo table expr clause
  | chain {conditions : List (Connector × Clause)} (notTerm : expr.isTerm = false)
    (compiles : expr.Compiles table .and conditions) : CompilesTo table expr (.nested conditions)

/-- The clause that the conditions of an expression make. -/
def Expr.clauseOf (expr : Expr) (conditions : List (Connector × Clause)) : Clause :=
  match expr.isTerm, conditions with
  | true, (_, clause) :: _ => clause
  | _, conditions => .nested conditions

theorem clauseOf_term {expr : Expr} (isTerm : expr.isTerm) (connector : Connector)
    (clause : Clause) : expr.clauseOf [(connector, clause)] = clause := by
  simp [Expr.clauseOf, isTerm]

theorem clauseOf_chain {expr : Expr} (notTerm : expr.isTerm = false)
    (conditions : List (Connector × Clause)) : expr.clauseOf conditions = .nested conditions := by
  simp [Expr.clauseOf, notTerm]

theorem toClause_eq (expr : Expr) :
    expr.toClause table = (expr.toConditions table .and).map expr.clauseOf := by
  cases expr with
  | comparison left op right =>
    rw [Expr.toClause, Expr.toConditions]
    cases comparisonClause table left op right <;> rfl
  | inList | isNull => rfl
  | group inner =>
    rw [Expr.toClause, Expr.toConditions]
    cases inner.toConditions table .and <;> rfl
  | and left right | or left right => rfl

theorem compilesTo_of_toClause {expr : Expr} {clause : Clause}
    (compiled : expr.toClause table = .ok clause) : expr.CompilesTo table clause := by
  rw [toClause_eq] at compiled
  obtain ⟨conditions, conditionsEq, rfl⟩ := map_ok compiled
  have compiles : expr.Compiles table .and conditions := compiles_of_toConditions conditionsEq
  cases isTerm : expr.isTerm with
  | true =>
    obtain ⟨clause, rfl⟩ := compiles.alone isTerm
    rw [clauseOf_term isTerm]
    exact .term isTerm compiles
  | false =>
    rw [clauseOf_chain isTerm]
    exact .chain isTerm compiles

/-! ### Filters -/

theorem expr_ok_iff {filter : Filter} {text : String} {expr : Expr} :
    filter.expr text = .ok expr ↔
      parse filter.limits text = .ok expr ∧ expr.check filter.keys = .ok () := by
  unfold Filter.expr
  constructor
  · intro h
    obtain ⟨parsed, parse, h⟩ := bind_ok h
    obtain ⟨_, checked, h⟩ := bind_ok h
    cases h
    exact ⟨parse, checked⟩
  · rintro ⟨parse, checked⟩
    rw [parse]
    change (expr.check filter.keys >>= fun _ => pure expr) = _
    rw [checked]
    rfl

theorem clause_ok_iff {filter : Filter} {text : String} {clause : Clause} :
    filter.clause text = .ok clause ↔
      ∃ expr, filter.expr text = .ok expr ∧ expr.toClause filter.scope = .ok clause :=
  bind_ok_iff

theorem clause_of_tokens {filter : Filter} {text : String} {lexemes : List Lexeme}
    (tokenized : tokenize text = .ok lexemes) : filter.clause text = (do
      let expr ← parseLexemes filter.limits lexemes
      expr.check filter.keys
      expr.toClause filter.scope) := by
  rw [Filter.clause, Filter.expr, parse, tokenized]
  simp only [Except.bind, bind_assoc, pure_bind]

end QueryFilter
