import Mathlib.Data.List.SplitBy
import Mathlib.Order.BoundedOrder.Lattice
import QueryFilter.Proofs.Compilation
import QueryFilter.Proofs.Parsing

/-!
# What filters and clauses mean

Both are read in the three truth values of SQL, given the truth of the atoms. A nested clause is
read as SQL reads its text: `and` binds tighter than `or`, and the first connector counts for
nothing. `toClause_truth` says that an expression and its clause mean the same.
-/

namespace QueryFilter

/-! ### Truth values -/

/-- The truth values of SQL, of which each is truer than the one before. -/
inductive Truth where
  | false
  | unknown
  | true
deriving DecidableEq, Repr

namespace Truth

def rank : Truth → Nat
  | .false => 0
  | .unknown => 1
  | .true => 2

instance : LinearOrder Truth :=
  LinearOrder.lift' rank (by intro a b; cases a <;> cases b <;> simp [rank])

instance : BoundedOrder Truth where
  top := .true
  le_top t := by cases t <;> decide
  bot := .false
  bot_le t := by cases t <;> decide

/-- The truth of a conjunction: the least of its members. -/
def all (truths : List Truth) : Truth := truths.foldr min ⊤

/-- The truth of a disjunction: the greatest of its members. -/
def any (truths : List Truth) : Truth := truths.foldr max ⊥

theorem all_append (first second : List Truth) :
    all (first ++ second) = min (all first) (all second) := by
  induction first with
  | nil => simp [all]
  | cons t first ih => simp only [all, List.cons_append, List.foldr_cons] at ih ⊢; rw [ih, min_assoc]

theorem any_append (first second : List Truth) :
    any (first ++ second) = max (any first) (any second) := by
  induction first with
  | nil => simp [any]
  | cons t first ih => simp only [any, List.cons_append, List.foldr_cons] at ih ⊢; rw [ih, max_assoc]

@[simp] theorem all_singleton (t : Truth) : all [t] = t := by simp [all]

@[simp] theorem any_singleton (t : Truth) : any [t] = t := by simp [any]

end Truth

/-! ### Meaning -/

section

variable (table : String) (atom : Clause → Truth)

/-- An expression means the least of two sides of `and`, the greatest of two sides of `or`, what
stands in a group, and for a predicate the atom that it compiles to. -/
def Expr.truth : Expr → Except FilterError Truth
  | .and left right => do return min (← left.truth) (← right.truth)
  | .or left right => do return max (← left.truth) (← right.truth)
  | .group inner => inner.truth
  | predicate => (predicate.toClause table).map atom

/-- The runs of conditions that `and` joins. -/
def andRuns (conditions : List (Connector × Truth)) : List (List (Connector × Truth)) :=
  conditions.splitBy fun _ next => next.1 = .and

/-- A list of conditions as SQL reads it: first the runs joined by `and`, then `or`. -/
def joined (conditions : List (Connector × Truth)) : Truth :=
  Truth.any ((andRuns conditions).map fun run => Truth.all (run.map (·.2)))

mutual

def Clause.truth : Clause → Truth
  | .nested conditions => joined (Clause.truths conditions)
  | clause => atom clause

def Clause.truths : List (Connector × Clause) → List (Connector × Truth)
  | [] => []
  | (connector, clause) :: rest => (connector, clause.truth) :: Clause.truths rest

end

end

/-- Every `or` right below an `and` is in a group. -/
def Expr.OrsGrouped : Expr → Prop
  | .and left right =>
    left.isOr = false ∧ right.isOr = false ∧ left.OrsGrouped ∧ right.OrsGrouped
  | .or left right => left.OrsGrouped ∧ right.OrsGrouped
  | .group inner => inner.OrsGrouped
  | _ => True

theorem Expr.orsGrouped_of_canonical {expr : Expr} (shape : expr.Canonical) : expr.OrsGrouped := by
  induction expr with
  | and left right ihLeft ihRight =>
    obtain ⟨notOr, isTerm, shapeLeft, shapeRight⟩ := shape
    exact ⟨notOr, not_isOr_of_isTerm isTerm, ihLeft shapeLeft, ihRight shapeRight⟩
  | or left right ihLeft ihRight => exact ⟨ihLeft shape.2.1, ihRight shape.2.2⟩
  | group inner ih => exact ih shape
  | _ => trivial

/-! ### Lists of conditions -/

theorem joined_singleton (condition : Connector × Truth) : joined [condition] = condition.2 := by
  have run : andRuns [condition] = [[condition]] := rfl
  simp [joined, run]

theorem joined_of_and {conditions : List (Connector × Truth)} (nonempty : conditions ≠ [])
    (all_and : ∀ condition ∈ conditions.tail, condition.1 = .and) :
    joined conditions = Truth.all (conditions.map (·.2)) := by
  have chain : conditions.IsChain fun _ next => decide (next.1 = .and) := by
    induction conditions with
    | nil => contradiction
    | cons first rest ih =>
      cases rest with
      | nil => exact List.isChain_singleton _
      | cons next rest =>
        have isAnd : next.1 = .and := all_and next (by simp)
        refine List.isChain_cons_cons.mpr ⟨by simp [isAnd], ih (by simp) ?_⟩
        intro condition member
        exact all_and condition (List.mem_cons_of_mem _ member)
  have run : andRuns conditions = [conditions] := List.splitBy_of_isChain nonempty chain
  rw [joined, run, List.map_singleton, Truth.any_singleton]

theorem joined_append_or (front back : List (Connector × Truth)) (truth : Truth) :
    joined (front ++ (.or, truth) :: back) = max (joined front) (joined ((.or, truth) :: back)) := by
  have runs : andRuns (front ++ (.or, truth) :: back) =
      andRuns front ++ andRuns ((.or, truth) :: back) := by
    apply List.splitBy_append
    intro last _ next isNext
    obtain rfl : (.or, truth) = next := by simpa using isNext
    rfl
  rw [joined, runs, List.map_append, Truth.any_append]
  rfl

theorem truths_eq_map (atom : Clause → Truth) (conditions : List (Connector × Clause)) :
    Clause.truths atom conditions = conditions.map fun c => (c.1, c.2.truth atom) := by
  induction conditions with
  | nil => rfl
  | cons condition rest ih => rw [Clause.truths, ih, List.map_cons]

/-! ### Compilation -/

variable {table : String} {atom : Clause → Truth}

/-- The conditions of an expression, read as SQL does, have its truth. Without an `or` at its top
they are one run. -/
structure Meant (table : String) (atom : Clause → Truth) (connector : Connector) (expr : Expr)
    (conditions : List (Connector × Clause)) : Prop where
  truth_eq : expr.truth table atom = .ok (joined (Clause.truths atom conditions))
  head : ∃ clause rest, conditions = (connector, clause) :: rest
  run : expr.isOr = false → ∀ condition ∈ conditions.tail, condition.1 = .and

theorem meant_singleton {connector : Connector} {expr : Expr} {clause : Clause}
    (truth_eq : expr.truth table atom = .ok (clause.truth atom)) :
    Meant table atom connector expr [(connector, clause)] where
  truth_eq := by rw [truths_eq_map, List.map_singleton, joined_singleton]; exact truth_eq
  head := ⟨clause, [], rfl⟩
  run := by simp

theorem Meant.all_eq {connector : Connector} {expr : Expr} {conditions : List (Connector × Clause)}
    (meant : Meant table atom connector expr conditions) (notOr : expr.isOr = false) :
    joined (Clause.truths atom conditions) =
      Truth.all ((Clause.truths atom conditions).map (·.2)) := by
  obtain ⟨clause, rest, rfl⟩ := meant.head
  have run := meant.run notOr
  rw [truths_eq_map]
  refine joined_of_and (by simp) ?_
  rw [List.map_cons, List.tail_cons]
  intro condition member
  obtain ⟨original, present, rfl⟩ := List.mem_map.mp member
  exact run original present

theorem Meant.and {connector : Connector} {left right : Expr}
    {front back : List (Connector × Clause)} (first : Meant table atom connector left front)
    (second : Meant table atom .and right back) (notOrLeft : left.isOr = false)
    (notOrRight : right.isOr = false) :
    Meant table atom connector (.and left right) (front ++ back) := by
  obtain ⟨firstClause, firstRest, frontEq⟩ := first.head
  obtain ⟨secondClause, secondRest, backEq⟩ := second.head
  have run : ∀ condition ∈ (front ++ back).tail, condition.1 = .and := by
    intro condition member
    rw [frontEq, List.cons_append, List.tail_cons] at member
    rcases List.mem_append.mp member with early | late
    · exact first.run notOrLeft condition (by rw [frontEq]; exact early)
    · rw [backEq] at late
      rcases List.mem_cons.mp late with rfl | later
      · rfl
      · exact second.run notOrRight condition (by rw [backEq]; exact later)
  refine ⟨?_, ⟨firstClause, firstRest ++ back, by rw [frontEq]; rfl⟩, fun _ => run⟩
  have whole : joined (Clause.truths atom (front ++ back)) =
      Truth.all ((Clause.truths atom (front ++ back)).map (·.2)) := by
    rw [truths_eq_map]
    refine joined_of_and (by rw [frontEq]; simp) ?_
    rw [← List.map_tail]
    intro condition member
    obtain ⟨original, present, rfl⟩ := List.mem_map.mp member
    exact run original present
  rw [whole, truths_eq_map, List.map_append, List.map_append, Truth.all_append, ← truths_eq_map,
    ← truths_eq_map, ← first.all_eq notOrLeft, ← second.all_eq notOrRight]
  simp only [Expr.truth, first.truth_eq, second.truth_eq]
  rfl

theorem Meant.or {connector : Connector} {left right : Expr}
    {front back : List (Connector × Clause)} (first : Meant table atom connector left front)
    (second : Meant table atom .or right back) :
    Meant table atom connector (.or left right) (front ++ back) := by
  obtain ⟨firstClause, firstRest, frontEq⟩ := first.head
  obtain ⟨secondClause, secondRest, backEq⟩ := second.head
  refine ⟨?_, ⟨firstClause, firstRest ++ back, by rw [frontEq]; rfl⟩, fun notOr => by cases notOr⟩
  have split : joined (Clause.truths atom (front ++ back)) =
      max (joined (Clause.truths atom front)) (joined (Clause.truths atom back)) := by
    simp only [truths_eq_map, backEq, List.map_append, List.map_cons]
    exact joined_append_or _ _ _
  rw [split]
  simp only [Expr.truth, first.truth_eq, second.truth_eq]
  rfl

theorem comparisonClause_atomic {left right : Operand} {op : Comparison} {clause : Clause}
    (compiled : comparisonClause table left op right = .ok clause) :
    clause.truth atom = atom clause := by
  obtain ⟨first, second, -, -, rfl⟩ := comparisonClause_ok compiled
  rfl

theorem conditions_meant {expr : Expr} (grouped : expr.OrsGrouped) {connector : Connector}
    {conditions : List (Connector × Clause)}
    (compiles : expr.Compiles table connector conditions) :
    Meant table atom connector expr conditions := by
  induction compiles with
  | comparison _ compiled =>
    apply meant_singleton
    rw [comparisonClause_atomic compiled]
    simp only [Expr.truth, Expr.toClause, compiled]
    rfl
  | inList | isNull => exact meant_singleton rfl
  | and _ _ ihLeft ihRight =>
    obtain ⟨notOrLeft, notOrRight, groupedLeft, groupedRight⟩ := grouped
    exact (ihLeft groupedLeft).and (ihRight groupedRight) notOrLeft notOrRight
  | or _ _ ihLeft ihRight => exact (ihLeft grouped.1).or (ihRight grouped.2)
  | group _ _ ih => exact meant_singleton (ih grouped).truth_eq

theorem toClause_meant {expr : Expr} (grouped : expr.OrsGrouped) {clause : Clause}
    (compiled : expr.toClause table = .ok clause) :
    expr.truth table atom = .ok (clause.truth atom) := by
  cases compilesTo_of_toClause compiled with
  | term _ alone =>
    have meant : Meant table atom .and expr [(.and, clause)] := conditions_meant grouped alone
    rw [meant.truth_eq, truths_eq_map, List.map_singleton, joined_singleton]
  | chain _ compiles => exact (conditions_meant grouped compiles).truth_eq

/-- Compilation keeps the truth of every expression that has no `or` right below an `and`, so it
keeps that of everything that is parsed and of every filter. -/
theorem toClause_truth (atom : Clause → Truth) :
    (∀ (expr : Expr) (table : String) (clause : Clause), expr.OrsGrouped →
      expr.toClause table = .ok clause → expr.truth table atom = .ok (clause.truth atom)) ∧
    (∀ (limits : Limits) (text : String) (expr : Expr), parse limits text = .ok expr →
      expr.OrsGrouped) ∧
    ∀ (filter : Filter) (text : String) (clause : Clause), filter.clause text = .ok clause →
      ∃ expr, filter.expr text = .ok expr ∧
        expr.truth filter.scope atom = .ok (clause.truth atom) := by
  refine ⟨fun expr table clause grouped compiled => toClause_meant grouped compiled, ?_, ?_⟩
  · intro limits text expr parsed
    exact Expr.orsGrouped_of_canonical (canonical_of_parse parsed)
  · intro filter text clause accepted
    obtain ⟨expr, allowed, compiled⟩ := clause_ok_iff.mp accepted
    have shape := canonical_of_parse (expr_ok_iff.mp allowed).1
    exact ⟨expr, allowed, toClause_meant (Expr.orsGrouped_of_canonical shape) compiled⟩

theorem toClause_truth_mixed_chain :
    let filter : Filter := ⟨"t", .any, {}⟩
    let atom : Clause → Truth := fun
      | .isNull (.column _ "c") _ => .false
      | _ => .true
    ∃ expr clause, filter.expr "a is null or b is null and c is null" = .ok expr ∧
      filter.clause "a is null or b is null and c is null" = .ok clause ∧
      expr.truth "t" atom = .ok (clause.truth atom) ∧ clause.truth atom = .true := by
  intro filter atom
  have tokenized : tokenize "a is null or b is null and c is null" = .ok [⟨.name "a", "a", 0⟩,
      ⟨.is, "is", 2⟩, ⟨.null, "null", 5⟩, ⟨.or, "or", 10⟩, ⟨.name "b", "b", 13⟩, ⟨.is, "is", 15⟩,
      ⟨.null, "null", 18⟩, ⟨.and, "and", 23⟩, ⟨.name "c", "c", 27⟩, ⟨.is, "is", 29⟩,
      ⟨.null, "null", 32⟩] := by decide +kernel
  have accepted : filter.clause "a is null or b is null and c is null" =
      .ok (.nested [(.and, .isNull (.column "t" "a") false), (.or, .isNull (.column "t" "b") false),
        (.and, .isNull (.column "t" "c") false)]) := (clause_of_tokens tokenized).trans rfl
  obtain ⟨expr, allowed, kept⟩ := (toClause_truth atom).2.2 _ _ _ accepted
  exact ⟨expr, _, allowed, accepted, kept, by decide⟩

end QueryFilter
