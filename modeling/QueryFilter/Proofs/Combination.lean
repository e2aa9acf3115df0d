import QueryFilter.Proofs.Truth

/-!
# Combining filters

A server may join parsed expressions itself. `combined_truth` says what the joined expression means:
`or` always means `or`, and `and` means `and` unless an expression with an `or` at its top is joined
without a group around it. `and_of_or_loosened` is such a case.
-/

namespace QueryFilter

variable {table : String} {atom : Clause → Truth}

/-! ### Joined expressions compile -/

/-- The two expressions, next to each other in a chain. -/
def Expr.join : Connector → Expr → Expr → Expr
  | .and => .and
  | .or => .or

section

variable (joiner : Connector) (left right : Expr)

theorem toConditions_join (connector : Connector) :
    (Expr.join joiner left right).toConditions table connector = (do
      let first ← left.toConditions table connector
      let second ← right.toConditions table joiner
      .ok (first ++ second)) := by
  cases joiner <;> rfl

theorem toClause_join : (Expr.join joiner left right).toClause table =
    ((Expr.join joiner left right).toConditions table .and).map .nested := by
  cases joiner <;> rfl

/-- It makes no difference to a clause which of two neighbours in a chain are joined first. -/
theorem toClause_join_assoc (other : Connector) (middle : Expr) :
    (Expr.join joiner left (.join other middle right)).toClause table =
      (Expr.join other (.join joiner left middle) right).toClause table := by
  simp only [toClause_join, toConditions_join]
  cases left.toConditions table .and with
  | error e => rfl
  | ok front =>
    cases middle.toConditions table joiner with
    | error e => rfl
    | ok between =>
      cases right.toConditions table other with
      | error e => rfl
      | ok back =>
        have same := List.append_assoc front between back
        exact congrArg (fun conditions => Except.ok (Clause.nested conditions)) same.symm

end

theorem conditions_of_toClause {expr : Expr} {clause : Clause}
    (compiled : expr.toClause table = .ok clause) (connector : Connector) :
    ∃ conditions, expr.toConditions table connector = .ok conditions := by
  simp only [toConditions_iff]
  cases compilesTo_of_toClause compiled with
  | term _ compiles | chain _ compiles => exact compiles.behind connector

/-! ### Joined expressions keep their meaning -/

/-- The truth of two conditions with the connector between them. -/
def Connector.truth : Connector → Truth → Truth → Truth
  | .and => min
  | .or => max

theorem truth_join (joiner : Connector) (left right : Expr) :
    (Expr.join joiner left right).truth table atom = (do
      return joiner.truth (← left.truth table atom) (← right.truth table atom)) := by
  cases joiner <;> rfl

section

variable {left right : Expr} {front back : Clause}

theorem orsGrouped_of_join {joiner : Connector}
    (grouped : (Expr.join joiner left right).OrsGrouped) :
    left.OrsGrouped ∧ right.OrsGrouped := by
  cases joiner with
  | and => exact grouped.2.2
  | or => exact grouped

theorem join_truth {joiner : Connector} (grouped : (Expr.join joiner left right).OrsGrouped)
    (compiledLeft : left.toClause table = .ok front)
    (compiledRight : right.toClause table = .ok back) (atom : Clause → Truth) :
    ∃ clause, (Expr.join joiner left right).toClause table = .ok clause ∧
      clause.truth atom = joiner.truth (front.truth atom) (back.truth atom) := by
  obtain ⟨groupedLeft, groupedRight⟩ := orsGrouped_of_join grouped
  obtain ⟨first, firstEq⟩ := conditions_of_toClause compiledLeft .and
  obtain ⟨second, secondEq⟩ := conditions_of_toClause compiledRight joiner
  have compiled : (Expr.join joiner left right).toClause table =
      .ok (.nested (first ++ second)) := by
    rw [toClause_join, toConditions_join, firstEq, secondEq]
    rfl
  have whole : (Expr.join joiner left right).truth table atom =
      .ok ((Clause.nested (first ++ second)).truth atom) := toClause_meant grouped compiled
  rw [truth_join, toClause_meant groupedLeft compiledLeft,
    toClause_meant groupedRight compiledRight] at whole
  exact ⟨_, compiled, (Except.ok.inj whole).symm⟩

theorem group_truth (grouped : left.OrsGrouped) (compiled : left.toClause table = .ok front)
    (atom : Clause → Truth) :
    ∃ clause, (Expr.group left).toClause table = .ok clause ∧
      clause.truth atom = front.truth atom := by
  obtain ⟨conditions, conditionsEq⟩ := conditions_of_toClause compiled .and
  have whole : (Expr.group left).toClause table = .ok (.nested conditions) := by
    rw [Expr.toClause, conditionsEq]
    rfl
  refine ⟨_, whole, ?_⟩
  have same : (Expr.group left).truth table atom = left.truth table atom := rfl
  have groupedWhole : (Expr.group left).OrsGrouped := grouped
  rw [toClause_meant groupedWhole whole, toClause_meant grouped compiled] at same
  exact Except.ok.inj same

end

/-! ### Parsed expressions -/

/-- Parsed expressions that compile can be joined by `or`, and by `and` if neither is an `or` itself
or both are put in groups. Otherwise the `or` takes over and `and` binds only its nearer side. -/
theorem combined_truth {limits otherLimits : Limits} {text other : String} {left right : Expr}
    (parsedLeft : parse limits text = .ok left) (parsedRight : parse otherLimits other = .ok right)
    {front back : Clause} (compiledLeft : left.toClause table = .ok front)
    (compiledRight : right.toClause table = .ok back) (atom : Clause → Truth) :
    (∃ clause, (Expr.or left right).toClause table = .ok clause ∧
      clause.truth atom = max (front.truth atom) (back.truth atom)) ∧
    (left.isOr = false → right.isOr = false →
      ∃ clause, (Expr.and left right).toClause table = .ok clause ∧
        clause.truth atom = min (front.truth atom) (back.truth atom)) ∧
    (∃ clause, (Expr.and (.group left) (.group right)).toClause table = .ok clause ∧
      clause.truth atom = min (front.truth atom) (back.truth atom)) ∧
    (∀ first second, left = .or first second → (Expr.and left right).toClause table =
      (Expr.or first (.and second right)).toClause table) ∧
    ∀ first second, right = .or first second → (Expr.and left right).toClause table =
      (Expr.or (.and left first) second).toClause table := by
  have groupedLeft := Expr.orsGrouped_of_canonical (canonical_of_parse parsedLeft)
  have groupedRight := Expr.orsGrouped_of_canonical (canonical_of_parse parsedRight)
  refine ⟨?_, fun notOrLeft notOrRight => ?_, ?_, ?_, ?_⟩
  · have grouped : (Expr.join .or left right).OrsGrouped := ⟨groupedLeft, groupedRight⟩
    exact join_truth grouped compiledLeft compiledRight atom
  · have grouped : (Expr.join .and left right).OrsGrouped :=
      ⟨notOrLeft, notOrRight, groupedLeft, groupedRight⟩
    exact join_truth grouped compiledLeft compiledRight atom
  · obtain ⟨groupLeft, wholeLeft, sameLeft⟩ := group_truth groupedLeft compiledLeft atom
    obtain ⟨groupRight, wholeRight, sameRight⟩ := group_truth groupedRight compiledRight atom
    have grouped : (Expr.join .and (.group left) (.group right)).OrsGrouped :=
      ⟨rfl, rfl, groupedLeft, groupedRight⟩
    rw [← sameLeft, ← sameRight]
    exact join_truth grouped wholeLeft wholeRight atom
  · rintro first second rfl
    exact (toClause_join_assoc .or first right .and second).symm
  · rintro first second rfl
    exact toClause_join_assoc .and left second .or first

theorem parse_c_is_null : parse {} "c is null" = .ok (.isNull "c" false) := by
  have tokenized : tokenize "c is null" = .ok [⟨.name "c", "c", 0⟩, ⟨.is, "is", 2⟩,
      ⟨.null, "null", 5⟩] := by decide +kernel
  rw [parse, tokenized]
  rfl

theorem combined_truth_of_chain :
    let atom : Clause → Truth := fun
      | .isNull (.column _ "c") _ => .false
      | _ => .true
    ∃ left right front back either both,
      parse {} "a is null and b is null" = .ok left ∧ parse {} "c is null" = .ok right ∧
      left.toClause "t" = .ok front ∧ right.toClause "t" = .ok back ∧
      (Expr.or left right).toClause "t" = .ok either ∧
      either.truth atom = max (front.truth atom) (back.truth atom) ∧
      left.isOr = false ∧ right.isOr = false ∧ (Expr.and left right).toClause "t" = .ok both ∧
      both.truth atom = min (front.truth atom) (back.truth atom) := by
  intro atom
  have tokenized : tokenize "a is null and b is null" = .ok [⟨.name "a", "a", 0⟩, ⟨.is, "is", 2⟩,
      ⟨.null, "null", 5⟩, ⟨.and, "and", 10⟩, ⟨.name "b", "b", 14⟩, ⟨.is, "is", 16⟩,
      ⟨.null, "null", 19⟩] := by decide +kernel
  have parsed : parse {} "a is null and b is null" =
      .ok (.and (.isNull "a" false) (.isNull "b" false)) := by rw [parse, tokenized]; rfl
  have compiled : (Expr.isNull "c" false).toClause "t" =
      .ok (.isNull (.column "t" "c") false) := rfl
  obtain ⟨⟨either, eitherEq, eitherTruth⟩, joined, -⟩ :=
    combined_truth parsed parse_c_is_null rfl compiled atom
  obtain ⟨both, bothEq, bothTruth⟩ := joined rfl rfl
  exact ⟨_, _, _, _, either, both, parsed, parse_c_is_null, rfl, rfl, eitherEq, eitherTruth,
    rfl, rfl, bothEq, bothTruth⟩

/-- With an `or` at its top the left side is loosened: only its last alternative is joined. -/
theorem and_of_or_loosened :
    let atom : Clause → Truth := fun
      | .isNull (.column _ "a") _ => .true
      | _ => .false
    ∃ left right front back both,
      parse {} "a is null or b is null" = .ok left ∧ parse {} "c is null" = .ok right ∧
      left.toClause "t" = .ok front ∧ right.toClause "t" = .ok back ∧
      (Expr.and left right).toClause "t" = .ok both ∧
      both.truth atom = .true ∧ min (front.truth atom) (back.truth atom) = .false := by
  intro atom
  have tokenized : tokenize "a is null or b is null" = .ok [⟨.name "a", "a", 0⟩, ⟨.is, "is", 2⟩,
      ⟨.null, "null", 5⟩, ⟨.or, "or", 10⟩, ⟨.name "b", "b", 13⟩, ⟨.is, "is", 15⟩,
      ⟨.null, "null", 18⟩] := by decide +kernel
  have parsed : parse {} "a is null or b is null" =
      .ok (.or (.isNull "a" false) (.isNull "b" false)) := by rw [parse, tokenized]; rfl
  exact ⟨_, _, _, _, _, parsed, parse_c_is_null, rfl, rfl, rfl, by decide, by decide⟩

end QueryFilter
