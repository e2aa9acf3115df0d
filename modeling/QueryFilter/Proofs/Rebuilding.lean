import QueryFilter.Proofs.Compilation
import QueryFilter.Proofs.Parsing

/-!
# Reading an expression back from its clause

A clause keeps the structure of its expression: the list of conditions of a chain is put together
again as the parser puts a chain together, so `Clause.toTerm` finds the expression of a clause, with
parentheses around a chain. Only these are lost on the way, as `toClause_eq_iff` says. Patterns are
left out, because the percent signs in them may be the writer's own, and so are function names in
capitals, because a clause has one name for all spellings.
-/

namespace QueryFilter

/-! ### Rebuilding -/

mutual

def Scalar.toOperand : Scalar → Operand
  | .column _ name => .field name
  | .value literal => .literal literal
  | .function name args =>
    .call (String.ofList (name.toList.map Char.toLower)) (Scalar.toOperands args)

def Scalar.toOperands : List Scalar → List Operand
  | [] => []
  | arg :: args => arg.toOperand :: Scalar.toOperands args

end

/-- The name of a column. Nothing else is tested for null or for values. -/
def Scalar.columnName : Scalar → String
  | .column _ name => name
  | _ => ""

/-- The operator that becomes a relation. Patterns have more than one, and this is the first. -/
def Relation.toComparison : Relation → Comparison
  | .equal => .equal
  | .notEqual => .notEqual
  | .greaterThan => .greater
  | .greaterOrEqual => .greaterOrEqual
  | .lessThan => .less
  | .lessOrEqual => .lessOrEqual
  | .like => .contains

/-- The chain goes on behind the term, by the connector of the next condition. -/
def Parser.Chain.followedBy (chain : Parser.Chain) (term : Expr) : Connector → Parser.Chain
  | .and => chain.followedByAnd term
  | .or => chain.followedByOr term

mutual

/-- The predicate or group of a clause. No expression has a clause without conditions. -/
def Clause.toTerm : Clause → Expr
  | .compare left relation right =>
    .comparison left.toOperand relation.toComparison right.toOperand
  | .inList column values negated => .inList column.columnName negated values
  | .isNull column negated => .isNull column.columnName negated
  | .nested [] => .group (.isNull "" false)
  | .nested ((_, first) :: rest) => .group (Clause.rejoin .empty first.toTerm rest)

/-- The expression of conditions behind a chain and its last term so far. -/
def Clause.rejoin (chain : Parser.Chain) (term : Expr) : List (Connector × Clause) → Expr
  | [] => chain.close term
  | (connector, clause) :: rest =>
    Clause.rejoin (chain.followedBy term connector) clause.toTerm rest

end

/-! ### What can be read back -/

/-- Every function is called in lower case. -/
inductive Operand.Lower : Operand → Prop where
  | field (name : String) : Lower (.field name)
  | literal (value : Literal) : Lower (.literal value)
  | call {name : String} {args : List Operand}
    (lower : name.toList.map Char.toLower = name.toList) (each : ∀ arg ∈ args, arg.Lower) :
    Lower (.call name args)

namespace Expr

/-- No comparison looks for a text, and every function is called in lower case. -/
def Plain : Expr → Prop
  | .comparison left op right =>
    left.Lower ∧ op ∉ [.contains, .startsWith, .endsWith] ∧ right.Lower
  | .inList .. => True
  | .isNull .. => True
  | .and left right => left.Plain ∧ right.Plain
  | .or left right => left.Plain ∧ right.Plain
  | .group inner => inner.Plain

/-- A chain is put in parentheses. -/
def grouped : Expr → Expr
  | .and left right => .group (.and left right)
  | .or left right => .group (.or left right)
  | term => term

theorem grouped_of_isTerm {expr : Expr} (term : expr.isTerm) : expr.grouped = expr := by
  cases expr with
  | and left right => cases term
  | or left right => cases term
  | _ => rfl

theorem grouped_of_chain {expr : Expr} (chain : expr.isTerm = false) :
    expr.grouped = .group expr := by
  cases expr with
  | and left right => rfl
  | or left right => rfl
  | _ => cases chain

end Expr

/-! ### Operands and predicates -/

variable {table : String}

theorem Scalar.toOperands_eq_map (args : List Scalar) :
    toOperands args = args.map toOperand := by
  induction args with
  | nil => rfl
  | cons arg args ih => rw [toOperands, ih, List.map_cons]

/-- A function that is called in lower case is called by its own name. -/
theorem name_of_lower {name : String} {f : Builtin} (found : Builtin.named? name = some f)
    (lower : name.toList.map Char.toLower = name.toList) :
    String.ofList (f.queryName.toList.map Char.toLower) = name := by
  have same : f.name.toList.map Char.toLower = name.toList.map Char.toLower := by
    have holds := List.find?_some found
    simpa [Builtin.sameName] using holds
  have shown : f.queryName.toList.map Char.toLower = f.name.toList.map Char.toLower := by
    cases f <;> decide
  rw [shown, same, lower, String.ofList_toList]

theorem toOperand_of_toScalar {operand : Operand} {scalar : Scalar} (lower : operand.Lower)
    (compiled : operand.toScalar table = .ok scalar) : scalar.toOperand = operand := by
  induction lower generalizing scalar with
  | field name =>
    cases compiled
    rfl
  | literal value =>
    cases compiled
    rfl
  | @call name args lower each ih =>
    obtain ⟨scalars, compiledArgs, called⟩ := bind_ok compiled
    obtain ⟨f, found, -, rfl⟩ := ofCall_ok called
    have args_eq : scalars.map Scalar.toOperand = args := by
      have pairs := toScalars_ok compiledArgs
      clear each compiled compiledArgs called
      induction pairs with
      | nil => rfl
      | cons first _ ihArgs =>
        rw [List.map_cons, ih _ List.mem_cons_self first,
          ihArgs fun arg member => ih arg (List.mem_cons_of_mem _ member)]
    rw [Scalar.toOperand, Scalar.toOperands_eq_map, args_eq, name_of_lower found lower]

theorem toTerm_of_comparison {left right : Operand} {op : Comparison} {clause : Clause}
    (plain : (Expr.comparison left op right).Plain)
    (compiled : comparisonClause table left op right = .ok clause) :
    clause.toTerm = .comparison left op right := by
  obtain ⟨lowerLeft, noPattern, lowerRight⟩ := plain
  obtain ⟨first, second, compiledLeft, compiledRight, rfl⟩ := comparisonClause_ok compiled
  have relation : op.relation.1.toComparison = op ∧ op.relation.2 = none := by
    cases op with
    | contains => simp at noPattern
    | startsWith => simp at noPattern
    | endsWith => simp at noPattern
    | _ => exact ⟨rfl, rfl⟩
  rw [Operand.toRightSide, relation.2] at compiledRight
  rw [Clause.toTerm, toOperand_of_toScalar lowerLeft compiledLeft, relation.1,
    toOperand_of_toScalar lowerRight compiledRight]

/-! ### Chains and groups -/

/-- From a chain that waits for the expression, its conditions lead to the chain that the parser has
before the last term of the expression. -/
def Rejoins (base : Parser.Chain) (connector : Connector) (expr : Expr)
    (conditions : List (Connector × Clause)) : Prop :=
  ∃ first rest chain term, conditions = (connector, first) :: rest ∧
    base.Extended expr chain term ∧
    ∀ more, Clause.rejoin base first.toTerm (rest ++ more) = Clause.rejoin chain term more

theorem rejoins_term {base : Parser.Chain} {connector : Connector} {expr : Expr} {clause : Clause}
    (same : clause.toTerm = expr) : Rejoins base connector expr [(connector, clause)] := by
  refine ⟨clause, [], base, expr, rfl, base.extended_self expr, ?_⟩
  intro more
  rw [same, List.nil_append]

/-- The conditions of an expression are those of a group of it. -/
theorem Rejoins.toTerm_nested {connector : Connector} {expr : Expr}
    {conditions : List (Connector × Clause)}
    (rejoins : Rejoins .empty connector expr conditions) :
    (Clause.nested conditions).toTerm = .group expr := by
  obtain ⟨first, rest, chain, term, rfl, extended, read⟩ := rejoins
  have whole := read []
  rw [List.append_nil, Clause.rejoin, extended.close] at whole
  rw [Clause.toTerm, whole]
  rfl

theorem admits_empty (expr : Expr) : Parser.Chain.empty.Admits expr :=
  ⟨fun _ => rfl, fun _ => rfl⟩

/-- The right side goes on from the chain to which the left side leads. -/
theorem Rejoins.join {base : Parser.Chain} {connector joiner : Connector} {left right whole : Expr}
    {front back : List (Connector × Clause)} (first : Rejoins base connector left front)
    (second : ∀ (chain : Parser.Chain) (term : Expr),
      Rejoins (chain.followedBy term joiner) joiner right back)
    (extended : ∀ {chain after : Parser.Chain} {term last : Expr}, base.Extended left chain term →
      (chain.followedBy term joiner).Extended right after last → base.Extended whole after last) :
    Rejoins base connector whole (front ++ back) := by
  obtain ⟨clause, rest, chain, term, rfl, extendedLeft, readLeft⟩ := first
  obtain ⟨next, later, after, last, rfl, extendedRight, readRight⟩ := second chain term
  refine ⟨clause, rest ++ (joiner, next) :: later, after, last, rfl,
    extended extendedLeft extendedRight, ?_⟩
  intro more
  rw [List.append_assoc, readLeft, List.cons_append, Clause.rejoin]
  exact readRight more

theorem conditions_rejoins {expr : Expr} (shape : expr.Canonical) (plain : expr.Plain)
    {connector : Connector} {conditions : List (Connector × Clause)}
    (compiles : expr.Compiles table connector conditions) {base : Parser.Chain}
    (admits : base.Admits expr) : Rejoins base connector expr conditions := by
  induction compiles generalizing base with
  | comparison _ compiled => exact rejoins_term (toTerm_of_comparison plain compiled)
  | inList | isNull => exact rejoins_term rfl
  | @and _ left right _ _ _ _ ihLeft ihRight =>
    obtain ⟨notOr, isTerm, shapeLeft, shapeRight⟩ := shape
    have admitsLeft : base.Admits left :=
      Parser.Chain.admits_of_not_isOr (admits.1 rfl) notOr
    exact (ihLeft shapeLeft plain.1 admitsLeft).join
      (fun _ _ => ihRight shapeRight plain.2 (Parser.Chain.admits_term _ isTerm))
      (Parser.Chain.extended_and admits notOr isTerm)
  | @or _ left right _ _ _ _ ihLeft ihRight =>
    obtain ⟨notOr, shapeLeft, shapeRight⟩ := shape
    have admitsLeft : base.Admits left := ⟨fun _ => admits.1 rfl, fun _ => admits.2 rfl⟩
    exact (ihLeft shapeLeft plain.1 admitsLeft).join
      (fun _ _ => ihRight shapeRight plain.2 (Parser.Chain.admits_of_not_isOr rfl notOr))
      (Parser.Chain.extended_or admits)
  | @group _ inner _ _ ih => exact rejoins_term (ih shape plain (admits_empty inner)).toTerm_nested

/-- The expression of a clause is read back from it, with parentheses around a chain. -/
theorem toTerm_of_toClause {expr : Expr} (shape : expr.Canonical) (plain : expr.Plain)
    {clause : Clause} (compiled : expr.toClause table = .ok clause) :
    clause.toTerm = expr.grouped := by
  cases compilesTo_of_toClause compiled with
  | term isTerm alone =>
    have whole := (conditions_rejoins shape plain alone (admits_empty expr)).toTerm_nested
    rw [Expr.grouped_of_isTerm isTerm]
    exact Expr.group.inj whole
  | chain notTerm compiles =>
    rw [Expr.grouped_of_chain notTerm]
    exact (conditions_rejoins shape plain compiles (admits_empty expr)).toTerm_nested

/-! ### Equal clauses -/

theorem toClause_group {expr : Expr} (chain : expr.isTerm = false) :
    (Expr.group expr).toClause table = expr.toClause table := by
  cases expr with
  | and left right => rfl
  | or left right => rfl
  | _ => cases chain

theorem eq_of_grouped_eq {first second : Expr} (same : first.grouped = second.grouped) :
    first = second ∨ (first.isTerm = false ∧ second = .group first) ∨
      (second.isTerm = false ∧ first = .group second) := by
  cases termFirst : first.isTerm with
  | true =>
    rw [Expr.grouped_of_isTerm termFirst] at same
    cases termSecond : second.isTerm with
    | true =>
      rw [Expr.grouped_of_isTerm termSecond] at same
      exact .inl same
    | false =>
      rw [Expr.grouped_of_chain termSecond] at same
      exact .inr (.inr ⟨rfl, same⟩)
  | false =>
    rw [Expr.grouped_of_chain termFirst] at same
    cases termSecond : second.isTerm with
    | true =>
      rw [Expr.grouped_of_isTerm termSecond] at same
      exact .inr (.inl ⟨rfl, same.symm⟩)
    | false =>
      rw [Expr.grouped_of_chain termSecond] at same
      exact .inl (Expr.group.inj same)

/-- Two parsed expressions without patterns have one clause only if they are the same, or one is a
chain and the other this chain in parentheses. -/
theorem toClause_eq_iff {limits otherLimits : Limits} {lexemes others : List Lexeme}
    {first second : Expr} (parsedFirst : parseLexemes limits lexemes = .ok first)
    (parsedSecond : parseLexemes otherLimits others = .ok second) (plainFirst : first.Plain)
    (plainSecond : second.Plain) {table : String} {clause other : Clause}
    (compiledFirst : first.toClause table = .ok clause)
    (compiledSecond : second.toClause table = .ok other) :
    clause = other ↔
      first = second ∨ (first.isTerm = false ∧ second = .group first) ∨
        (second.isTerm = false ∧ first = .group second) := by
  constructor
  · rintro rfl
    apply eq_of_grouped_eq
    rw [← toTerm_of_toClause (spells_of_parseLexemes parsedFirst).2.1 plainFirst compiledFirst,
      ← toTerm_of_toClause (spells_of_parseLexemes parsedSecond).2.1 plainSecond compiledSecond]
  · intro alike
    have same : first.toClause table = second.toClause table := by
      rcases alike with rfl | ⟨chain, rfl⟩ | ⟨chain, rfl⟩
      · rfl
      · exact (toClause_group chain).symm
      · exact toClause_group chain
    rw [compiledFirst, compiledSecond] at same
    exact Except.ok.inj same

/-- The tokens are the same but for the place of the parentheses. -/
theorem toClause_eq_iff_moved_parentheses :
    let first : Expr := .and (.group (.or (.isNull "a" false) (.isNull "b" false)))
      (.comparison (.call "sum" [.field "c", .literal (.integer 1)]) .greater (.field "d"))
    let second : Expr := .or (.isNull "a" false) (.group (.and (.isNull "b" false)
      (.comparison (.call "sum" [.field "c", .literal (.integer 1)]) .greater (.field "d"))))
    first.Plain ∧ second.Plain ∧
      ∃ clause other, first.toClause "t" = .ok clause ∧ second.toClause "t" = .ok other ∧
        clause ≠ other := by
  intro first second
  have parsedFirst : parseLexemes {} [⟨.openParen, "(", 0⟩, ⟨.name "a", "a", 1⟩, ⟨.is, "is", 3⟩,
      ⟨.null, "null", 6⟩, ⟨.or, "or", 11⟩, ⟨.name "b", "b", 14⟩, ⟨.is, "is", 16⟩,
      ⟨.null, "null", 19⟩, ⟨.closeParen, ")", 23⟩, ⟨.and, "and", 25⟩, ⟨.name "sum", "sum", 29⟩,
      ⟨.openParen, "(", 32⟩, ⟨.name "c", "c", 33⟩, ⟨.comma, ",", 34⟩,
      ⟨.literal (.integer 1), "1", 35⟩, ⟨.closeParen, ")", 36⟩, ⟨.comparison .greater, ">", 38⟩,
      ⟨.name "d", "d", 40⟩] = .ok first := rfl
  have parsedSecond : parseLexemes {} [⟨.name "a", "a", 0⟩, ⟨.is, "is", 2⟩, ⟨.null, "null", 5⟩,
      ⟨.or, "or", 10⟩, ⟨.openParen, "(", 13⟩, ⟨.name "b", "b", 14⟩, ⟨.is, "is", 16⟩,
      ⟨.null, "null", 19⟩, ⟨.and, "and", 24⟩, ⟨.name "sum", "sum", 28⟩, ⟨.openParen, "(", 31⟩,
      ⟨.name "c", "c", 32⟩, ⟨.comma, ",", 33⟩, ⟨.literal (.integer 1), "1", 34⟩,
      ⟨.closeParen, ")", 35⟩, ⟨.comparison .greater, ">", 37⟩, ⟨.name "d", "d", 39⟩,
      ⟨.closeParen, ")", 40⟩] = .ok second := rfl
  have lowerArgs : ∀ arg ∈ [Operand.field "c", .literal (.integer 1)], arg.Lower :=
    List.forall_mem_cons.mpr ⟨.field _, List.forall_mem_singleton.mpr (.literal _)⟩
  have called : (Operand.call "sum" [.field "c", .literal (.integer 1)]).Lower :=
    .call (by decide) lowerArgs
  have plainFirst : first.Plain := ⟨⟨trivial, trivial⟩, called, by decide, .field _⟩
  have plainSecond : second.Plain := ⟨trivial, trivial, called, by decide, .field _⟩
  have told : ∀ {clause other : Clause}, first.toClause "t" = .ok clause →
      second.toClause "t" = .ok other → clause ≠ other := by
    intro clause other compiledFirst compiledSecond same
    have alike := (toClause_eq_iff parsedFirst parsedSecond plainFirst plainSecond compiledFirst
      compiledSecond).mp same
    simp [first, second] at alike
  exact ⟨plainFirst, plainSecond, _, _, rfl, rfl, told rfl rfl⟩

end QueryFilter
