import QueryFilter.Builtin
import QueryFilter.Expr

/-!
# From an expression to a clause

Chains of `and` and `or` become one list of conditions, in source order, and every group becomes a
nested clause. Columns are qualified with one table.
-/

namespace QueryFilter

/-! ### Operands -/

mutual

def Operand.toScalar (table : String) : Operand → Except FilterError Scalar
  | .field name => .ok (.column table name)
  | .literal value => .ok (.value value)
  | .call name args => do Scalar.ofCall name (← Operand.toScalars table args)

def Operand.toScalars (table : String) : List Operand → Except FilterError (List Scalar)
  | [] => .ok []
  | arg :: args => do
    let first ← arg.toScalar table
    let rest ← Operand.toScalars table args
    .ok (first :: rest)

end

/-! ### Patterns -/

inductive Pattern where
  | anywhere
  | atStart
  | atEnd
deriving DecidableEq, Repr

namespace Pattern

/-- What stands for any text in a pattern. -/
def any : String := "%"

def text (pattern : Pattern) (sought : String) : String :=
  match pattern with
  | .anywhere => any ++ sought ++ any
  | .atStart => sought ++ any
  | .atEnd => any ++ sought

/-- The parts that a query joins to the pattern for a value it computes. -/
def parts (pattern : Pattern) (sought : Scalar) : List Scalar :=
  let any := Scalar.value (.string any)
  match pattern with
  | .anywhere => [any, sought, any]
  | .atStart => [sought, any]
  | .atEnd => [any, sought]

end Pattern

/-- The pattern for an operand: one value for a literal, otherwise joined by the query. -/
def Operand.toPattern (table : String) (pattern : Pattern) : Operand → Except FilterError Scalar
  | .literal value => .ok (.value (.string (pattern.text value.text)))
  | operand => do
    let sought ← operand.toScalar table
    .ok (.function Builtin.concat.queryName (pattern.parts sought))

/-! ### Predicates -/

/-- What an operator becomes: a relation, and a pattern if its right side is one. -/
def Comparison.relation : Comparison → Relation × Option Pattern
  | .equal => (.equal, none)
  | .notEqual => (.notEqual, none)
  | .greater => (.greaterThan, none)
  | .greaterOrEqual => (.greaterOrEqual, none)
  | .less => (.lessThan, none)
  | .lessOrEqual => (.lessOrEqual, none)
  | .contains => (.like, some .anywhere)
  | .startsWith => (.like, some .atStart)
  | .endsWith => (.like, some .atEnd)

def comparisonClause (table : String) (left : Operand) (op : Comparison) (right : Operand) :
    Except FilterError Clause := do
  let leftScalar ← left.toScalar table
  let rightScalar ← match op.relation.2 with
    | none => right.toScalar table
    | some pattern => right.toPattern table pattern
  .ok (.compare leftScalar op.relation.1 rightScalar)

/-! ### Combinations -/

/-- The conditions of an expression, the first of which is joined by `connector`. -/
def Expr.toConditions (table : String) (connector : Connector) :
    Expr → Except FilterError (List (Connector × Clause))
  | .and left right => do
    let first ← left.toConditions table connector
    let second ← right.toConditions table .and
    .ok (first ++ second)
  | .or left right => do
    let first ← left.toConditions table connector
    let second ← right.toConditions table .or
    .ok (first ++ second)
  | .group inner => do
    let conditions ← inner.toConditions table .and
    .ok [(connector, .nested conditions)]
  | .comparison left op right => do
    let clause ← comparisonClause table left op right
    .ok [(connector, clause)]
  | .inList field negated values =>
    .ok [(connector, .inList (.column table field) values negated)]
  | .isNull field negated => .ok [(connector, .isNull (.column table field) negated)]

/-- The clause of an expression. A chain and a group become a nested clause. -/
def Expr.toClause (table : String) : Expr → Except FilterError Clause
  | .comparison left op right => comparisonClause table left op right
  | .inList field negated values => .ok (.inList (.column table field) values negated)
  | .isNull field negated => .ok (.isNull (.column table field) negated)
  | .group inner => (inner.toConditions table .and).map .nested
  | chain => (chain.toConditions table .and).map .nested

/-- Adds the clause of an expression to a sink. An expression without a clause leaves the sink as
it is. -/
def Expr.addTo {σ : Type} [ClauseSink σ] (expr : Expr) (table : String) (sink : σ) :
    Except FilterError Unit × σ :=
  match expr.toClause table with
  | .ok clause => (.ok (), ClauseSink.push sink clause)
  | .error e => (.error e, sink)

end QueryFilter
