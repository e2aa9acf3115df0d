import QueryFilter.Literal

/-!
# Clauses

What a filter expression means to a query: conditions on the columns of a table, with the literals
as values to bind. Clauses hold no query text. In a nested clause each condition has the connector
to the condition before it, and the connector of the first condition means nothing.
-/

namespace QueryFilter

/-- A value that a query computes for a row. -/
inductive Scalar where
  | column (table name : String)
  | value (literal : Literal)
  | function (name : String) (args : List Scalar)

/-- How the two sides of a comparison have to be related. -/
inductive Relation where
  | equal
  | notEqual
  | greaterThan
  | greaterOrEqual
  | lessThan
  | lessOrEqual
  /-- Matches a pattern, in which a percent sign stands for any text. -/
  | like
deriving DecidableEq, Repr

inductive Connector where
  | and
  | or
deriving DecidableEq, Repr

inductive Clause where
  | compare (left : Scalar) (relation : Relation) (right : Scalar)
  | inList (column : Scalar) (values : List Literal) (negated : Bool)
  | isNull (column : Scalar) (negated : Bool)
  | nested (conditions : List (Connector × Clause))

class ClauseSink (σ : Type) where
  push : σ → Clause → σ

instance : ClauseSink (List Clause) where
  push clauses clause := clauses ++ [clause]

end QueryFilter
