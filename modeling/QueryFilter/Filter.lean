import QueryFilter.Expr.Clause
import QueryFilter.Expr.Parser
import QueryFilter.KeySet

/-!
# Filters

A filter takes expressions over the allowed fields of one table, within limits, and turns them into
clauses.
-/

namespace QueryFilter

structure Filter where
  /-- The table that columns are qualified with. -/
  scope : String
  keys : KeySet
  limits : Limits := {}

namespace Filter

def expr (filter : Filter) (text : String) : Except FilterError Expr := do
  let expr ← parse filter.limits text
  expr.check filter.keys
  return expr

def clause (filter : Filter) (text : String) : Except FilterError Clause := do
  let expr ← filter.expr text
  expr.toClause filter.scope

/-- Adds the clause that a text means to a sink. A text that is rejected leaves the sink as it
is. -/
def addTo {σ : Type} [ClauseSink σ] (filter : Filter) (text : String) (sink : σ) :
    Except FilterError Unit × σ :=
  match filter.clause text with
  | .ok clause => (.ok (), ClauseSink.push sink clause)
  | .error e => (.error e, sink)

end Filter

end QueryFilter
