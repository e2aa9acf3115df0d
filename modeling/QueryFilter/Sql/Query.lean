import QueryFilter.Json
import QueryFilter.Sql.Dialect

/-!
# Queries

A query for the rows of one table that meet all of its clauses. Its text has a placeholder for every
value, and its bindings are the values in the same order.
-/

namespace QueryFilter

/-- A query, as what it depends on. The text is made from it when it is asked for. -/
structure Query where
  table : String
  dialect : Dialect := default
  clauses : List Clause := []

def Piece.value? : Piece → Option Literal
  | .value literal => some literal
  | _ => none

namespace Query

def push (query : Query) (clause : Clause) : Query :=
  { query with clauses := query.clauses ++ [clause] }

instance : ClauseSink Query := ⟨push⟩

/-- The text before the clauses and between them. -/
def wherePieces : List Clause → List Piece
  | [] => []
  | clauses => .text " where " :: [.text " and "].intercalate (clauses.map Clause.pieces)

def pieces (query : Query) : List Piece :=
  [.text "select * from ", .identifier query.table] ++ wherePieces query.clauses

def sql (query : Query) : String := String.ofList (query.dialect.spell 0 query.pieces)

/-- The values to bind, in the order of their placeholders. -/
def bindings (query : Query) : List Json := (query.pieces.filterMap Piece.value?).map Literal.toJson

end Query

end QueryFilter
