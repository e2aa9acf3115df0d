import QueryFilter.Clause

/-!
# Query text in pieces

The text of a clause in SQL, as pieces that do not depend on the dialect: fixed text, identifiers to
quote, and values to bind. The values never become text.
-/

namespace QueryFilter

inductive Piece where
  | text (text : String)
  | identifier (name : String)
  | value (literal : Literal)
deriving DecidableEq

mutual

def Scalar.pieces : Scalar → List Piece
  | .column table name => [.identifier table, .text ".", .identifier name]
  | .value literal => [.value literal]
  | .function name args =>
    .text name :: .text "(" :: [.text ","].intercalate (Scalar.argPieces args) ++ [.text ")"]

def Scalar.argPieces : List Scalar → List (List Piece)
  | [] => []
  | arg :: args => arg.pieces :: Scalar.argPieces args

end

def Relation.sql : Relation → String
  | .equal => "="
  | .notEqual => "<>"
  | .greaterThan => ">"
  | .greaterOrEqual => ">="
  | .lessThan => "<"
  | .lessOrEqual => "<="
  | .like => "like"

/-- The text between a condition and the one before it. -/
def Connector.sql : Connector → String
  | .and => " and "
  | .or => " or "

mutual

def Clause.pieces : Clause → List Piece
  | .compare left relation right =>
    left.pieces ++ [.text " ", .text relation.sql, .text " "] ++ right.pieces
  | .inList column values negated =>
    column.pieces ++ [.text (if negated then " not in (" else " in (")] ++
      [.text ", "].intercalate (values.map fun value => [.value value]) ++ [.text ")"]
  | .isNull column negated =>
    column.pieces ++ [.text (if negated then " is not null" else " is null")]
  | .nested [] => [.text "(", .text ")"]
  | .nested ((_, first) :: rest) =>
    .text "(" :: first.pieces ++ Clause.joinedPieces rest ++ [.text ")"]

/-- The conditions after the first, each behind its connector. -/
def Clause.joinedPieces : List (Connector × Clause) → List Piece
  | [] => []
  | (connector, clause) :: rest =>
    .text connector.sql :: clause.pieces ++ Clause.joinedPieces rest

end

end QueryFilter
