import QueryFilter.Clause
import QueryFilter.Json

/-!
# The JSON form of clauses

Every scalar and every clause is an object whose first field names its type.
-/

namespace QueryFilter

def Json.tagged (type : String) (fields : List (String × Json)) : Json :=
  .object (("type", .string type) :: fields)

mutual

def Scalar.toJson : Scalar → Json
  | .column table name => .tagged "column" [("table", .string table), ("name", .string name)]
  | .value literal => .tagged "value" [("value", literal.toJson)]
  | .function name args =>
    .tagged "function" [("name", .string name), ("args", .array (Scalar.listToJson args))]

def Scalar.listToJson : List Scalar → List Json
  | [] => []
  | scalar :: scalars => scalar.toJson :: Scalar.listToJson scalars

end

def Relation.jsonName : Relation → String
  | .equal => "equal"
  | .notEqual => "not_equal"
  | .greaterThan => "greater_than"
  | .greaterOrEqual => "greater_or_equal"
  | .lessThan => "less_than"
  | .lessOrEqual => "less_or_equal"
  | .like => "like"

def Connector.jsonName : Connector → String
  | .and => "and"
  | .or => "or"

mutual

def Clause.toJson : Clause → Json
  | .compare left relation right =>
    .tagged "compare" [("left", left.toJson), ("operator", .string relation.jsonName),
      ("right", right.toJson)]
  | .inList column values negated =>
    .tagged "in" [("column", column.toJson), ("values", .array (values.map Literal.toJson)),
      ("negated", .bool negated)]
  | .isNull column negated =>
    .tagged "null" [("column", column.toJson), ("negated", .bool negated)]
  | .nested conditions =>
    .tagged "nested" [("conditions", .array (Clause.conditionsToJson conditions))]

def Clause.conditionsToJson : List (Connector × Clause) → List Json
  | [] => []
  | (connector, clause) :: conditions =>
    .object [("boolean", .string connector.jsonName), ("clause", clause.toJson)] ::
      Clause.conditionsToJson conditions

end

end QueryFilter
