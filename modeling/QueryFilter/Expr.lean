import QueryFilter.Comparison
import QueryFilter.Literal

/-!
# Filter expressions

An expression is a predicate or a combination of expressions. `Expr.group` stands for parentheses,
which are kept because they decide the nesting of the compiled clause.
-/

namespace QueryFilter

/-- A side of a comparison, or an argument of a call. -/
inductive Operand where
  | field (name : String)
  | literal (value : Literal)
  | call (name : String) (args : List Operand)

inductive Expr where
  | comparison (left : Operand) (op : Comparison) (right : Operand)
  | inList (field : String) (negated : Bool) (values : List Literal)
  | isNull (field : String) (negated : Bool)
  | and (left right : Expr)
  | or (left right : Expr)
  | group (inner : Expr)

/-! ### The fields that an expression refers to, in source order -/

mutual

def Operand.fields : Operand → List String
  | .field name => [name]
  | .literal _ => []
  | .call _ args => Operand.fieldsOfArgs args

def Operand.fieldsOfArgs : List Operand → List String
  | [] => []
  | arg :: args => arg.fields ++ Operand.fieldsOfArgs args

end

def Expr.fields : Expr → List String
  | .comparison left _ right => left.fields ++ right.fields
  | .inList field _ _ => [field]
  | .isNull field _ => [field]
  | .and left right => left.fields ++ right.fields
  | .or left right => left.fields ++ right.fields
  | .group inner => inner.fields

end QueryFilter
