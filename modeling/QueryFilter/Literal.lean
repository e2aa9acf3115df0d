import QueryFilter.Text.Integer
import QueryFilter.Binary64.Text

/-!
# Literals

The constants of a filter expression. `Literal.text` is the text of the value itself, without
quotes; the text of a finite float always has a point, so that it cannot be taken for an integer.
-/

namespace QueryFilter

/-- An integer, a float or a string. An integer and a float are never the same literal. -/
inductive Literal where
  | integer (value : Int64)
  | float (value : Binary64)
  | string (value : String)
deriving DecidableEq

def Literal.text : Literal → String
  | .integer n => String.ofList (Text.integerText n.toInt)
  | .float x => String.ofList x.pointedText
  | .string s => s

end QueryFilter
