/-!
# Comparison operators of filter expressions
-/

namespace QueryFilter

/-- The last three look for the right side as a text in the left side. -/
inductive Comparison where
  | equal
  | notEqual
  | greater
  | greaterOrEqual
  | less
  | lessOrEqual
  | contains
  | startsWith
  | endsWith
deriving DecidableEq, Repr

def Comparison.word : Comparison → String
  | .equal => "eq"
  | .notEqual => "ne"
  | .greater => "gt"
  | .greaterOrEqual => "gte"
  | .less => "lt"
  | .lessOrEqual => "lte"
  | .contains => "ct"
  | .startsWith => "sw"
  | .endsWith => "ew"

end QueryFilter
