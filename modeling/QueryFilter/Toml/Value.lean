import QueryFilter.Binary64.Basic

/-!
# TOML values
-/

namespace QueryFilter.Toml

inductive Value where
  | string (value : String)
  | integer (value : Int)
  | float (value : Binary64)
  | boolean (value : Bool)
  /-- A date, a time or both, as written. -/
  | dateTime (text : String)
  | array (items : List Value)
  | table (entries : List (String × Value))

end QueryFilter.Toml
