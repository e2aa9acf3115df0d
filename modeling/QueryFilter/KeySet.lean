import QueryFilter.Error
import QueryFilter.Expr
import QueryFilter.NameMap
import QueryFilter.Suggestion

/-!
# Allowed keys

The fields that an expression may refer to: every field, or the members of a set.
-/

namespace QueryFilter

inductive KeySet where
  | any
  | only (keys : NameSet)
deriving DecidableEq

namespace KeySet

def everyField : String := "*"

def ofList (keys : List String) : KeySet :=
  if everyField ∈ keys then .any else .only (NameSet.ofNames keys)

/-- Whether a field may be used. Letter case matters. -/
def allows : KeySet → String → Bool
  | .any, _ => true
  | .only keys, key => (keys.find? key).isSome

def checkField (keys : KeySet) (field : String) : Except FilterError Unit :=
  match keys with
  | .any => .ok ()
  | .only known =>
    if keys.allows field then .ok () else .error (.unknownKey field (suggestion field known.names))

end KeySet

/-! ### The first field that is not allowed -/

mutual

def Operand.check (keys : KeySet) : Operand → Except FilterError Unit
  | .field name => keys.checkField name
  | .literal _ => .ok ()
  | .call _ args => Operand.checkArgs keys args

def Operand.checkArgs (keys : KeySet) : List Operand → Except FilterError Unit
  | [] => .ok ()
  | arg :: args => do arg.check keys; Operand.checkArgs keys args

end

/-- Rejects an expression at its first field that is not allowed. -/
def Expr.check (keys : KeySet) : Expr → Except FilterError Unit
  | .comparison left _ right => do left.check keys; right.check keys
  | .inList field _ _ => keys.checkField field
  | .isNull field _ => keys.checkField field
  | .and left right => do left.check keys; right.check keys
  | .or left right => do left.check keys; right.check keys
  | .group inner => inner.check keys

end QueryFilter
