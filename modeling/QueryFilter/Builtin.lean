import QueryFilter.Clause
import QueryFilter.Error
import QueryFilter.Suggestion

/-!
# Functions of filter expressions

The functions that an expression may call. Their names are matched without regard to case.
-/

namespace QueryFilter

inductive Builtin where
  | concat
  | sum
deriving DecidableEq, Repr

namespace Builtin

/-- The functions in the order in which they are listed and suggested. -/
def all : List Builtin := [.concat, .sum]

/-- The name of the function in an expression. -/
def name : Builtin → String
  | .concat => "concat"
  | .sum => "sum"

/-- The name of the function in a query. -/
def queryName : Builtin → String
  | .concat => "CONCAT"
  | .sum => "SUM"

def arity : Builtin → Nat
  | .concat => 2
  | .sum => 2

def takes (f : Builtin) (count : Nat) : Bool := count == f.arity

/-- Whether two names differ at most in the case of ASCII letters. -/
def sameName (a b : String) : Bool := a.toList.map Char.toLower == b.toList.map Char.toLower

/-- The function that a name in any mix of cases stands for. -/
def named? (name : String) : Option Builtin := all.find? fun f => sameName f.name name

def apply (f : Builtin) (args : List Scalar) : Except FilterError Scalar :=
  if f.takes args.length then .ok (.function f.queryName args)
  else .error (.wrongArity f.name f.arity args.length)

end Builtin

def Scalar.ofCall (name : String) (args : List Scalar) : Except FilterError Scalar :=
  match Builtin.named? name with
  | some f => f.apply args
  | none => .error (.unknownFunction name (suggestion name (Builtin.all.map Builtin.name)))

end QueryFilter
