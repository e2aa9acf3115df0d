import QueryFilter.Sql.Piece

/-!
# SQL dialects

How identifiers are quoted and how placeholders are written.
-/

namespace QueryFilter

inductive Dialect where
  | mysql
  | postgres
  | sqlite
deriving DecidableEq, Repr

instance : Inhabited Dialect := ⟨.mysql⟩

namespace Dialect

def mark : Dialect → Char
  | .mysql => '\x60'
  | .postgres | .sqlite => '"'

/-- An identifier between marks, with every mark inside it written twice. -/
def quote (dialect : Dialect) (name : String) : List Char :=
  dialect.mark ::
    name.toList.flatMap (fun c => if c = dialect.mark then [c, c] else [c]) ++ [dialect.mark]

/-- The placeholder of the value with the given number, counted from one. -/
def placeholder (dialect : Dialect) (number : Nat) : List Char :=
  match dialect with
  | .postgres => '$' :: Nat.toDigits 10 number
  | .mysql | .sqlite => ['?']

/-- The text of pieces that follow a text with `bound` values. -/
def spell (dialect : Dialect) (bound : Nat) : List Piece → List Char
  | [] => []
  | .text text :: pieces => text.toList ++ dialect.spell bound pieces
  | .identifier name :: pieces => dialect.quote name ++ dialect.spell bound pieces
  | .value _ :: pieces => dialect.placeholder (bound + 1) ++ dialect.spell (bound + 1) pieces

end Dialect

end QueryFilter
