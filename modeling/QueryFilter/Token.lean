import QueryFilter.Comparison
import QueryFilter.Literal
import QueryFilter.Text.Quoted

/-!
# Tokens

The tokens of a filter expression, and lexemes: tokens with the text they were read from and the
place where it starts.
-/

namespace QueryFilter

/-- What a lexeme means, whatever its spelling. -/
inductive Token where
  /-- A field or a function. -/
  | name (text : String)
  | literal (value : Literal)
  | comparison (op : Comparison)
  | isIn
  | notIn
  | not
  | is
  | null
  | and
  | or
  | openParen
  | closeParen
  | comma
deriving DecidableEq

/-- The text that names a token, the same for all its spellings. -/
def Token.label : Token → String
  | .name text => text
  | .literal (.integer n) => String.ofList (Text.integerText n.toInt)
  | .literal (.float x) => String.ofList x.plainText
  | .literal (.string s) => Text.quoted s
  | .comparison op => op.word
  | .isIn => "in"
  | .notIn => "!=[]"
  | .not => "not"
  | .is => "is"
  | .null => "null"
  | .and => "and"
  | .or => "or"
  | .openParen => "("
  | .closeParen => ")"
  | .comma => ","

/-- A token, its source text and the byte offset of that text. -/
structure Lexeme where
  token : Token
  text : String
  position : Nat
deriving DecidableEq

end QueryFilter
