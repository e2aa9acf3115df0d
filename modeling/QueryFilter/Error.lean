/-!
# Why a filter expression is rejected

One constructor for each cause. Positions are byte offsets into the UTF-8 text of the expression.
`FilterError.category` sorts the causes for a caller, `FilterError.message` words them for a reader.
-/

namespace QueryFilter

/-- The cause of a rejection, with what its message needs. -/
inductive FilterError where
  | emptyExpression
  | unexpectedCharacter (character : Char) (position : Nat)
  | unterminatedString (position : Nat)
  | invalidNumber (text : String) (position : Nat)
  | unexpectedToken (text : String) (position : Nat)
  | unexpectedEnd
  /-- The position is that of the opening parenthesis. -/
  | unclosedParenthesis (position : Nat)
  | emptyList (position : Nat)
  | nestedTooDeep (limit : Nat)
  | tooManyTerms (limit : Nat)
  | unknownKey (key : String) (suggestion : Option String)
  | unknownFunction (name : String) (suggestion : Option String)
  | wrongArity (name : String) (expected found : Nat)
deriving DecidableEq, Repr

namespace FilterError

inductive Category where
  | malformed
  | unknownKey
  | unknownFunction
  | arityMismatch
  | nestingTooDeep
  | tooManyTerms
deriving DecidableEq, Repr

/-- The stable name of a category, for logs. -/
def Category.name : Category → String
  | .malformed => "malformed"
  | .unknownKey => "unknown_key"
  | .unknownFunction => "unknown_function"
  | .arityMismatch => "arity_mismatch"
  | .nestingTooDeep => "nesting_too_deep"
  | .tooManyTerms => "too_many_terms"

/-- Every error in the spelling of an expression is of one category. -/
def category : FilterError → Category
  | .emptyExpression | .unexpectedCharacter .. | .unterminatedString .. | .invalidNumber ..
  | .unexpectedToken .. | .unexpectedEnd | .unclosedParenthesis .. | .emptyList .. => .malformed
  | .nestedTooDeep .. => .nestingTooDeep
  | .tooManyTerms .. => .tooManyTerms
  | .unknownKey .. => .unknownKey
  | .unknownFunction .. => .unknownFunction
  | .wrongArity .. => .arityMismatch

def hint : Option String → String
  | some suggestion => s!". Did you mean '{suggestion}'?"
  | none => ""

def message : FilterError → String
  | .emptyExpression => "filter expression is empty"
  | .unexpectedCharacter c position => s!"unexpected character '{c}' at position {position}"
  | .unterminatedString position => s!"unterminated string starting at position {position}"
  | .invalidNumber text position => s!"invalid number '{text}' at position {position}"
  | .unexpectedToken text position => s!"unexpected token '{text}' at position {position}"
  | .unexpectedEnd => "unexpected end of expression"
  | .unclosedParenthesis position => s!"unclosed parenthesis opened at position {position}"
  | .emptyList position => s!"empty value list at position {position}"
  | .nestedTooDeep limit => s!"expression nested deeper than {limit} levels"
  | .tooManyTerms limit => s!"expression has more than {limit} predicates"
  | .unknownKey key suggestion => s!"unknown key '{key}'{hint suggestion}"
  | .unknownFunction name suggestion => s!"unknown function '{name}'{hint suggestion}"
  | .wrongArity name expected found =>
    s!"function '{name}' expects {expected} argument(s), got {found}"

end FilterError

end QueryFilter
