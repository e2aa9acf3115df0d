import QueryFilter.Expr
import QueryFilter.Token.Lexer

/-!
# From lexemes to an expression

The grammar, with `and` before `or` and both from the left:

    expression ::= conjunction ("or" conjunction)*
    conjunction ::= term ("and" term)*
    term ::= "(" expression ")"
           | field "is" ["not"] "null"
           | field (["not"] "in" | "!=[]") "(" literal ("," literal)* ")"
           | operand comparison operand
    operand ::= field | literal | name "(" [operand ("," operand)*] ")"

The parser reads one lexeme at a time. Its state is what has been read so far: the groups and calls
that are open, the unfinished chain of terms in the innermost group, and the phase, which says what
may come next. So a text is parsed by a fold over its lexemes, and every error is either that of
one step or that of a state in which the text must not end.
-/

namespace QueryFilter

/-- How deep groups and calls may nest, and how many predicates an expression may have. -/
structure Limits where
  depth : Nat := 32
  terms : Nat := 256
deriving DecidableEq, Repr

namespace Parser

/-! ### What has been read -/

/-- A chain of terms that ends in `and`, `or` or nothing: the finished disjunction before its last
`or`, and the finished conjunction before its last `and`. -/
structure Chain where
  disjunction : Option Expr
  conjunction : Option Expr

namespace Chain

def empty : Chain := ⟨none, none⟩

def conjunct (chain : Chain) (term : Expr) : Expr :=
  match chain.conjunction with
  | some left => .and left term
  | none => term

def close (chain : Chain) (term : Expr) : Expr :=
  match chain.disjunction with
  | some left => .or left (chain.conjunct term)
  | none => chain.conjunct term

def followedByAnd (chain : Chain) (term : Expr) : Chain :=
  { chain with conjunction := some (chain.conjunct term) }

def followedByOr (chain : Chain) (term : Expr) : Chain := ⟨some (chain.close term), none⟩

end Chain

/-- A group that is still open: the chain around it and where its parenthesis stands. -/
structure OpenGroup where
  outer : Chain
  position : Nat

/-- A call that is still open: its name, where its parenthesis stands and its arguments so far. -/
structure OpenCall where
  name : String
  position : Nat
  args : List Operand

inductive Slot where
  /-- The left side of a term, with the place where it starts. -/
  | left (position : Nat)
  | right (left : Operand) (op : Comparison)
  | argument (call : OpenCall) (outer : Slot)

/-- A list of values that is still open: its field and where its parenthesis stands. -/
structure OpenList where
  field : String
  negated : Bool
  position : Nat

inductive Phase where
  | term
  | operand (slot : Slot)
  /-- After a name: a parenthesis makes it a call, anything else a field. -/
  | name (name : String) (slot : Slot)
  /-- After the parenthesis of a call: the first argument or the end. -/
  | firstArgument (call : OpenCall) (outer : Slot)
  /-- After an argument: a comma or the end of the call. -/
  | afterArgument (call : OpenCall) (outer : Slot)
  /-- After the left side of a term: its operator. -/
  | operator (left : Operand) (position : Nat)
  /-- After `is`, and after `is not`. -/
  | null (field : String) (negated : Bool)
  /-- After `not`: the word `in`. -/
  | inWord (field : String)
  /-- After `in`: the parenthesis of the list. -/
  | list (field : String) (negated : Bool)
  /-- After the parenthesis of a list: its first value. -/
  | firstValue (list : OpenList)
  /-- After a comma in a list: a value. -/
  | value (list : OpenList) (values : List Literal)
  /-- After a value: a comma or the end of the list. -/
  | afterValue (list : OpenList) (values : List Literal)
  | complete (term : Expr)

/-- All that the rest of the text depends on. The open groups are listed from the innermost. -/
structure State where
  groups : List OpenGroup
  chain : Chain
  depth : Nat
  terms : Nat
  phase : Phase

def State.initial : State := ⟨[], .empty, 0, 0, .term⟩

/-! ### Steps -/

def Slot.fill (operand : Operand) : Slot → Phase
  | .left position => .operator operand position
  | .right first op => .complete (.comparison first op operand)
  | .argument call outer => .afterArgument { call with args := call.args ++ [operand] } outer

/-- A name that no parenthesis follows is a field. -/
def Phase.settled : Phase → Phase
  | .name text slot => slot.fill (.field text)
  | phase => phase

def misplaced (l : Lexeme) : FilterError := .unexpectedToken l.text l.position

def State.nest (limits : Limits) (s : State) : Except FilterError State :=
  if s.depth + 1 > limits.depth then .error (.nestedTooDeep limits.depth)
  else .ok { s with depth := s.depth + 1 }

def State.unnest (s : State) : State := { s with depth := s.depth - 1 }

def State.countPredicate (limits : Limits) (s : State) : Except FilterError State :=
  if s.terms + 1 > limits.terms then .error (.tooManyTerms limits.terms)
  else .ok { s with terms := s.terms + 1 }

/-- The field that a test for null or for values is about. A literal or a call there is an error
that quotes the value or the name. -/
def subjectField (operand : Operand) (position : Nat) : Except FilterError String :=
  match operand with
  | .field name => .ok name
  | .literal value => .error (.unexpectedToken value.text position)
  | .call name _ => .error (.unexpectedToken name position)

def startOperand (slot : Slot) (l : Lexeme) : Except FilterError Phase :=
  match l.token with
  | .name name => .ok (.name name slot)
  | .literal value => .ok (slot.fill (.literal value))
  | _ => .error (misplaced l)

def readOperator (left : Operand) (position : Nat) (l : Lexeme) : Except FilterError Phase :=
  match l.token with
  | .comparison op => .ok (.operand (.right left op))
  | .is => (subjectField left position).map fun field => .null field false
  | .isIn => (subjectField left position).map fun field => .list field false
  | .notIn => (subjectField left position).map fun field => .list field true
  | .not => (subjectField left position).map .inWord
  | _ => .error (misplaced l)

def readValue (list : OpenList) (values : List Literal) (l : Lexeme) : Except FilterError Phase :=
  match l.token with
  | .literal value => .ok (.afterValue list (values ++ [value]))
  | _ => .error (misplaced l)

def State.afterTerm (s : State) (term : Expr) (l : Lexeme) : Except FilterError State :=
  match l.token, s.groups with
  | .and, _ => .ok { s with chain := s.chain.followedByAnd term, phase := .term }
  | .or, _ => .ok { s with chain := s.chain.followedByOr term, phase := .term }
  | .closeParen, group :: groups =>
    .ok { s.unnest with
      groups := groups, chain := group.outer
      phase := .complete (.group (s.chain.close term)) }
  | _, _ => .error (misplaced l)

/-- The state after a lexeme, in a phase that is settled. -/
def State.advance (limits : Limits) (s : State) (l : Lexeme) : Except FilterError State :=
  match s.phase with
  | .term =>
    match l.token with
    | .openParen => do
      let s' ← s.nest limits
      .ok { s' with groups := ⟨s.chain, l.position⟩ :: s.groups, chain := .empty, phase := .term }
    | _ => do
      let s' ← s.countPredicate limits
      let phase ← startOperand (.left l.position) l
      .ok { s' with phase := phase }
  | .operand slot => (startOperand slot l).map fun phase => { s with phase := phase }
  | .name name slot =>
    match l.token with
    | .openParen => do
      let s' ← s.nest limits
      .ok { s' with phase := .firstArgument ⟨name, l.position, []⟩ slot }
    | _ => .error (misplaced l)
  | .firstArgument call outer =>
    match l.token with
    | .closeParen => .ok { s.unnest with phase := outer.fill (.call call.name call.args) }
    | _ => (startOperand (.argument call outer) l).map fun phase => { s with phase := phase }
  | .afterArgument call outer =>
    match l.token with
    | .comma => .ok { s with phase := .operand (.argument call outer) }
    | .closeParen => .ok { s.unnest with phase := outer.fill (.call call.name call.args) }
    | _ => .error (misplaced l)
  | .operator left position =>
    (readOperator left position l).map fun phase => { s with phase := phase }
  | .null field negated =>
    match l.token with
    | .null => .ok { s with phase := .complete (.isNull field negated) }
    | .not => if negated then .error (misplaced l) else .ok { s with phase := .null field true }
    | _ => .error (misplaced l)
  | .inWord field =>
    match l.token with
    | .isIn => .ok { s with phase := .list field true }
    | _ => .error (misplaced l)
  | .list field negated =>
    match l.token with
    | .openParen => .ok { s with phase := .firstValue ⟨field, negated, l.position⟩ }
    | _ => .error (misplaced l)
  | .firstValue list =>
    match l.token with
    | .closeParen => .error (.emptyList list.position)
    | _ => (readValue list [] l).map fun phase => { s with phase := phase }
  | .value list values => (readValue list values l).map fun phase => { s with phase := phase }
  | .afterValue list values =>
    match l.token with
    | .comma => .ok { s with phase := .value list values }
    | .closeParen => .ok { s with phase := .complete (.inList list.field list.negated values) }
    | _ => .error (misplaced l)
  | .complete term => s.afterTerm term l

def State.step (limits : Limits) (s : State) (l : Lexeme) : Except FilterError State :=
  match s.phase, l.token with
  | .name .., .openParen => s.advance limits l
  | _, _ => { s with phase := s.phase.settled }.advance limits l

def State.finish (limits : Limits) (s : State) : Except FilterError Expr :=
  match s.phase.settled with
  | .term => (s.countPredicate limits).bind fun _ => .error .unexpectedEnd
  | .afterArgument call _ => .error (.unclosedParenthesis call.position)
  | .afterValue list _ => .error (.unclosedParenthesis list.position)
  | .complete term =>
    match s.groups with
    | [] => .ok (s.chain.close term)
    | group :: _ => .error (.unclosedParenthesis group.position)
  | _ => .error .unexpectedEnd

end Parser

def parseLexemes (limits : Limits) (lexemes : List Lexeme) : Except FilterError Expr :=
  if lexemes = [] then .error .emptyExpression
  else do
    let s ← lexemes.foldlM (Parser.State.step limits) Parser.State.initial
    s.finish limits

def parse (limits : Limits) (text : String) : Except FilterError Expr :=
  (tokenize text).bind (parseLexemes limits)

end QueryFilter
