import QueryFilter.Proofs.Parsing.Reading

/-!
# The grammar by recursive descent

A second parser, with one function for each rule of the grammar, over a position in the lexemes and
two counters. The depth is raised behind the parenthesis of a group or a call and compared with its
limit only then, and it is lowered again behind what it encloses. A run ends with its counters also
when it fails, and lowering the depth at zero is a failure of its own.
-/

namespace QueryFilter.Descent

structure Counters where
  position : Nat
  /-- The groups and calls that are open. -/
  depth : Nat
  /-- The predicates so far. -/
  terms : Nat
  /-- The greatest depth so far, which no function looks at. -/
  deepest : Nat

def Counters.initial : Counters := ⟨0, 0, 0, 0⟩

inductive Halt where
  | refused (error : FilterError)
  | underflow

abbrev Reader := EStateM Halt Counters

def refuse {α : Type} (error : FilterError) : Reader α := fun c => .error (.refused error) c

section

variable (limits : Limits) (lexemes : List Lexeme)

/-! ### Lexemes -/

def peek : Reader (Option Lexeme) := fun c => .ok lexemes[c.position]? c

def check (token : Token) : Reader Bool := do
  return (← peek lexemes).map Lexeme.token = some token

def advance : Reader Unit := fun c =>
  .ok () (if c.position < lexemes.length then { c with position := c.position + 1 } else c)

def unexpected {α : Type} : Reader α := do
  match ← peek lexemes with
  | some l => refuse (Parser.misplaced l)
  | none => refuse .unexpectedEnd

/-- Reads the token and gives its place. -/
def expect (token : Token) : Reader Nat := do
  match ← peek lexemes with
  | some l =>
    if l.token = token then
      advance lexemes
      return l.position
    else unexpected lexemes
  | none => unexpected lexemes

/-- Reads the parenthesis that closes the one at `opening`. -/
def closing (opening : Nat) : Reader Unit := do
  match ← peek lexemes with
  | none => refuse (.unclosedParenthesis opening)
  | some _ =>
    let _ ← expect lexemes .closeParen

/-! ### Counters -/

def enter : Reader Unit := fun c =>
  let entered := { c with depth := c.depth + 1, deepest := max c.deepest (c.depth + 1) }
  if entered.depth > limits.depth then .error (.refused (.nestedTooDeep limits.depth)) entered
  else .ok () entered

def leave : Reader Unit := fun c =>
  if c.depth = 0 then .error .underflow c else .ok () { c with depth := c.depth - 1 }

def countTerm : Reader Unit := fun c =>
  let counted := { c with terms := c.terms + 1 }
  if counted.terms > limits.terms then .error (.refused (.tooManyTerms limits.terms)) counted
  else .ok () counted

/-! ### Loops -/

/-- As long as the separator stands next, it and an item are read and the item is joined to those
before it. No more than `bound` items are read. -/
def loop {α β : Type} (separator : Token) (item : Reader α) (join : β → α → β) :
    Nat → β → Reader β
  | 0, joined => return joined
  | bound + 1, joined => do
    if ← check lexemes separator then
      advance lexemes
      let next ← item
      loop separator item join bound (join joined next)
    else return joined

/-- The items of a list behind its first one. There are no more of them than lexemes. -/
def behindFirst {α β : Type} (separator : Token) (item : Reader α) (join : β → α → β) (first : β) :
    Reader β :=
  loop lexemes separator item join lexemes.length first

/-! ### Operands -/

def literal : Reader Literal := do
  match (← peek lexemes).map Lexeme.token with
  | some (.literal value) =>
    advance lexemes
    return value
  | _ => unexpected lexemes

/-- The arguments between the parentheses of a call whose name is read, given a reader for each. -/
def arguments (nested : Reader Operand) : Reader (List Operand) := do
  if ← check lexemes .closeParen then return []
  else
    let first ← nested
    behindFirst lexemes .comma nested (fun args arg => args ++ [arg]) [first]

def callOf (nested : Reader Operand) (name : String) : Reader Operand := do
  let opening ← expect lexemes .openParen
  enter limits
  let args ← arguments lexemes nested
  closing lexemes opening
  leave
  return .call name args

def operandOf (nested : Reader Operand) : Reader Operand := do
  match (← peek lexemes).map Lexeme.token with
  | some (.name name) =>
    advance lexemes
    if ← check lexemes .openParen then callOf limits lexemes nested name
    else return .field name
  | _ =>
    let value ← literal lexemes
    return .literal value

/-- An operand at one of the last `levels` depths that the limit allows. -/
def operandWithin : Nat → Reader Operand
  | 0 => refuse (.nestedTooDeep limits.depth)
  | levels + 1 => operandOf limits lexemes (operandWithin levels)

/-! ### Predicates -/

def subject (left : Operand) (start : Nat) : Reader String :=
  match Parser.subjectField left start with
  | .ok field => return field
  | .error e => refuse e

def valueList : Reader (List Literal) := do
  let opening ← expect lexemes .openParen
  if ← check lexemes .closeParen then refuse (.emptyList opening)
  let first ← literal lexemes
  let values ←
    behindFirst lexemes .comma (literal lexemes) (fun values value => values ++ [value]) [first]
  closing lexemes opening
  return values

def nullTest (left : Operand) (start : Nat) : Reader Expr := do
  let field ← subject left start
  advance lexemes
  let negated ← check lexemes .not
  if negated then advance lexemes
  let _ ← expect lexemes .null
  return .isNull field negated

/-- A test for membership whose first word stands next. -/
def membership (left : Operand) (start : Nat) (negated : Bool) : Reader Expr := do
  let field ← subject left start
  advance lexemes
  let values ← valueList lexemes
  return .inList field negated values

def negatedMembership (left : Operand) (start : Nat) : Reader Expr := do
  let field ← subject left start
  advance lexemes
  let _ ← expect lexemes .isIn
  let values ← valueList lexemes
  return .inList field true values

/-- What follows the left side of a predicate that starts at `start`. -/
def behindSubject (operand : Reader Operand) (left : Operand) (start : Nat) : Reader Expr := do
  match (← peek lexemes).map Lexeme.token with
  | some (.comparison op) =>
    advance lexemes
    let right ← operand
    return .comparison left op right
  | some .is => nullTest lexemes left start
  | some .isIn => membership lexemes left start false
  | some .not => negatedMembership lexemes left start
  | some .notIn => membership lexemes left start true
  | _ => unexpected lexemes

def predicateOf (operand : Reader Operand) : Reader Expr := do
  countTerm limits
  let start := ((← peek lexemes).map Lexeme.position).getD 0
  let left ← operand
  behindSubject lexemes operand left start

/-! ### Expressions -/

def groupOf (inner : Reader Expr) : Reader Expr := do
  let opening ← expect lexemes .openParen
  enter limits
  let expr ← inner
  leave
  if ← check lexemes .closeParen then
    advance lexemes
    return .group expr
  else
    match ← peek lexemes with
    | none => refuse (.unclosedParenthesis opening)
    | some _ => unexpected lexemes

def termOf (operand : Reader Operand) (inner : Reader Expr) : Reader Expr := do
  if ← check lexemes .openParen then groupOf limits lexemes inner
  else predicateOf limits lexemes operand

def conjunctionOf (term : Reader Expr) : Reader Expr := do
  let first ← term
  behindFirst lexemes .and term .and first

def disjunctionOf (conjunction : Reader Expr) : Reader Expr := do
  let first ← conjunction
  behindFirst lexemes .or conjunction .or first

/-- An expression at one of the last `levels` depths that the limit allows. -/
def expressionWithin : Nat → Reader Expr
  | 0 => refuse (.nestedTooDeep limits.depth)
  | levels + 1 =>
    disjunctionOf lexemes (conjunctionOf lexemes
      (termOf limits lexemes (operandWithin limits lexemes (levels + 1)) (expressionWithin levels)))

/-! ### The parser -/

/-- The depths from the present one to the limit. -/
def Counters.levels (c : Counters) : Nat := limits.depth + 1 - c.depth

theorem Counters.levels_eq {limits : Limits} {c : Counters} (fits : c.depth ≤ limits.depth) :
    limits.depth + 1 = c.depth + c.levels limits := by
  unfold Counters.levels
  omega

def operand : Reader Operand := fun c => operandWithin limits lexemes (c.levels limits) c

/-- A call whose name is read. -/
def call (name : String) : Reader Operand := fun c =>
  callOf limits lexemes (operandWithin limits lexemes (c.levels limits - 1)) name c

def term : Reader Expr := fun c =>
  termOf limits lexemes (operandWithin limits lexemes (c.levels limits))
    (expressionWithin limits lexemes (c.levels limits - 1)) c

def expression : Reader Expr := fun c => expressionWithin limits lexemes (c.levels limits) c

def parse : Reader Expr := do
  if lexemes = [] then refuse .emptyExpression
  let expr ← expression limits lexemes
  match ← peek lexemes with
  | some l => refuse (Parser.misplaced l)
  | none => return expr

end

end QueryFilter.Descent
