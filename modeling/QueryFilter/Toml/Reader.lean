import QueryFilter.Toml.DateTime
import QueryFilter.Toml.Number
import QueryFilter.Toml.Quoted
import QueryFilter.Toml.Table

/-!
# Reading TOML

A document is a sequence of statements, one a line: assignments, and headers that say which table
the assignments after them belong to. Arrays and inline tables nest, and keys have parts, up to a
limit.
-/

namespace QueryFilter.Toml

/-- How deep arrays and inline tables may nest, and how many parts a key may have. -/
def maxDepth : Nat := 79

/-! ### Keys -/

def isBareKeyChar (c : Char) : Bool := c.isAlphanum || c == '-' || c == '_'

/-- Reads one part of a key: a quoted string or a bare word. -/
def keyPart? (cs : List Char) : Option (String × List Char) :=
  match quotedLine? cs with
  | some (value, rest) => some (String.ofList value, rest)
  | none =>
    match cs.takeWhile isBareKeyChar with
    | [] => none
    | word => some (String.ofList word, cs.dropWhile isBareKeyChar)

/-- Reads the parts of a key, with points between them and blanks around them. -/
def keyParts? (cs : List Char) : Option (List String × List Char) :=
  match keyPart? (skipSpaces cs) with
  | none => none
  | some (part, rest) =>
    match skipSpaces rest with
    | '.' :: rest =>
      if rest.length < cs.length then
        (keyParts? rest).map fun (parts, rest) => (part :: parts, rest)
      else none
    | rest => some ([part], rest)
termination_by cs.length

/-- Reads a key as the tables on its way and its last part. -/
def key? (cs : List Char) : Option ((List String × String) × List Char) :=
  match keyParts? cs with
  | some (parts, rest) =>
    match parts.getLast? with
    | some last => if parts.length ≤ maxDepth then some ((parts.dropLast, last), rest) else none
    | none => none
  | none => none

/-! ### Values -/

def assignment? (value : List Char → Option (Value × List Char)) (cs : List Char) :
    Option (Assignment × List Char) := do
  let ((path, key), rest) ← key? cs
  let rest ← expect? '=' rest
  let (value, rest) ← value (skipSpaces rest)
  return (⟨path, key, value⟩, rest)

/-- Reads what is left of an array behind its bracket. -/
def array? (value : List Char → Option (Value × List Char)) (cs : List Char) :
    Option (Value × List Char) := do
  match ← skipLines? false cs with
  | ']' :: rest => return (.array [], rest)
  | rest =>
    let (items, rest) ← items? ']' true (skipLines? false) value rest
    return (.array items, rest)

/-- Reads what is left of an inline table behind its brace. -/
def inlineTable? (value : List Char → Option (Value × List Char)) (cs : List Char) :
    Option (Value × List Char) := do
  match skipSpaces cs with
  | '}' :: rest => return (.table [], rest)
  | rest =>
    let (assignments, rest) ← items? '}' false (some ∘ skipSpaces) (assignment? value) rest
    let entries ← Entries.assignAll? [] assignments
    return (.table (Entries.toValues entries), rest)

def string? (cs : List Char) : Option (Value × List Char) :=
  (quoted? cs).map fun (value, rest) => (.string (String.ofList value), rest)

def boolean? : List Char → Option (Value × List Char)
  | 't' :: 'r' :: 'u' :: 'e' :: rest => some (.boolean true, rest)
  | 'f' :: 'a' :: 'l' :: 's' :: 'e' :: rest => some (.boolean false, rest)
  | _ => none

/-- Reads a value in which arrays and inline tables nest at most `depth` deep. -/
def value? (depth : Nat) (cs : List Char) : Option (Value × List Char) :=
  match depth, cs with
  | 0, '[' :: _ => none
  | 0, '{' :: _ => none
  | depth + 1, '[' :: rest => array? (value? depth) rest
  | depth + 1, '{' :: rest => inlineTable? (value? depth) rest
  | _, cs => string? cs <|> dateTime? cs <|> float? cs <|> integer? cs <|> boolean? cs

/-! ### Documents -/

inductive Statement where
  | assignment (assignment : Assignment)
  | header (path : List String) (key : String) (inArray : Bool)

/-- Reads the statement of a line, if it has one. -/
def statement? (cs : List Char) : Option (Option Statement × List Char) :=
  match skipSpaces cs with
  | [] => some (none, [])
  | '[' :: '[' :: rest => do
    let ((path, key), rest) ← key? rest
    let rest ← (expect? ']' rest).bind (expect? ']')
    return (some (.header path key true), rest)
  | '[' :: rest => do
    let ((path, key), rest) ← key? rest
    let rest ← expect? ']' rest
    return (some (.header path key false), rest)
  | c :: rest =>
    if c = '#' ∨ c = '\n' ∨ c = '\r' then some (none, c :: rest)
    else (assignment? (value? maxDepth) (c :: rest)).map fun (assignment, rest) =>
      (some (.assignment assignment), rest)

def statements? (cs : List Char) : Option (List Statement) :=
  match statement? cs with
  | none => none
  | some (statement, rest) =>
    match restOfLine? rest with
    | none => none
    | some [] => some statement.toList
    | some next =>
      if next.length < cs.length then (statements? next).map (statement.toList ++ ·) else none
termination_by cs.length

/-- The assignments before the first header, and the sections. -/
def sections : List Statement → List Assignment × List Section
  | [] => ([], [])
  | .assignment a :: rest =>
    let (assignments, sections) := sections rest
    (a :: assignments, sections)
  | .header path key inArray :: rest =>
    let (assignments, sections) := sections rest
    ([], ⟨path, key, inArray, assignments⟩ :: sections)

/-- The entries of the table that a document describes. -/
def document? (statements : List Statement) : Option (List (String × Value)) := do
  let (assignments, sections) := sections statements
  let entries ← Entries.assignAll? [] assignments
  let entries ← sections.foldlM Entries.addSection? entries
  return Entries.toValues entries

/-- The entries of the table that a text describes. A byte order mark before it is passed. -/
def read? (text : String) : Option (List (String × Value)) :=
  let cs := match text.toList with
    | '\ufeff' :: cs => cs
    | cs => cs
  (statements? cs).bind document?

end QueryFilter.Toml
