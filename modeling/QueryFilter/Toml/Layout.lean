/-!
# Blanks, comments and line ends of TOML

Every reader here and in the modules after this one takes the text that is left and returns what is
left behind what it read, or `none` if the text does not fit.
-/

namespace QueryFilter.Toml

def isControl (c : Char) : Bool := c.toNat < 0x20 || c == '\x7f'

def isSpace (c : Char) : Bool := c == ' ' || c == '\t'

/-- The characters of comments and strings: of the control characters only the tab. -/
def isTextChar (c : Char) : Bool := c == '\t' || !isControl c

def skipSpaces (cs : List Char) : List Char := cs.dropWhile isSpace

def expect? (c : Char) : List Char → Option (List Char)
  | d :: cs => if c = d then some cs else none
  | [] => none

/-- Reads a line feed, with a carriage return before it or not. -/
def lineEnd? : List Char → Option (List Char)
  | '\n' :: cs => some cs
  | '\r' :: '\n' :: cs => some cs
  | _ => none

/-- Passes a comment up to the end of its line. -/
def skipComment : List Char → List Char
  | '#' :: cs => cs.dropWhile isTextChar
  | cs => cs

/-- Reads what may stand behind a statement: blanks, a comment, and the end of the line or of the
text. -/
def restOfLine? (cs : List Char) : Option (List Char) :=
  match skipComment (skipSpaces cs) with
  | [] => some []
  | rest => lineEnd? rest

/-- Passes blanks, line ends and comments between the items of an array. -/
def skipLines? (inComment : Bool) : List Char → Option (List Char)
  | [] => if inComment then none else some []
  | '\n' :: cs => skipLines? false cs
  | '\r' :: '\n' :: cs => skipLines? false cs
  | c :: cs =>
    if inComment then if isTextChar c then skipLines? true cs else none
    else if isSpace c then skipLines? false cs
    else if c = '#' then skipLines? true cs
    else some (c :: cs)

/-- Reads items with commas between them up to a closing character, from the first item on. `skip`
passes what may stand around a comma, and a comma may follow the last item if `trailing`. -/
def items? {α : Type} (close : Char) (trailing : Bool) (skip : List Char → Option (List Char))
    (item : List Char → Option (α × List Char)) (cs : List Char) :
    Option (List α × List Char) :=
  match item cs with
  | none => none
  | some (first, rest) =>
    match skip rest with
    | some (',' :: rest) =>
      match skip rest with
      | some next =>
        if trailing ∧ next.head? = some close then some ([first], next.drop 1)
        else if next.length < cs.length then
          (items? close trailing skip item next).map fun (more, rest) => (first :: more, rest)
        else none
      | none => none
    | some (c :: rest) => if c = close then some ([first], rest) else none
    | _ => none
termination_by cs.length

end QueryFilter.Toml
