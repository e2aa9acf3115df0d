import QueryFilter.Toml.Layout

/-!
# Strings of TOML

A string stands between single or double quotes, on one line or, between three of them, on several.
Double quotes admit escapes. The reader is a machine that takes a character at a time, so that the
text it has left is always a part of the text it was given. The writer takes the first form in which
the string can be told.
-/

namespace QueryFilter.Toml

/-! ### Reading -/

/-- The form of a string: its quote, and whether it is between three of them. -/
structure Quotes where
  mark : Char
  tripled : Bool

def Quotes.escapes (quotes : Quotes) : Bool := quotes.mark == '"'

/-- What the characters before the next one have begun. -/
inductive Mode where
  | plain
  | backslash
  /-- A code point, with the digits still to come and the value so far. -/
  | codePoint (left value : Nat)
  /-- A carriage return, as part of the string. -/
  | carriageReturn
  /-- A backslash and blanks, which a line end must follow. -/
  | beforeFold
  /-- A carriage return in a fold. -/
  | foldReturn
  /-- A backslash and a line end: blanks and line ends are left out. -/
  | fold
  /-- Some quotes in a string between three of them. -/
  | marks (count : Nat)

/-- What a character does: it adds to the string, or it ends the string, with or without being a
part of its text. -/
inductive Move where
  | advance (out : List Char) (mode : Mode)
  | close (out : List Char) (keep : Bool)
  | fail

def hexDigit? (c : Char) : Option Nat :=
  if c.isDigit then some (c.toNat - '0'.toNat)
  else if 'a' ≤ c ∧ c ≤ 'f' then some (c.toNat - 'a'.toNat + 10)
  else if 'A' ≤ c ∧ c ≤ 'F' then some (c.toNat - 'A'.toNat + 10)
  else none

def escape? (c : Char) : Option Char :=
  match c with
  | 'b' => some '\x08'
  | 't' => some '\t'
  | 'n' => some '\n'
  | 'f' => some '\x0c'
  | 'r' => some '\r'
  | '"' => some '"'
  | '\\' => some '\\'
  | _ => none

/-- The move on a character that nothing before it concerns. -/
def plainMove (quotes : Quotes) (c : Char) : Move :=
  if c = quotes.mark then if quotes.tripled then .advance [] (.marks 1) else .close [] false
  else if c = '\\' ∧ quotes.escapes then .advance [] .backslash
  else if c = '\n' ∧ quotes.tripled then .advance ['\n'] .plain
  else if c = '\r' ∧ quotes.tripled then .advance [] .carriageReturn
  else if isTextChar c then .advance [c] .plain
  else .fail

def Move.after (before : List Char) : Move → Move
  | .advance out mode => .advance (before ++ out) mode
  | .close out keep => .close (before ++ out) keep
  | .fail => .fail

def move (quotes : Quotes) (mode : Mode) (c : Char) : Move :=
  match mode with
  | .plain => plainMove quotes c
  | .backslash =>
    if c = 'u' then .advance [] (.codePoint 4 0)
    else if c = 'U' then .advance [] (.codePoint 8 0)
    else if isSpace c ∧ quotes.tripled then .advance [] .beforeFold
    else if c = '\n' ∧ quotes.tripled then .advance [] .fold
    else if c = '\r' ∧ quotes.tripled then .advance [] .foldReturn
    else
      match escape? c with
      | some escaped => .advance [escaped] .plain
      | none => .fail
  | .codePoint left value =>
    match hexDigit? c with
    | none => .fail
    | some digit =>
      let value := value * 16 + digit
      if left ≠ 1 then .advance [] (.codePoint (left - 1) value)
      else if value.isValidChar then .advance [Char.ofNat value] .plain
      else .fail
  | .carriageReturn => if c = '\n' then .advance ['\n'] .plain else .fail
  | .beforeFold =>
    if isSpace c then .advance [] .beforeFold
    else if c = '\n' then .advance [] .fold
    else if c = '\r' then .advance [] .foldReturn
    else .fail
  | .foldReturn => if c = '\n' then .advance [] .fold else .fail
  | .fold =>
    if isSpace c ∨ c = '\n' then .advance [] .fold
    else if c = '\r' then .advance [] .foldReturn
    else plainMove quotes c
  | .marks count =>
    if c = quotes.mark then
      if count = 4 then .close [c, c] false else .advance [] (.marks (count + 1))
    else if 3 ≤ count then .close (List.replicate (count - 3) quotes.mark) true
    else (plainMove quotes c).after (List.replicate count quotes.mark)

def quotedBody? (quotes : Quotes) (mode : Mode) : List Char → Option (List Char × List Char)
  | [] =>
    match mode with
    | .marks count =>
      if 3 ≤ count then some (List.replicate (count - 3) quotes.mark, []) else none
    | _ => none
  | c :: cs =>
    match move quotes mode c with
    | .advance out next =>
      (quotedBody? quotes next cs).map fun (value, rest) => (out ++ value, rest)
    | .close out keep => some (out, if keep then c :: cs else cs)
    | .fail => none

/-- A line end right behind three quotes is not a part of the string. -/
def dropFirstLineEnd (cs : List Char) : List Char := (lineEnd? cs).getD cs

def quoted? : List Char → Option (List Char × List Char)
  | a :: b :: c :: cs =>
    if a = '"' ∨ a = '\x27' then
      if a = b ∧ b = c then quotedBody? ⟨a, true⟩ .plain (dropFirstLineEnd cs)
      else quotedBody? ⟨a, false⟩ .plain (b :: c :: cs)
    else none
  | a :: cs => if a = '"' ∨ a = '\x27' then quotedBody? ⟨a, false⟩ .plain cs else none
  | [] => none

/-- Reads a string on one line, as it stands for a key. -/
def quotedLine? : List Char → Option (List Char × List Char)
  | a :: cs => if a = '"' ∨ a = '\x27' then quotedBody? ⟨a, false⟩ .plain cs else none
  | [] => none

/-! ### Writing -/

/-- A control character by its code point, in four digits. -/
def codePointEscape (c : Char) : List Char :=
  let digits := (Nat.toDigits 16 c.toNat).map Char.toUpper
  ['\\', 'u'] ++ List.replicate (4 - digits.length) '0' ++ digits

/-- How a character stands between double quotes on one line. -/
def escapedChar (c : Char) : List Char :=
  if c = '\x08' then ['\\', 'b']
  else if c = '\t' then ['\\', 't']
  else if c = '\n' then ['\\', 'n']
  else if c = '\x0c' then ['\\', 'f']
  else if c = '\r' then ['\\', 'r']
  else if c = '"' ∨ c = '\\' then ['\\', c]
  else if isControl c then codePointEscape c
  else [c]

def hasTriple (mark : Char) : List Char → Bool
  | a :: b :: c :: cs => (a == mark && b == mark && c == mark) || hasTriple mark (b :: c :: cs)
  | _ => false

/-- Whether a string needs escapes: it has a control character besides tabs and line feeds. -/
def needsEscapes (s : List Char) : Bool := s.any fun c => isControl c && c != '\t' && c != '\n'

/-- How characters stand between three double quotes, behind `marks` double quotes that are not
escaped. A line feed stands for itself, and a double quote does unless it were the third in a
row. -/
def escapedLines (marks : Nat) : List Char → List Char
  | [] => []
  | c :: cs =>
    if c = '\n' then '\n' :: escapedLines 0 cs
    else if c = '"' ∧ marks < 2 then '"' :: escapedLines (marks + 1) cs
    else escapedChar c ++ escapedLines 0 cs

def onOneLine (mark : Char) (body : List Char) : List Char := [mark] ++ body ++ [mark]

/-- Puts three quotes around a body, which starts on a line of its own if the string has several. -/
def onLines (mark : Char) (s body : List Char) : List Char :=
  let marks := List.replicate 3 mark
  marks ++ (if '\n' ∈ s then ['\n'] else []) ++ body ++ marks

/-- The text of a string. Of the forms in which no character but a tab is escaped the first that
fits is taken, and if none fits then double quotes. -/
def quotedText (s : List Char) : List Char :=
  let escapes := needsEscapes s
  let line := !escapes && !s.contains '\n'
  if line && !s.contains '"' && !s.contains '\\' then onOneLine '"' (s.flatMap escapedChar)
  else if line && !s.contains '\x27' then onOneLine '\x27' s
  else if !escapes && !s.contains '\\' && !hasTriple '"' s then onLines '"' s (escapedLines 0 s)
  else if !escapes && !hasTriple '\x27' s then onLines '\x27' s s
  else if s.contains '\n' then onLines '"' s (escapedLines 0 s)
  else onOneLine '"' (s.flatMap escapedChar)

end QueryFilter.Toml
