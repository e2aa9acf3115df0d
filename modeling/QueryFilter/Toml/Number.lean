import QueryFilter.Binary64.Nearest
import QueryFilter.Toml.Value

/-!
# Numbers of TOML

Digits may have single underscores between them. An integer is decimal, without leading zeros, or
has a radix of 16, 8 or 2; it fits 64 bits. A float has a fraction, an exponent or both; one that
is too large is refused, as long as it is positive.
-/

namespace QueryFilter.Toml

/-- Cuts off digits, each after at most one underscore. -/
def moreDigits (isDigit : Char → Bool) : List Char → List Char × List Char
  | '_' :: c :: cs =>
    if isDigit c then
      let (digits, rest) := moreDigits isDigit cs
      (c :: digits, rest)
    else ([], '_' :: c :: cs)
  | c :: cs =>
    if isDigit c then
      let (digits, rest) := moreDigits isDigit cs
      (c :: digits, rest)
    else ([], c :: cs)
  | [] => ([], [])

def digits? (isDigit : Char → Bool) : List Char → Option (List Char × List Char)
  | c :: cs =>
    if isDigit c then
      let (digits, rest) := moreDigits isDigit cs
      some (c :: digits, rest)
    else none
  | [] => none

/-- Reads a sign, if there is one, and says whether it is a minus. -/
def sign : List Char → Bool × List Char
  | '-' :: cs => (true, cs)
  | '+' :: cs => (false, cs)
  | cs => (false, cs)

/-- Reads decimal digits without leading zeros. -/
def wholeDigits? (cs : List Char) : Option (List Char × List Char) :=
  match digits? Char.isDigit cs with
  | some ('0' :: _ :: _, _) => none
  | read => read

/-! ### Integers -/

def integerInRange? (value : Int) : Option Int :=
  if Int64.minValue.toInt ≤ value ∧ value ≤ Int64.maxValue.toInt then some value else none

def isHexDigit (c : Char) : Bool := c.isDigit || ('a' ≤ c && c ≤ 'f') || ('A' ≤ c && c ≤ 'F')

def digitValue (c : Char) : Nat :=
  if c.isDigit then c.toNat - '0'.toNat else c.toLower.toNat - 'a'.toNat + 10

def digitsValue (radix : Nat) (digits : List Char) : Nat :=
  digits.foldl (fun value c => value * radix + digitValue c) 0

def radixInteger? (radix : Nat) (isDigit : Char → Bool) (cs : List Char) :
    Option (Value × List Char) :=
  (digits? isDigit cs).bind fun (digits, rest) =>
    (integerInRange? (digitsValue radix digits)).map fun value => (.integer value, rest)

def decimalInteger? (cs : List Char) : Option (Value × List Char) :=
  let (negative, cs) := sign cs
  (wholeDigits? cs).bind fun (digits, rest) =>
    let magnitude : Int := digitsValue 10 digits
    (integerInRange? (if negative then -magnitude else magnitude)).map fun value =>
      (.integer value, rest)

def integer? : List Char → Option (Value × List Char)
  | '0' :: 'x' :: cs => radixInteger? 16 isHexDigit cs
  | '0' :: 'o' :: cs => radixInteger? 8 (fun c => '0' ≤ c && c ≤ '7') cs
  | '0' :: 'b' :: cs => radixInteger? 2 (fun c => c == '0' || c == '1') cs
  | cs => decimalInteger? cs

/-! ### Floats -/

def fraction (cs : List Char) : List Char × List Char :=
  match cs with
  | '.' :: rest => (digits? Char.isDigit rest).getD ([], cs)
  | _ => ([], cs)

def exponent? : List Char → Option (Int × List Char)
  | c :: cs =>
    if c = 'e' ∨ c = 'E' then
      let (negative, cs) := sign cs
      (digits? Char.isDigit cs).map fun (digits, rest) =>
        let magnitude : Int := digitsValue 10 digits
        (if negative then -magnitude else magnitude, rest)
    else none
  | [] => none

def finiteFloat? (cs : List Char) : Option (Value × List Char) :=
  let (negative, cs) := sign cs
  match wholeDigits? cs with
  | none => none
  | some (whole, rest) =>
    let (places, rest) := fraction rest
    let power? := exponent? rest
    if places = [] ∧ power?.isNone then none
    else
      let (power, rest) := power?.getD (0, rest)
      let digits := digitsValue 10 (whole ++ places)
      let value := Binary64.ofScientific negative digits (power - places.length)
      if value.isFinite ∨ negative then some (.float value, rest) else none

/-- Reads infinity or a value that is no number, with a sign or not. -/
def specialFloat? (cs : List Char) : Option (Value × List Char) :=
  let (negative, cs) := sign cs
  match cs with
  | 'i' :: 'n' :: 'f' :: rest =>
    some (.float (Binary64.ofMagnitude negative Binary64.infiniteMagnitude), rest)
  | 'n' :: 'a' :: 'n' :: rest =>
    some (.float (Binary64.ofMagnitude negative (Binary64.infiniteMagnitude + 1)), rest)
  | _ => none

def float? (cs : List Char) : Option (Value × List Char) := finiteFloat? cs <|> specialFloat? cs

end QueryFilter.Toml
