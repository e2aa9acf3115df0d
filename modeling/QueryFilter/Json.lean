import QueryFilter.Binary64.Text
import QueryFilter.Literal
import QueryFilter.Text.Integer

/-!
# JSON

JSON values and their compact text, with the fields of objects in the order given. The text of a
float always shows that it is one: it has a point or an exponent.
-/

namespace QueryFilter

inductive Json where
  | null
  | bool (value : Bool)
  | integer (value : Int)
  | float (value : Binary64)
  | string (value : String)
  | array (items : List Json)
  | object (fields : List (String × Json))

/-- A value to bind. A float that is not finite has no JSON form and becomes null. -/
def Literal.toJson : Literal → Json
  | .integer n => .integer n.toInt
  | .float x => if x.isFinite then .float x else .null
  | .string s => .string s

namespace Json

/-! ### Text -/

/-- A control character by its code point, in four digits. -/
def unicodeEscape (c : Char) : List Char :=
  let digits := Nat.toDigits 16 c.toNat
  ['\\', 'u'] ++ List.replicate (4 - digits.length) '0' ++ digits

def escapedChar (c : Char) : List Char :=
  if c = '"' || c = '\\' then ['\\', c]
  else if c = '\x08' then ['\\', 'b']
  else if c = '\x0c' then ['\\', 'f']
  else if c = '\n' then ['\\', 'n']
  else if c = '\r' then ['\\', 'r']
  else if c = '\t' then ['\\', 't']
  else if c.toNat < 0x20 then unicodeEscape c
  else [c]

def stringText (s : String) : List Char := ['"'] ++ s.toList.flatMap escapedChar ++ ['"']

/-- The power of ten behind a decimal. It always has a sign. -/
def exponentText (exponent : Int) : List Char :=
  ['e'] ++ (if 0 ≤ exponent then ['+'] else []) ++ Text.integerText exponent

/-- A decimal in full if there are at most sixteen digits before its point and at most four zeros
right behind it, otherwise with one digit before the point and an exponent. -/
def decimalText (d : Decimal) : List Char :=
  let digits := Nat.toDigits 10 d.digits
  let point := digits.length + d.exponent
  if 0 ≤ d.exponent ∧ point ≤ 16 then d.positional ++ ['.', '0']
  else if -5 < point ∧ point ≤ 16 then d.positional
  else digits.take 1 ++ (if digits.length = 1 then [] else '.' :: digits.drop 1) ++
    exponentText (point - 1)

def floatText (x : Binary64) : List Char := x.signed (decimalText (x.shortest .even))

mutual

def chars : Json → List Char
  | .null => ['n', 'u', 'l', 'l']
  | .bool true => ['t', 'r', 'u', 'e']
  | .bool false => ['f', 'a', 'l', 's', 'e']
  | .integer n => Text.integerText n
  | .float x => floatText x
  | .string s => stringText s
  | .array items => ['['] ++ [','].intercalate (itemChars items) ++ [']']
  | .object fields => ['{'] ++ [','].intercalate (fieldChars fields) ++ ['}']

def itemChars : List Json → List (List Char)
  | [] => []
  | item :: items => item.chars :: itemChars items

def fieldChars : List (String × Json) → List (List Char)
  | [] => []
  | (name, value) :: fields => (stringText name ++ [':'] ++ value.chars) :: fieldChars fields

end

def text (json : Json) : String := String.ofList json.chars

end Json

end QueryFilter
