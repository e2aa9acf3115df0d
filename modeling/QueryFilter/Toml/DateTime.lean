import QueryFilter.Toml.Value

/-!
# Dates and times of TOML

A date, a time, or a date with a time and perhaps an offset. The parts have a fixed number of digits
and lie within the calendar and the clock, which admits a leap second.
-/

namespace QueryFilter.Toml

/-- Reads exactly two digits, up to a greatest value. -/
def twoDigits? (greatest : Nat) : List Char → Option (Nat × List Char)
  | a :: b :: cs =>
    if a.isDigit ∧ b.isDigit then
      let value := Nat.ofDigitChars 10 [a, b] 0
      if value ≤ greatest then some (value, cs) else none
    else none
  | _ => none

def daysOf (year month : Nat) : Nat :=
  match month with
  | 2 => if year % 4 = 0 ∧ (year % 100 ≠ 0 ∨ year % 400 = 0) then 29 else 28
  | 4 | 6 | 9 | 11 => 30
  | _ => 31

def date? : List Char → Option (List Char)
  | a :: b :: cs =>
    match twoDigits? 99 [a, b], twoDigits? 99 cs with
    | some (century, _), some (years, '-' :: cs) =>
      match twoDigits? 12 cs with
      | some (month, '-' :: cs) =>
        match twoDigits? (daysOf (century * 100 + years) month) cs with
        | some (day, rest) => if month = 0 ∨ day = 0 then none else some rest
        | none => none
      | _ => none
    | _, _ => none
  | _ => none

/-- Passes a point with digits behind it. -/
def skipSecondFraction : List Char → List Char
  | '.' :: c :: cs => if c.isDigit then cs.dropWhile Char.isDigit else '.' :: c :: cs
  | cs => cs

def time? (cs : List Char) : Option (List Char) :=
  match twoDigits? 23 cs with
  | some (_, ':' :: cs) =>
    match twoDigits? 59 cs with
    | some (_, ':' :: cs) => (twoDigits? 60 cs).map fun (_, rest) => skipSecondFraction rest
    | _ => none
  | _ => none

def skipOffset (cs : List Char) : List Char :=
  match cs with
  | c :: rest =>
    if c = 'Z' ∨ c = 'z' then rest
    else if c = '+' ∨ c = '-' then
      match twoDigits? 23 rest with
      | some (_, ':' :: rest) => ((twoDigits? 59 rest).map Prod.snd).getD cs
      | _ => cs
    else cs
  | [] => []

def skipTime (cs : List Char) : List Char :=
  match cs with
  | c :: rest =>
    if c = 'T' ∨ c = 't' ∨ c = ' ' then ((time? rest).map skipOffset).getD cs else cs
  | [] => []

def dateTime? (cs : List Char) : Option (Value × List Char) :=
  (((date? cs).map skipTime) <|> time? cs).map fun rest =>
    (.dateTime (String.ofList (cs.take (cs.length - rest.length))), rest)

end QueryFilter.Toml
