import QueryFilter.Binary64.Shortest

/-!
# Positional text of a double precision number

A number is written without an exponent: `plainText` has the fewest digits that read back and no
point for a whole number, `pointedText` has a point in every finite number and writes a whole
number in full.
-/

namespace QueryFilter

/-- The digits of a decimal around its point, which is left out of a whole number. -/
def Decimal.positional (d : Decimal) : List Char :=
  let digits := Nat.toDigits 10 d.digits
  match d.exponent with
  | .ofNat zeros => digits ++ List.replicate zeros '0'
  | .negSucc n =>
    let places := n + 1
    if places < digits.length then
      digits.take (digits.length - places) ++ '.' :: digits.drop (digits.length - places)
    else '0' :: '.' :: List.replicate (places - digits.length) '0' ++ digits

namespace Binary64

def signed (x : Binary64) (text : List Char) : List Char :=
  if x.negative then '-' :: text else text

/-- The shortest digits that read back, without an exponent. -/
def plainText (x : Binary64) : List Char :=
  if x.isNaN then ['N', 'a', 'N']
  else if x.isFinite then x.signed (x.shortest .up).positional
  else x.signed ['i', 'n', 'f']

/-- A whole number in full with one zero after the point, any other number as in `plainText`. -/
def pointedText (x : Binary64) : List Char :=
  if x.isWhole then x.signed (Nat.toDigits 10 (x.units / twoPow 1074) ++ ['.', '0'])
  else x.plainText

end Binary64

end QueryFilter
