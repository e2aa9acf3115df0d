import QueryFilter.Binary64.Basic

/-!
# The nearest double precision number

Rounds a quotient of natural numbers to the nearest number, an exact tie to the one whose last bit
is even. Above the largest finite number the result is infinite.
-/

namespace QueryFilter.Binary64

/-- `n / d` rounded to the nearest natural number, a tie to the even one. -/
def roundedDiv (n d : Nat) : Nat :=
  if 2 * (n % d) < d then n / d
  else if d < 2 * (n % d) then n / d + 1
  else n / d + n / d % 2

/-- The magnitude nearest to `n / d`: 53 significant bits are kept, and the bits dropped are
counted in the exponent. A carry out of the significand counts there by itself. -/
def nearestMagnitude (n d : Nat) : Nat :=
  let scaled := n * twoPow 1074
  let dropped := (scaled / d).log2 - 52
  min infiniteMagnitude (dropped * twoPow 52 + roundedDiv scaled (d * twoPow dropped))

/-- The number nearest to `± digits / 10 ^ places`. -/
def ofDecimal (negative : Bool) (digits places : Nat) : Binary64 :=
  ofMagnitude negative (nearestMagnitude digits (tenPow places))

/-- The number nearest to `± digits * 10 ^ exponent`. An exponent far outside the range of the
numbers decides the result by itself, so that no power of its size is computed. -/
def ofScientific (negative : Bool) (digits : Nat) (exponent : Int) : Binary64 :=
  let point := (Nat.toDigits 10 digits).length + exponent
  if digits = 0 ∨ point < -400 then ofMagnitude negative 0
  else if 400 < point then ofMagnitude negative infiniteMagnitude
  else
    match exponent with
    | .ofNat zeros => ofDecimal negative (digits * tenPow zeros) 0
    | .negSucc n => ofDecimal negative digits (n + 1)

end QueryFilter.Binary64
