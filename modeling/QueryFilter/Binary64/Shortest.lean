import QueryFilter.Binary64.Nearest

/-!
# Shortest decimal of a double precision number

The decimal with the fewest digits that reads back as the number, and of those the nearest to it.
On the grid of each digit count only the two neighbours of the number have to be tried, because if
any point of the grid reads back then so does one of them.
-/

namespace QueryFilter

/-- The number `digits * 10 ^ exponent`. -/
structure Decimal where
  digits : Nat
  exponent : Int
deriving DecidableEq, Repr

/-- Which of two equally near decimals is taken. -/
inductive Halfway where
  | up
  | even
deriving DecidableEq

/-- Moves trailing zeros of the digits into the exponent. -/
def Decimal.trimmed (d : Decimal) : Decimal :=
  if h : d.digits ≠ 0 ∧ d.digits % 10 = 0 then
    Decimal.trimmed ⟨d.digits / 10, d.exponent + 1⟩
  else d
termination_by d.digits
decreasing_by omega

namespace Binary64

/-- Grids are counted in units of `10 ^ -gridPlaces`, fine enough for the least number to have
seventeen digits. -/
def gridPlaces : Nat := 340

/-- Whether `point * 10 ^ -gridPlaces` reads back with the magnitude of `x`. -/
def readsBack (x : Binary64) (point : Nat) : Bool :=
  nearestMagnitude point (tenPow gridPlaces) == x.magnitude

/-- The nearer of two neighbours on the grid of steps of `step` units, by how the number compares
with the middle between them. -/
def nearerPoint (halfway : Halfway) (step low : Nat) : Ordering → Nat
  | .lt => low
  | .gt => low + step
  | .eq =>
    match halfway with
    | .up => low + step
    | .even => if low / step % 2 = 0 then low else low + step

/-- The neighbour of `x` on the grid of steps of `step` units that reads back, the nearer one if
both do. -/
def gridPoint? (halfway : Halfway) (x : Binary64) (step : Nat) : Option Nat :=
  let exact := x.units * tenPow gridPlaces
  let low := exact / twoPow 1074 / step * step
  let high := low + step
  if readsBack x low then
    if readsBack x high then
      some (nearerPoint halfway step low (compare (2 * exact) ((low + high) * twoPow 1074)))
    else some low
  else if readsBack x high then some high
  else none

/-- The shortest decimal that reads back with the magnitude of a finite `x`. -/
def shortest (halfway : Halfway) (x : Binary64) : Decimal :=
  if x.units = 0 then ⟨0, 0⟩
  else
    let length := (Nat.toDigits 10 (x.units * tenPow gridPlaces / twoPow 1074)).length
    let point? := (List.range 17).findSome? fun count =>
      gridPoint? halfway x (tenPow (length - (count + 1)))
    match point? with
    | some point => Decimal.trimmed ⟨point, -gridPlaces⟩
    | none => Decimal.trimmed ⟨x.units * Nat.pow 5 1074, -1074⟩

end Binary64

end QueryFilter
