/-!
# Double precision numbers

A 64-bit binary floating-point number as its bits, so that two numbers are equal exactly when their
bits are. The magnitude of a finite number is a whole number of units of `2 ^ -1074`, the least
positive one, which makes statements about values statements about natural numbers.
-/

namespace QueryFilter

structure Binary64 where
  bits : UInt64
deriving DecidableEq, Inhabited, Repr

abbrev twoPow (n : Nat) : Nat := Nat.pow 2 n

abbrev tenPow (n : Nat) : Nat := Nat.pow 10 n

namespace Binary64

def negative (x : Binary64) : Bool := twoPow 63 ≤ x.bits.toNat

/-- The bits below the sign, as a number. They grow with the magnitude. -/
def magnitude (x : Binary64) : Nat := x.bits.toNat % twoPow 63

def exponent (x : Binary64) : Nat := x.magnitude / twoPow 52

def fraction (x : Binary64) : Nat := x.magnitude % twoPow 52

/-- The bits of infinity, which are those above every finite magnitude. -/
def infiniteMagnitude : Nat := 2047 * twoPow 52

def ofMagnitude (negative : Bool) (magnitude : Nat) : Binary64 :=
  ⟨UInt64.ofNat ((if negative then twoPow 63 else 0) + magnitude)⟩

def isFinite (x : Binary64) : Bool := x.magnitude < infiniteMagnitude

def isNaN (x : Binary64) : Bool := infiniteMagnitude < x.magnitude

/-- The magnitude of a finite number in units of `2 ^ -1074`. -/
def units (x : Binary64) : Nat :=
  if x.exponent = 0 then x.fraction else (twoPow 52 + x.fraction) * twoPow (x.exponent - 1)

def isWhole (x : Binary64) : Bool := x.isFinite && x.units % twoPow 1074 == 0

end Binary64

end QueryFilter
