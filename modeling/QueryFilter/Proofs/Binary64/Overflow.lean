import Mathlib.Algebra.Group.Nat.Even
import QueryFilter.Binary64.Nearest

/-!
# Numbers beyond the greatest finite one

Rounding gives infinity exactly from `overflowBound` on, which lies halfway between the greatest
finite number and the power of two above it: `nearestMagnitude_infinite_iff`. It never gives a
number that is not one.
-/

namespace QueryFilter.Binary64

/-- The least value that is rounded to infinity. -/
def overflowBound : Nat := 2 ^ 1024 - 2 ^ 970

variable {n d m : Nat}

/-! ### Rounded quotients -/

theorem div_le_roundedDiv (n d : Nat) : n / d ≤ roundedDiv n d := by
  unfold roundedDiv
  split
  · exact Nat.le_refl _
  · split <;> omega

theorem roundedDiv_le_succ (n d : Nat) : roundedDiv n d ≤ n / d + 1 := by
  unfold roundedDiv
  split
  · exact Nat.le_succ _
  · split <;> omega

/-- An even number is reached from halfway below it on. -/
theorem le_roundedDiv_iff (positive : 0 < d) (even : m % 2 = 0) :
    m ≤ roundedDiv n d ↔ 2 * (m * d) ≤ 2 * n + d := by
  have parts := Nat.div_add_mod n d
  have below := Nat.mod_lt n positive
  rw [Nat.mul_comm] at parts
  unfold roundedDiv
  generalize n / d = q at parts ⊢
  generalize n % d = r at parts below ⊢
  rcases Nat.lt_trichotomy m (q + 1) with lower | next | upper
  · have := Nat.mul_le_mul_right d (Nat.le_of_lt_succ lower)
    split
    · omega
    · split <;> omega
  · -- Then the quotient is odd, and a tie goes up.
    subst next
    rw [Nat.add_mul q 1 d, Nat.one_mul]
    split
    · omega
    · split <;> omega
  · have := Nat.mul_le_mul_right d upper
    rw [Nat.add_mul (q + 1) 1 d, Nat.add_mul q 1 d, Nat.one_mul] at this
    split
    · omega
    · split <;> omega

/-! ### The nearest magnitude -/

theorem nearestMagnitude_le (n d : Nat) : nearestMagnitude n d ≤ infiniteMagnitude :=
  Nat.min_le_left _ _

/-- With the bits that are dropped a quotient has 53 bits, or fewer if none is dropped. -/
theorem dropped_bounds (positive : 0 < d) {dropped : Nat}
    (dropped_eq : (n / d).log2 - 52 = dropped) :
    (dropped ≠ 0 → 2 ^ 52 * (d * 2 ^ dropped) ≤ n) ∧ n < 2 ^ 53 * (d * 2 ^ dropped) := by
  have reordered (k : Nat) : 2 ^ k * (d * 2 ^ dropped) = 2 ^ (dropped + k) * d := by
    rw [Nat.pow_add, Nat.mul_left_comm, Nat.mul_comm, Nat.mul_comm (2 ^ k)]
  rw [reordered, reordered]
  constructor
  · intro some
    have quotient : n / d ≠ 0 := by
      intro zero
      rw [zero, Nat.log2_zero] at dropped_eq
      omega
    have length : dropped + 52 ≤ (n / d).log2 := by omega
    exact (Nat.le_div_iff_mul_le positive).mp ((Nat.le_log2 quotient).mp length)
  · have length : (n / d).log2 + 1 ≤ dropped + 53 := by omega
    apply (Nat.div_lt_iff_lt_mul positive).mp
    exact Nat.lt_of_lt_of_le Nat.lt_log2_self (Nat.pow_le_pow_right Nat.two_pos length)

theorem twoPow_eq (n : Nat) : twoPow n = 2 ^ n := rfl

theorem twoPow_split (k a b : Nat) (sum : k = a + b) : 2 ^ k = 2 ^ a * 2 ^ b := by
  rw [sum, Nat.pow_add]

/-- The bound in units of the least positive number. -/
theorem overflowBound_le_iff :
    overflowBound * d ≤ n ↔ 2 ^ 54 * (d * 2 ^ 2044) ≤ n * 2 ^ 1074 + d * 2 ^ 2044 := by
  have top := twoPow_split 1024 54 970 (by decide)
  have unit := twoPow_split 2044 970 1074 (by decide)
  have positive (power : Nat) : 0 < 2 ^ power := Nat.two_pow_pos power
  rw [overflowBound, unit, top]
  generalize 2 ^ 970 = half
  rw [← Nat.mul_assoc d, ← Nat.mul_assoc (2 ^ 54), ← Nat.add_mul,
    Nat.mul_le_mul_right_iff (positive 1074)]
  have spread : (2 ^ 54 * half - half) * d = 2 ^ 54 * (d * half) - d * half := by
    rw [Nat.sub_mul, Nat.mul_assoc, Nat.mul_comm half]
  rw [spread]
  omega

theorem nearestMagnitude_infinite_iff (positive : 0 < d) :
    nearestMagnitude n d = infiniteMagnitude ↔ overflowBound * d ≤ n := by
  unfold nearestMagnitude
  dsimp only
  generalize dropped_eq : (n * twoPow 1074 / d).log2 - 52 = dropped
  obtain ⟨lower, upper⟩ := dropped_bounds positive dropped_eq
  have scaled : 0 < d * 2 ^ dropped := Nat.mul_pos positive (Nat.two_pow_pos _)
  have reached (magnitude : Nat) : min infiniteMagnitude magnitude = infiniteMagnitude ↔
      2047 * 2 ^ 52 ≤ magnitude := by
    have unit : infiniteMagnitude = 2047 * 2 ^ 52 := rfl
    omega
  rw [reached, overflowBound_le_iff]
  simp only [twoPow_eq] at lower upper ⊢
  generalize n * 2 ^ 1074 = units at lower upper ⊢
  -- As a variable, the power is never computed.
  generalize top_eq : 2044 = top
  rcases Nat.lt_trichotomy dropped (top + 1) with few | same | many
  · have rounded := roundedDiv_le_succ units (d * 2 ^ dropped)
    have quotient := (Nat.div_lt_iff_lt_mul scaled).mpr upper
    have smaller : d * 2 ^ dropped ≤ d * 2 ^ top :=
      Nat.mul_le_mul_left d (Nat.pow_le_pow_right Nat.two_pos (Nat.le_of_lt_succ few))
    omega
  · have double : d * 2 ^ dropped = 2 * (d * 2 ^ top) := by
      rw [same, Nat.pow_succ', Nat.mul_left_comm]
    have enough := le_roundedDiv_iff (n := units) (m := 2 ^ 53) scaled (by decide)
    omega
  · have larger : 4 * (d * 2 ^ top) ≤ d * 2 ^ dropped := by
      have power : 2 ^ (top + 2) ≤ 2 ^ dropped := Nat.pow_le_pow_right Nat.two_pos many
      rw [Nat.pow_add, Nat.mul_comm] at power
      rw [Nat.mul_left_comm]
      exact Nat.mul_le_mul_left d power
    have least := lower (by omega)
    have quotient := (Nat.le_div_iff_mul_le scaled).mpr least
    have rounded := div_le_roundedDiv units (d * 2 ^ dropped)
    omega

/-! ### Decimals -/

theorem magnitude_ofMagnitude (negative : Bool) (small : m ≤ infiniteMagnitude) :
    (ofMagnitude negative m).magnitude = m := by
  have limit : infiniteMagnitude < 2 ^ 63 := by decide
  have sign : (if negative then 2 ^ 63 else 0) % 2 ^ 63 = 0 := by cases negative <;> rfl
  have fits : (if negative then 2 ^ 63 else 0) ≤ 2 ^ 63 := by cases negative <;> decide
  unfold ofMagnitude magnitude
  rw [UInt64.toNat_ofNat']
  simp only [twoPow_eq]
  omega

theorem isNaN_ofDecimal (negative : Bool) (digits places : Nat) :
    (ofDecimal negative digits places).isNaN = false := by
  have small := nearestMagnitude_le digits (tenPow places)
  unfold isNaN ofDecimal
  rw [magnitude_ofMagnitude negative small]
  exact decide_eq_false (Nat.not_lt.mpr small)

theorem isFinite_ofDecimal (negative : Bool) (digits places : Nat) :
    (ofDecimal negative digits places).isFinite = false ↔
      overflowBound * 10 ^ places ≤ digits := by
  have small := nearestMagnitude_le digits (tenPow places)
  have positive : 0 < tenPow places := Nat.pow_pos (by decide)
  unfold isFinite ofDecimal
  rw [magnitude_ofMagnitude negative small, decide_eq_false_iff_not, Nat.not_lt,
    ← show tenPow places = 10 ^ places from rfl, ← nearestMagnitude_infinite_iff positive]
  exact ⟨Nat.le_antisymm small, fun same => Nat.le_of_eq same.symm⟩

end QueryFilter.Binary64
