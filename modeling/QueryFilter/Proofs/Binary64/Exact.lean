import QueryFilter.Binary64.Shortest
import QueryFilter.Proofs.Binary64.Overflow

/-!
# Decimals that are read back

The value of a finite number is rounded to that number, `nearestMagnitude_units`, and a natural
number to a number that is whole, `isWhole_of_nearest`. So the shortest decimal of a finite number
is read back as it, `shortest_readsAs`, and has digits behind its point if the number is not whole.
-/

namespace QueryFilter

namespace Binary64

variable {n d k q dropped : Nat} {x : Binary64}

/-! ### Scaled quotients -/

theorem roundedDiv_mul (positive : 0 < k) (n d : Nat) :
    roundedDiv (k * n) (k * d) = roundedDiv n d := by
  have twice : 2 * (k * (n % d)) = k * (2 * (n % d)) := Nat.mul_left_comm _ _ _
  unfold roundedDiv
  rw [Nat.mul_mod_mul_left, Nat.mul_div_mul_left _ _ positive, twice]
  simp only [Nat.mul_lt_mul_left positive]

theorem roundedDiv_one (n : Nat) : roundedDiv n 1 = n := by
  simp [roundedDiv, Nat.mod_one]

theorem roundedDiv_exact (positive : 0 < k) (q : Nat) : roundedDiv (q * k) k = q := by
  calc roundedDiv (q * k) k = roundedDiv (k * q) (k * 1) := by rw [Nat.mul_comm, Nat.mul_one]
    _ = q := by rw [roundedDiv_mul positive, roundedDiv_one]

/-- Rounding depends on the value of a quotient alone. -/
theorem nearestMagnitude_mul (positive : 0 < k) (n d : Nat) :
    nearestMagnitude (k * n) (k * d) = nearestMagnitude n d := by
  unfold nearestMagnitude
  dsimp only
  rw [Nat.mul_assoc, Nat.mul_div_mul_left _ _ positive, Nat.mul_assoc, roundedDiv_mul positive]

/-! ### Significands -/

/-- The number has the significand `q`, of 53 bits or fewer if no bit is dropped behind it. -/
structure Significand (x : Binary64) (q dropped : Nat) : Prop where
  magnitude_eq : x.magnitude = dropped * 2 ^ 52 + q
  few : q ≤ 2 ^ 53
  many : dropped ≠ 0 → 2 ^ 52 ≤ q

theorem units_of_parts {e f : Nat} (small : f < 2 ^ 52) (same : x.magnitude = e * 2 ^ 52 + f) :
    x.units = if e = 0 then f else (2 ^ 52 + f) * 2 ^ (e - 1) := by
  have exponent_eq : x.exponent = e := by
    rw [exponent, same, twoPow_eq]
    omega
  have fraction_eq : x.fraction = f := by
    rw [fraction, same, twoPow_eq]
    omega
  rw [units, exponent_eq, fraction_eq]
  rfl

/-- A significand of 54 bits counts as that of 53 bits with one more bit dropped. -/
theorem Significand.units_eq (significand : Significand x q dropped) :
    x.units = q * 2 ^ dropped := by
  have magnitude_eq := significand.magnitude_eq
  have few := significand.few
  by_cases below : q < 2 ^ 52
  · obtain rfl : dropped = 0 := by
      by_contra some
      exact absurd (significand.many some) (Nat.not_le.mpr below)
    rw [units_of_parts below magnitude_eq, if_pos rfl, Nat.pow_zero, Nat.mul_one]
  · by_cases carry : q = 2 ^ 53
    · have same : x.magnitude = (dropped + 2) * 2 ^ 52 + 0 := by
        rw [magnitude_eq, carry, Nat.add_zero, twoPow_split 53 1 52 rfl, Nat.pow_one,
          ← Nat.add_mul]
      rw [units_of_parts (Nat.two_pow_pos 52) same, if_neg (Nat.succ_ne_zero (dropped + 1)), carry]
      calc (2 ^ 52 + 0) * 2 ^ (dropped + 1) = 2 ^ 52 * (2 ^ dropped * 2) := rfl
        _ = 2 ^ 53 * 2 ^ dropped := by omega
    · have same : x.magnitude = (dropped + 1) * 2 ^ 52 + (q - 2 ^ 52) := by
        rw [magnitude_eq, Nat.succ_mul, Nat.add_assoc, Nat.add_sub_cancel' (Nat.not_lt.mp below)]
      rw [units_of_parts (by omega) same, if_neg (Nat.succ_ne_zero dropped),
        Nat.add_sub_cancel, Nat.add_sub_cancel' (Nat.not_lt.mp below)]

theorem exists_significand (x : Binary64) :
    ∃ q dropped, q < 2 ^ 53 ∧ Significand x q dropped := by
  have split := Nat.div_add_mod x.magnitude (2 ^ 52)
  have small := Nat.mod_lt x.magnitude (Nat.two_pow_pos 52)
  by_cases subnormal : x.magnitude / 2 ^ 52 = 0
  · exact ⟨x.magnitude, 0, by omega, by omega, by omega, by omega⟩
  · exact ⟨2 ^ 52 + x.magnitude % 2 ^ 52, x.magnitude / 2 ^ 52 - 1, by omega, by omega, by omega,
      by omega⟩

/-- The significand is as long as the value, but for the bits dropped. -/
theorem Significand.dropped_eq (significand : Significand x q dropped) (few : q < 2 ^ 53) :
    x.units.log2 - 52 = dropped := by
  rw [significand.units_eq]
  rcases Nat.eq_zero_or_pos dropped with rfl | positive
  · rw [Nat.pow_zero, Nat.mul_one]
    rcases Nat.eq_zero_or_pos q with rfl | nonzero
    · rfl
    · have := (Nat.log2_lt (Nat.ne_of_gt nonzero)).mpr few
      omega
  · have many := significand.many (Nat.ne_of_gt positive)
    have power := Nat.two_pow_pos dropped
    have length : (q * 2 ^ dropped).log2 = 52 + dropped := by
      refine (Nat.log2_eq_iff (Nat.ne_of_gt (Nat.mul_pos (by omega) power))).mpr ⟨?_, ?_⟩
      · rw [Nat.pow_add]
        exact Nat.mul_le_mul_right _ many
      · rw [Nat.add_right_comm, Nat.pow_add]
        exact Nat.mul_lt_mul_of_pos_right few power
    omega

/-- A finite number is the one nearest to its value. -/
theorem nearestMagnitude_units (finite : x.isFinite) :
    nearestMagnitude x.units (2 ^ 1074) = x.magnitude := by
  obtain ⟨q, dropped, few, significand⟩ := exists_significand x
  have length := significand.dropped_eq few
  have below : x.magnitude < infiniteMagnitude := of_decide_eq_true finite
  unfold nearestMagnitude
  simp only [twoPow_eq]
  -- As a variable, the exponent is never used to compute the power.
  generalize 1074 = places
  have unit := Nat.two_pow_pos places
  rw [Nat.mul_div_cancel _ unit, length, Nat.mul_comm x.units, roundedDiv_mul unit,
    significand.units_eq, roundedDiv_exact (Nat.two_pow_pos dropped), ← significand.magnitude_eq]
  exact Nat.min_eq_right (Nat.le_of_lt below)

/-- Only whole numbers are nearest to a natural number. -/
theorem isWhole_of_nearest (finite : x.isFinite) (nearest : nearestMagnitude n 1 = x.magnitude) :
    x.isWhole := by
  have below : x.magnitude < infiniteMagnitude := of_decide_eq_true finite
  rw [← nearest] at below
  unfold nearestMagnitude at nearest below
  dsimp only at nearest below
  generalize dropped_eq : (n * twoPow 1074 / 1).log2 - 52 = dropped at nearest below
  obtain ⟨lower, upper⟩ := dropped_bounds Nat.one_pos dropped_eq
  have power := Nat.two_pow_pos dropped
  simp only [twoPow_eq, Nat.one_mul] at lower upper nearest below
  have significand : Significand x (roundedDiv (n * 2 ^ 1074) (2 ^ dropped)) dropped := by
    refine ⟨by omega, ?_, ?_⟩
    · have quotient := (Nat.div_lt_iff_lt_mul power).mpr upper
      exact Nat.le_trans (roundedDiv_le_succ _ _) quotient
    · intro some
      have quotient := (Nat.le_div_iff_mul_le power).mpr (lower some)
      exact Nat.le_trans quotient (div_le_roundedDiv _ _)
  have whole : 2 ^ 1074 ∣ x.units := by
    rw [significand.units_eq]
    generalize 1074 = places
    rcases Nat.le_total dropped places with few | many
    · obtain ⟨more, rfl⟩ := Nat.exists_eq_add_of_le few
      rw [Nat.pow_add, Nat.mul_comm (2 ^ dropped), ← Nat.mul_assoc, roundedDiv_exact power,
        Nat.mul_assoc]
      exact Nat.dvd_mul_left _ _
    · exact Nat.dvd_mul_left_of_dvd (Nat.pow_dvd_pow 2 many) _
  rw [isWhole, finite, twoPow_eq, Nat.mod_eq_zero_of_dvd whole]
  rfl

theorem nearest_of_isWhole (whole : x.isWhole) :
    nearestMagnitude (x.units / twoPow 1074) 1 = x.magnitude := by
  obtain ⟨finite, divides⟩ := Bool.and_eq_true_iff.mp whole
  have exact := Nat.mul_div_cancel' (Nat.dvd_of_mod_eq_zero (beq_iff_eq.mp divides))
  have nearest := nearestMagnitude_units finite
  simp only [twoPow_eq] at exact ⊢
  generalize 1074 = places at exact nearest ⊢
  calc nearestMagnitude (x.units / 2 ^ places) 1
      = nearestMagnitude (2 ^ places * (x.units / 2 ^ places)) (2 ^ places * 1) :=
        (nearestMagnitude_mul (Nat.two_pow_pos places) _ _).symm
    _ = x.magnitude := by rw [exact, Nat.mul_one, nearest]

end Binary64

/-! ### Shortest decimals -/

/-- The value of the decimal is rounded to the magnitude of the number. -/
def Decimal.ReadsAs (d : Decimal) (x : Binary64) : Prop :=
  Binary64.nearestMagnitude (d.digits * 10 ^ d.exponent.toNat) (10 ^ (-d.exponent).toNat) =
    x.magnitude

namespace Decimal

variable {x : Binary64} {d : Decimal}

theorem ReadsAs.less_zero {digits : Nat} {exponent : Int} (zero : digits % 10 = 0)
    (reads : ReadsAs ⟨digits, exponent⟩ x) : ReadsAs ⟨digits / 10, exponent + 1⟩ x := by
  have parts : digits = 10 * (digits / 10) := by omega
  unfold ReadsAs at reads ⊢
  dsimp only at reads ⊢
  rw [parts] at reads
  generalize digits / 10 = q at reads ⊢
  rcases Int.lt_or_le exponent 0 with fraction | whole
  · have places : (-exponent).toNat = (-(exponent + 1)).toNat + 1 := by omega
    have none : exponent.toNat = 0 ∧ (exponent + 1).toNat = 0 := by omega
    rw [places, none.1, Nat.pow_zero, Nat.mul_one, Nat.pow_succ',
      Binary64.nearestMagnitude_mul (by decide)] at reads
    rw [none.2, Nat.pow_zero, Nat.mul_one]
    exact reads
  · have zeros : (exponent + 1).toNat = exponent.toNat + 1 := by omega
    have none : (-exponent).toNat = 0 ∧ (-(exponent + 1)).toNat = 0 := by omega
    rw [none.1, Nat.mul_right_comm, ← Nat.pow_succ'] at reads
    rw [none.2, zeros, Nat.mul_comm]
    exact reads

theorem ReadsAs.trimmed (reads : d.ReadsAs x) : d.trimmed.ReadsAs x := by
  fun_induction Decimal.trimmed d with
  | case1 d zero ih => exact ih (reads.less_zero zero.2)
  | case2 => exact reads

end Decimal

namespace Binary64

variable {x : Binary64}

theorem readsBack_readsAs {point : Nat} (reads : readsBack x point) :
    (⟨point, -gridPlaces⟩ : Decimal).ReadsAs x := by
  unfold readsBack at reads
  unfold Decimal.ReadsAs
  dsimp only
  generalize gridPlaces = places at reads ⊢
  rw [Int.toNat_neg_natCast, Int.neg_neg, Int.toNat_natCast, Nat.pow_zero, Nat.mul_one]
  exact beq_iff_eq.mp reads

theorem nearerPoint_eq (halfway : Halfway) (step low : Nat) (order : Ordering) :
    nearerPoint halfway step low order = low ∨ nearerPoint halfway step low order = low + step := by
  cases order with
  | lt => exact .inl rfl
  | gt => exact .inr rfl
  | eq =>
    cases halfway with
    | up => exact .inr rfl
    | even => exact ite_eq_or_eq _ _ _

/-- A neighbour on the grid is only taken if it reads back. -/
theorem gridPoint_readsBack {halfway : Halfway} {step point : Nat}
    (taken : gridPoint? halfway x step = some point) : readsBack x point := by
  unfold gridPoint? at taken
  dsimp only at taken
  split at taken
  · rename_i lowReads
    split at taken
    · rename_i highReads
      rw [← Option.some.inj taken]
      rcases nearerPoint_eq halfway step _ _ with same | same <;> rw [same]
      · exact lowReads
      · exact highReads
    · exact Option.some.inj taken ▸ lowReads
  · split at taken
    · rename_i highReads
      exact Option.some.inj taken ▸ highReads
    · cases taken

/-- All digits of a value in units of `2 ^ -places`. -/
theorem allDigits_readsAs {places : Nat}
    (nearest : nearestMagnitude x.units (2 ^ places) = x.magnitude) :
    (⟨x.units * Nat.pow 5 places, -places⟩ : Decimal).ReadsAs x := by
  have positive : 0 < 5 ^ places := Nat.pow_pos (by decide)
  unfold Decimal.ReadsAs
  dsimp only
  rw [Int.toNat_neg_natCast, Int.neg_neg, Int.toNat_natCast, Nat.pow_zero, Nat.mul_one]
  calc nearestMagnitude (x.units * 5 ^ places) (10 ^ places)
      = nearestMagnitude (5 ^ places * x.units) (5 ^ places * 2 ^ places) := by
        rw [Nat.mul_comm, ← Nat.mul_pow]
    _ = x.magnitude := by rw [nearestMagnitude_mul positive, nearest]

theorem shortest_readsAs (halfway : Halfway) (finite : x.isFinite) :
    (x.shortest halfway).ReadsAs x := by
  have nearest := nearestMagnitude_units finite
  unfold shortest
  split
  · rename_i zero
    rw [zero] at nearest
    generalize 1074 = places at nearest
    have unit := Nat.two_pow_pos places
    calc nearestMagnitude (0 * 10 ^ 0) (10 ^ 0)
        = nearestMagnitude (2 ^ places * 0) (2 ^ places * 1) := by
          rw [Nat.zero_mul, Nat.pow_zero, nearestMagnitude_mul unit]
      _ = x.magnitude := by rw [Nat.mul_zero, Nat.mul_one, nearest]
  · dsimp only
    split
    · rename_i found
      obtain ⟨count, -, taken⟩ := List.exists_of_findSome?_eq_some found
      exact (readsBack_readsAs (gridPoint_readsBack taken)).trimmed
    · have places : (-1074 : Int) = -(1074 : Nat) := rfl
      rw [places]
      generalize 1074 = places at nearest ⊢
      exact (allDigits_readsAs nearest).trimmed

/-- A number with all of its digits in front of the point is whole. -/
theorem shortest_exponent_neg (halfway : Halfway) (finite : x.isFinite)
    (fraction : x.isWhole = false) : (x.shortest halfway).exponent < 0 := by
  have reads := shortest_readsAs halfway finite
  generalize x.shortest halfway = d at reads ⊢
  by_contra whole
  have none : (-d.exponent).toNat = 0 := by omega
  rw [Decimal.ReadsAs, none, Nat.pow_zero] at reads
  rw [isWhole_of_nearest finite reads] at fraction
  cases fraction

end Binary64

end QueryFilter
