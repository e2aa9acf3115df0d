import QueryFilter.Proofs.Binary64.Exact
import QueryFilter.Proofs.NullBindings

/-!
# Numbers are read back from their text

The text of an integer has no point and that of a finite float has one with digits on both sides,
so each is the text of a numeral that is read as the same literal: `tokenize_number_text`.
-/

namespace QueryFilter

/-! ### Digits -/

theorem isDigit_of_mem_toDigits (n : Nat) : ∀ c ∈ Nat.toDigits 10 n, c.isDigit :=
  fun _ member => Nat.isDigit_of_mem_toDigits (by decide) (by decide) member

/-- The numeral without its sign is a text that stands for `value / 10 ^ places`, with digits on
both sides of a point. -/
structure Numeral.Spells (n : Numeral) (text : List Char) (value places : Nat) : Prop where
  proper : n.Proper
  point : n.fraction ≠ []
  text_eq : n.unsignedText = text
  value_eq : Nat.ofDigitChars 10 (n.digits ++ n.fraction) 0 = value
  places_eq : n.fraction.length = places

theorem Numeral.spells_pointed (negative : Bool) {whole fraction : List Char}
    (someWhole : whole ≠ []) (someFraction : fraction ≠ [])
    (isDigit : ∀ c ∈ whole ++ fraction, c.isDigit) :
    Numeral.Spells ⟨negative, whole, fraction⟩ (whole ++ '.' :: fraction)
      (Nat.ofDigitChars 10 (whole ++ fraction) 0) fraction.length where
  proper := by
    obtain ⟨wholeDigits, fractionDigits⟩ := List.forall_mem_append.mp isDigit
    exact ⟨someWhole, wholeDigits, fractionDigits⟩
  point := someFraction
  text_eq := by rw [unsignedText, if_neg someFraction]
  value_eq := rfl
  places_eq := rfl

section

variable {digits : List Char} {value places : Nat} (negative : Bool)
  (isDigit : ∀ c ∈ digits, c.isDigit) (value_eq : Nat.ofDigitChars 10 digits 0 = value)
include isDigit value_eq

/-- A point among the digits. -/
theorem Numeral.spells_split (positive : 0 < places) (inside : places < digits.length) :
    ∃ n : Numeral, n.negative = negative ∧ n.Spells
      (digits.take (digits.length - places) ++ '.' :: digits.drop (digits.length - places))
      value places := by
  generalize front_eq : digits.length - places = front
  have parts := List.take_append_drop front digits
  have length : (digits.drop front).length = places := by
    rw [List.length_drop]
    omega
  have someWhole : digits.take front ≠ [] := by
    rw [← List.length_pos_iff, List.length_take]
    omega
  have someFraction : digits.drop front ≠ [] := by
    rw [← List.length_pos_iff, length]
    exact positive
  have spells := Numeral.spells_pointed negative someWhole someFraction (by rwa [parts])
  rw [parts, value_eq, length] at spells
  exact ⟨_, rfl, spells⟩

/-- All digits behind the point, with zeros in front of them. -/
theorem Numeral.spells_zeros (nonempty : digits ≠ []) (outside : digits.length ≤ places) :
    ∃ n : Numeral, n.negative = negative ∧ n.Spells
      ('0' :: '.' :: List.replicate (places - digits.length) '0' ++ digits) value places := by
  generalize zeros_eq : places - digits.length = zeros
  have length : (List.replicate zeros '0' ++ digits).length = places := by
    rw [List.length_append, List.length_replicate]
    omega
  have areZeros (n : Nat) : ∀ c ∈ List.replicate n '0', c.isDigit := by
    intro c member
    rw [List.eq_of_mem_replicate member]
    rfl
  have allDigits : ∀ c ∈ ['0'] ++ (List.replicate zeros '0' ++ digits), c.isDigit :=
    List.forall_mem_append.mpr ⟨areZeros 1, List.forall_mem_append.mpr ⟨areZeros zeros, isDigit⟩⟩
  have leading : Nat.ofDigitChars 10 (['0'] ++ (List.replicate zeros '0' ++ digits)) 0 = value := by
    calc Nat.ofDigitChars 10 (['0'] ++ (List.replicate zeros '0' ++ digits)) 0
        = Nat.ofDigitChars 10 (List.replicate (zeros + 1) '0' ++ digits) 0 := rfl
      _ = value := by
        rw [Nat.ofDigitChars_append, Nat.ofDigitChars_replicate_zero, Nat.mul_zero, value_eq]
  have spells := Numeral.spells_pointed negative (List.cons_ne_nil _ _) (by simp [nonempty])
    allDigits
  rw [length, leading] at spells
  exact ⟨_, rfl, spells⟩

end

/-- A decimal with digits behind its point is spelled with a zero in front if it has no others. -/
theorem Decimal.positional_spelled {d : Decimal} (fraction : d.exponent < 0) (negative : Bool) :
    ∃ n : Numeral, n.negative = negative ∧ n.Spells d.positional d.digits (-d.exponent).toNat := by
  obtain ⟨value, exponent⟩ := d
  obtain ⟨k, rfl⟩ := Int.eq_negSucc_of_lt_zero fraction
  have isDigit := isDigit_of_mem_toDigits value
  have value_eq := @Nat.ofDigitChars_ten_toDigits value
  have places_eq : (-Int.negSucc k).toNat = k + 1 := rfl
  unfold positional
  dsimp only
  rw [places_eq]
  split
  · rename_i inside
    exact Numeral.spells_split negative isDigit value_eq (Nat.succ_pos k) inside
  · rename_i outside
    exact Numeral.spells_zeros negative isDigit value_eq Nat.toDigits_ne_nil (Nat.not_lt.mp outside)

/-! ### Floats -/

namespace Binary64

theorem ofMagnitude_magnitude (x : Binary64) : ofMagnitude x.negative x.magnitude = x := by
  have bound := x.bits.toNat_lt
  have parts : (if x.negative then 2 ^ 63 else 0) + x.magnitude = x.bits.toNat := by
    unfold negative magnitude
    simp only [twoPow_eq, decide_eq_true_eq]
    split <;> omega
  unfold ofMagnitude
  rw [twoPow_eq, parts, UInt64.ofNat_toNat]

variable {x : Binary64}

theorem literal_of_spells {n : Numeral} {text : List Char} {value places : Nat}
    (spells : n.Spells text value places) (sign : n.negative = x.negative)
    (nearest : nearestMagnitude value (10 ^ places) = x.magnitude) :
    n.literal? = some (.float x) := by
  rw [Numeral.literal_float_iff]
  refine ⟨spells.point, ?_⟩
  calc ofDecimal n.negative (Nat.ofDigitChars 10 (n.digits ++ n.fraction) 0) n.fraction.length
      = ofMagnitude n.negative (nearestMagnitude value (10 ^ places)) := by
        rw [spells.value_eq, spells.places_eq]
        rfl
    _ = x := by rw [sign, nearest, ofMagnitude_magnitude]

theorem text_of_spells {n : Numeral} {text : List Char} {value places : Nat}
    (spells : n.Spells text value places) (sign : n.negative = x.negative) :
    n.text = x.signed text := by
  rw [Numeral.text_eq, sign, spells.text_eq, signed]
  split <;> rfl

/-- The text of a finite number is a numeral with a point, which is read as the number. -/
theorem pointedText_numeral (finite : x.isFinite) :
    ∃ n : Numeral, n.Proper ∧ n.text = x.pointedText ∧ n.literal? = some (.float x) := by
  unfold pointedText
  cases whole : x.isWhole with
  | true =>
    rw [if_pos rfl]
    have nearest := nearest_of_isWhole whole
    generalize x.units / twoPow 1074 = q at nearest ⊢
    have isDigit : ∀ c ∈ Nat.toDigits 10 q ++ ['0'], c.isDigit :=
      List.forall_mem_append.mpr ⟨isDigit_of_mem_toDigits q, List.forall_mem_singleton.mpr rfl⟩
    have spells := Numeral.spells_pointed x.negative Nat.toDigits_ne_nil (List.cons_ne_nil _ _)
      isDigit
    have value_eq : Nat.ofDigitChars 10 (Nat.toDigits 10 q ++ ['0']) 0 = 10 * q := by
      rw [Nat.ofDigitChars_append, Nat.ofDigitChars_ten_toDigits]
      rfl
    rw [value_eq] at spells
    refine ⟨_, spells.proper, text_of_spells spells rfl, literal_of_spells spells rfl ?_⟩
    rw [← nearest, ← nearestMagnitude_mul (by decide : 0 < 10) q 1, Nat.mul_one,
      List.length_singleton, Nat.pow_one]
  | false =>
    rw [if_neg Bool.false_ne_true]
    have finiteText : x.plainText = x.signed (x.shortest .up).positional := by
      have number : x.isNaN = false := by
        have below : x.magnitude < infiniteMagnitude := of_decide_eq_true finite
        exact decide_eq_false (Nat.not_lt_of_lt below)
      rw [plainText, number, finite, if_neg Bool.false_ne_true, if_pos rfl]
    have fraction := shortest_exponent_neg .up finite whole
    have reads := shortest_readsAs .up finite
    rw [finiteText]
    generalize x.shortest .up = d at fraction reads ⊢
    obtain ⟨n, sign, spells⟩ := d.positional_spelled fraction x.negative
    have zeros : d.exponent.toNat = 0 := by omega
    rw [Decimal.ReadsAs, zeros, Nat.pow_zero, Nat.mul_one] at reads
    exact ⟨n, spells.proper, text_of_spells spells sign, literal_of_spells spells sign reads⟩

end Binary64

/-! ### Integers -/

/-- The text of an integer is a numeral without a point, which is read as the integer. -/
theorem integerText_numeral (value : Int64) : ∃ n : Numeral,
    n.Proper ∧ n.text = Text.integerText value.toInt ∧ n.literal? = some (.integer value) := by
  have whole (negative : Bool) (magnitude : Nat) :
      Numeral.Proper ⟨negative, Nat.toDigits 10 magnitude, []⟩ :=
    ⟨Nat.toDigits_ne_nil, isDigit_of_mem_toDigits magnitude, by simp⟩
  have read {n : Numeral} (fraction : n.fraction = []) (exact : n.toInt = value.toInt) :
      n.literal? = some (.integer value) := by
    rw [Numeral.literal?, if_pos fraction, exact, if_pos ⟨value.minValue_le_toInt, value.toInt_le⟩,
      Int64.ofInt_toInt]
  cases magnitude : value.toInt with
  | ofNat k =>
    refine ⟨⟨false, Nat.toDigits 10 k, []⟩, whole false k, ?_, read rfl ?_⟩
    · simp [Numeral.text, Text.integerText]
    · rw [magnitude, Numeral.toInt, if_neg Bool.false_ne_true, Nat.ofDigitChars_ten_toDigits]
      rfl
  | negSucc k =>
    refine ⟨⟨true, Nat.toDigits 10 (k + 1), []⟩, whole true (k + 1), ?_, read rfl ?_⟩
    · simp [Numeral.text, Text.integerText]
    · rw [magnitude, Numeral.toInt, if_pos rfl, Nat.ofDigitChars_ten_toDigits]
      rfl

/-! ### Texts of one numeral -/

theorem tokenize_numeral {n : Numeral} {value : Literal} (proper : n.Proper)
    (fits : n.literal? = some value) : tokenize (String.ofList n.text) =
      .ok [⟨.literal value, String.ofList n.text, 0⟩] := by
  obtain ⟨c, cs, text_cons, visible, unquoted, number⟩ := numeral_alone proper
  have read : (⟨0, c :: cs⟩ : Lexer).next = _ :=
    Lexer.next_of_cut visible (Cut.Of.number unquoted number fits).eq
  have ended (position : Nat) : (⟨position, []⟩ : Lexer).lexemes = .ok [] := Lexer.lexemes_end rfl
  rw [tokenize, Lexer.ofText, String.toList_ofList, text_cons, Lexer.lexemes_more read, ended,
    text_cons]
  rfl

/-- The text of an integer, and that of a float that is finite, is one token, which is the same
number again: an integer is never read as a float or a float as an integer, and the sign of a zero
is kept. -/
theorem tokenize_number_text :
    (∀ n : Int64, tokenize (Literal.integer n).text =
      .ok [⟨.literal (.integer n), (Literal.integer n).text, 0⟩]) ∧
    ∀ x : Binary64, x.isFinite → tokenize (Literal.float x).text =
      .ok [⟨.literal (.float x), (Literal.float x).text, 0⟩] := by
  constructor
  · intro n
    obtain ⟨numeral, proper, text_eq, fits⟩ := integerText_numeral n
    rw [Literal.text, ← text_eq]
    exact tokenize_numeral proper fits
  · intro x finite
    obtain ⟨numeral, proper, text_eq, fits⟩ := Binary64.pointedText_numeral finite
    rw [Literal.text, ← text_eq]
    exact tokenize_numeral proper fits

/-- The least integer, a zero with a sign and a number below one. -/
theorem tokenize_number_text_extremes :
    tokenize "-9223372036854775808" =
        .ok [⟨.literal (.integer Int64.minValue), "-9223372036854775808", 0⟩] ∧
      (⟨0x8000000000000000⟩ : Binary64).isFinite ∧
      tokenize "-0.0" = .ok [⟨.literal (.float ⟨0x8000000000000000⟩), "-0.0", 0⟩] ∧
      (⟨0xBE8421F5F40D8376⟩ : Binary64).isFinite ∧
      tokenize "-0.00000015" =
        .ok [⟨.literal (.float ⟨0xBE8421F5F40D8376⟩), "-0.00000015", 0⟩] := by
  obtain ⟨integers, floats⟩ := tokenize_number_text
  have least : (Literal.integer Int64.minValue).text = "-9223372036854775808" := by decide +kernel
  have zero : (Literal.float ⟨0x8000000000000000⟩).text = "-0.0" := by decide +kernel
  have small : (Literal.float ⟨0xBE8421F5F40D8376⟩).text = "-0.00000015" := by decide +kernel
  have finiteZero : (⟨0x8000000000000000⟩ : Binary64).isFinite := by decide +kernel
  have finiteSmall : (⟨0xBE8421F5F40D8376⟩ : Binary64).isFinite := by decide +kernel
  have first := integers Int64.minValue
  have second := floats _ finiteZero
  have third := floats _ finiteSmall
  rw [least] at first
  rw [zero] at second
  rw [small] at third
  exact ⟨first, finiteZero, second, finiteSmall, third⟩

end QueryFilter
