import QueryFilter.Json
import QueryFilter.Proofs.LiteralText

/-!
# Numbers of JSON

The text of a float has digits around a point or in front of an exponent, which together say the
value that is read back as it. So numbers with the same text are the same number of the same kind:
`integerText_injective`, `floatText_injective` and `integerText_ne_floatText`.
-/

namespace QueryFilter.Json

def isNumberChar (c : Char) : Bool :=
  c.isDigit || c == '-' || c == '.' || c == 'e' || c == '+'

theorem isNumberChar_of_isDigit {c : Char} (digit : c.isDigit) : isNumberChar c := by
  simp [isNumberChar, digit]

/-! ### Integers -/

theorem integerText_char {n : Int} : ∀ c ∈ Text.integerText n, c.isDigit ∨ c = '-' := by
  intro c member
  cases n with
  | ofNat n => exact .inl (isDigit_of_mem_toDigits n c member)
  | negSucc n =>
    rcases List.mem_cons.mp member with rfl | digit
    · exact .inr rfl
    · exact .inl (isDigit_of_mem_toDigits (n + 1) c digit)

theorem integerText_numberChar (n : Int) : ∀ c ∈ Text.integerText n, isNumberChar c := by
  intro c member
  rcases integerText_char c member with digit | rfl
  · exact isNumberChar_of_isDigit digit
  · rfl

theorem integerText_head (n : Int) :
    ∃ c cs, Text.integerText n = c :: cs ∧ (c.isDigit ∨ c = '-') := by
  have nonempty : Text.integerText n ≠ [] := by
    cases n with
    | ofNat n => exact Nat.toDigits_ne_nil
    | negSucc n => exact List.cons_ne_nil _ _
  obtain ⟨c, cs, text_eq⟩ := List.exists_cons_of_ne_nil nonempty
  exact ⟨c, cs, text_eq, integerText_char c (text_eq ▸ List.mem_cons_self)⟩

theorem toDigits_injective {m n : Nat} (same : Nat.toDigits 10 m = Nat.toDigits 10 n) : m = n := by
  rw [← @Nat.ofDigitChars_ten_toDigits m, same, Nat.ofDigitChars_ten_toDigits]

theorem toDigits_ne_minus (n : Nat) (cs : List Char) : Nat.toDigits 10 n ≠ '-' :: cs := by
  intro same
  have digit := isDigit_of_mem_toDigits n '-' (by simp [same])
  cases digit

theorem integerText_injective {m n : Int} (same : Text.integerText m = Text.integerText n) :
    m = n := by
  cases m with
  | ofNat m =>
    cases n with
    | ofNat n => exact congrArg Int.ofNat (toDigits_injective same)
    | negSucc n => exact absurd same (toDigits_ne_minus m _)
  | negSucc m =>
    cases n with
    | ofNat n => exact absurd same.symm (toDigits_ne_minus n _)
    | negSucc n =>
      have next : m + 1 = n + 1 := toDigits_injective (List.cons.inj same).2
      exact congrArg Int.negSucc (Nat.succ.inj next)

theorem exponentText_injective {m n : Int} (same : exponentText m = exponentText n) : m = n := by
  -- The sign that a positive exponent has is no part of the text of an integer.
  have minus (n : Int) (cs : List Char) : Text.integerText n ≠ '+' :: cs := by
    intro same
    rcases integerText_char '+' (same ▸ List.mem_cons_self) with digit | minus
    · cases digit
    · cases minus
  simp only [exponentText, List.append_assoc, List.append_cancel_left_eq] at same
  by_cases positive : 0 ≤ m <;> by_cases otherPositive : 0 ≤ n
  · rw [if_pos positive, if_pos otherPositive] at same
    exact integerText_injective (List.append_cancel_left same)
  · rw [if_pos positive, if_neg otherPositive] at same
    exact absurd same.symm (minus n _)
  · rw [if_neg positive, if_pos otherPositive] at same
    exact absurd same (minus m _)
  · rw [if_neg positive, if_neg otherPositive] at same
    exact integerText_injective same

/-! ### Parts of a float -/

/-- What the text of a float is made of: digits in front of the point and behind it, and the exponent
if there is one. Without digits behind it there is no point. -/
structure FloatParts where
  whole : List Char
  fraction : List Char
  exponent? : Option Int

namespace FloatParts

def pointed (parts : FloatParts) : List Char :=
  if parts.fraction = [] then [] else '.' :: parts.fraction

def scaled (parts : FloatParts) : List Char := parts.exponent?.elim [] exponentText

def text (parts : FloatParts) : List Char := parts.whole ++ (parts.pointed ++ parts.scaled)

def decimal (parts : FloatParts) : Decimal where
  digits := Nat.ofDigitChars 10 (parts.whole ++ parts.fraction) 0
  exponent := parts.exponent?.getD 0 - parts.fraction.length

/-- There is a digit in front, and a point or an exponent tells the float from an integer. -/
structure Proper (parts : FloatParts) : Prop where
  nonempty : parts.whole ≠ []
  whole : ∀ c ∈ parts.whole, c.isDigit
  fraction : ∀ c ∈ parts.fraction, c.isDigit
  marked : parts.fraction ≠ [] ∨ parts.exponent? ≠ none

variable {parts other : FloatParts}

theorem scaled_head : ∀ c ∈ parts.scaled.head?, c = 'e' := by
  unfold scaled
  cases parts.exponent? with
  | none => simp
  | some n => simp [exponentText]

theorem pointed_head : ∀ c ∈ parts.pointed.head?, c = '.' := by
  unfold pointed
  split <;> simp

theorem behind_head : ∀ c ∈ (parts.pointed ++ parts.scaled).head?, c.isDigit = false := by
  intro c isHead
  rw [List.head?_append] at isHead
  rcases Option.or_eq_some_iff.mp isHead with point | ⟨-, exponent⟩
  · rw [pointed_head c point]
    rfl
  · rw [scaled_head c exponent]
    rfl

theorem pointed_char (proper : parts.Proper) : ∀ c ∈ parts.pointed, c ≠ 'e' := by
  intro c member
  unfold pointed at member
  split at member
  · cases member
  · rintro rfl
    rcases List.mem_cons.mp member with point | digit
    · cases point
    · cases proper.fraction _ digit

/-- The text tells its parts: the first character that is no digit ends the digits in front, and
the letter starts the exponent. -/
theorem text_injective (proper : parts.Proper) (otherProper : other.Proper)
    (same : parts.text = other.text) : parts = other := by
  have sameWhole : parts.whole = other.whole := by
    rw [← takeWhile_exact proper.whole behind_head, ← takeWhile_exact otherProper.whole behind_head]
    exact congrArg (List.takeWhile Char.isDigit) same
  have sameBehind : parts.pointed ++ parts.scaled = other.pointed ++ other.scaled := by
    unfold text at same
    rw [sameWhole] at same
    exact List.append_cancel_left same
  have inside {parts : FloatParts} (proper : parts.Proper) :
      ∀ c ∈ parts.pointed, decide (c ≠ 'e') = true :=
    fun c member => decide_eq_true (pointed_char proper c member)
  have outside (parts : FloatParts) : ∀ c ∈ parts.scaled.head?, decide (c ≠ 'e') = false := by
    intro c isHead
    rw [scaled_head c isHead]
    rfl
  have samePointed : parts.pointed = other.pointed := by
    rw [← takeWhile_exact (inside proper) (outside parts),
      ← takeWhile_exact (inside otherProper) (outside other), sameBehind]
  have sameScaled : parts.scaled = other.scaled := by
    rw [samePointed] at sameBehind
    exact List.append_cancel_left sameBehind
  obtain ⟨whole, fraction, exponent?⟩ := parts
  obtain ⟨otherWhole, otherFraction, otherExponent?⟩ := other
  obtain rfl : whole = otherWhole := sameWhole
  obtain rfl : fraction = otherFraction := by
    unfold pointed at samePointed
    dsimp only at samePointed
    split at samePointed <;> split at samePointed <;> simp_all
  obtain rfl : exponent? = otherExponent? := by
    cases exponent? with
    | none =>
      cases otherExponent? with
      | none => rfl
      | some n => cases sameScaled
    | some m =>
      cases otherExponent? with
      | none => cases sameScaled
      | some n => exact congrArg some (exponentText_injective sameScaled)
  rfl

theorem text_mark (proper : parts.Proper) : '.' ∈ parts.text ∨ 'e' ∈ parts.text := by
  rcases proper.marked with point | exponent
  · left
    simp [text, pointed, point]
  · obtain ⟨n, exponent_eq⟩ := Option.ne_none_iff_exists'.mp exponent
    right
    simp [text, scaled, exponent_eq, exponentText]

theorem text_numberChar (proper : parts.Proper) : ∀ c ∈ parts.text, isNumberChar c := by
  refine List.forall_mem_append.mpr ⟨fun c member => isNumberChar_of_isDigit (proper.whole c member),
    List.forall_mem_append.mpr ⟨?_, ?_⟩⟩
  · unfold pointed
    split
    · simp
    · exact List.forall_mem_cons.mpr
        ⟨rfl, fun c member => isNumberChar_of_isDigit (proper.fraction c member)⟩
  · unfold scaled
    cases parts.exponent? with
    | none => simp
    | some n =>
      have sign : ∀ c ∈ if 0 ≤ n then ['+'] else [], isNumberChar c := by
        split <;> simp [isNumberChar]
      have letter : ∀ c ∈ ['e'], isNumberChar c := List.forall_mem_singleton.mpr rfl
      exact List.forall_mem_append.mpr
        ⟨List.forall_mem_append.mpr ⟨letter, sign⟩, integerText_numberChar n⟩

theorem text_head (proper : parts.Proper) : ∃ c cs, parts.text = c :: cs ∧ c.isDigit := by
  obtain ⟨c, cs, whole_eq⟩ := List.exists_cons_of_ne_nil proper.nonempty
  exact ⟨c, _, by rw [text, whole_eq, List.cons_append],
    proper.whole c (by rw [whole_eq]; exact List.mem_cons_self)⟩

end FloatParts

/-! ### Floats -/

variable {x y : Binary64} {d : Decimal}

/-- One more zero, behind the point. -/
theorem tenth_readsAs {digits zeros : Nat} (reads : Decimal.ReadsAs ⟨digits, zeros⟩ x) :
    Decimal.ReadsAs ⟨10 * (digits * 10 ^ zeros), -1⟩ x := by
  unfold Decimal.ReadsAs at reads ⊢
  have wholePlaces : (-(zeros : Int)).toNat = 0 := by omega
  have noZeros : (-1 : Int).toNat = 0 := rfl
  have onePlace : (-(-1 : Int)).toNat = 1 := rfl
  dsimp only at reads ⊢
  rw [wholePlaces, Int.toNat_natCast, Nat.pow_zero] at reads
  rw [noZeros, onePlace, Nat.pow_zero, Nat.mul_one, Nat.pow_one, ← reads]
  exact Binary64.nearestMagnitude_mul (by decide) _ 1

/-- A decimal without digits behind its point is written with one zero there. -/
theorem whole_parts {zeros : Nat} (whole : d.exponent = zeros) : ∃ parts : FloatParts,
    parts.Proper ∧ parts.text = d.positional ++ ['.', '0'] ∧
      ∀ x, d.ReadsAs x → parts.decimal.ReadsAs x := by
  obtain ⟨digits, exponent⟩ := d
  obtain rfl : exponent = zeros := whole
  have isDigit : ∀ c ∈ Nat.toDigits 10 digits ++ List.replicate zeros '0', c.isDigit := by
    refine List.forall_mem_append.mpr ⟨isDigit_of_mem_toDigits digits, ?_⟩
    intro c member
    rw [List.eq_of_mem_replicate member]
    rfl
  have value : Nat.ofDigitChars 10 (Nat.toDigits 10 digits ++ List.replicate zeros '0' ++ ['0']) 0 =
      10 * (digits * 10 ^ zeros) := by
    rw [Nat.ofDigitChars_append, Nat.ofDigitChars_append, Nat.ofDigitChars_ten_toDigits,
      Nat.ofDigitChars_replicate_zero, Nat.mul_comm digits]
    rfl
  refine ⟨⟨Nat.toDigits 10 digits ++ List.replicate zeros '0', ['0'], none⟩,
    ⟨by simp [Nat.toDigits_ne_nil], isDigit, by simp, .inl (by simp)⟩, ?_, ?_⟩
  · simp [FloatParts.text, FloatParts.pointed, FloatParts.scaled, Decimal.positional]
  · intro x reads
    rw [FloatParts.decimal, value]
    exact tenth_readsAs reads

/-- A decimal with digits behind its point and none of them in the exponent. -/
theorem pointed_parts (fraction : d.exponent < 0) : ∃ parts : FloatParts,
    parts.Proper ∧ parts.text = d.positional ∧ parts.decimal = d := by
  obtain ⟨n, -, spells⟩ := d.positional_spelled fraction false
  obtain ⟨nonempty, digits, behind⟩ := spells.proper
  refine ⟨⟨n.digits, n.fraction, none⟩, ⟨nonempty, digits, behind, .inl spells.point⟩, ?_, ?_⟩
  · rw [← spells.text_eq, Numeral.unsignedText, if_neg spells.point]
    simp [FloatParts.text, FloatParts.pointed, FloatParts.scaled, spells.point]
  · obtain ⟨value, exponent⟩ := d
    have places := spells.places_eq
    dsimp only at places fraction
    rw [FloatParts.decimal, spells.value_eq]
    congr 1
    dsimp only [Option.getD_none]
    omega

/-- A decimal with one digit in front of its point and an exponent. -/
theorem scientific_parts (d : Decimal) : ∃ parts : FloatParts, parts.Proper ∧
    parts.text = (Nat.toDigits 10 d.digits).take 1 ++
        (if (Nat.toDigits 10 d.digits).length = 1 then []
          else '.' :: (Nat.toDigits 10 d.digits).drop 1) ++
        exponentText ((Nat.toDigits 10 d.digits).length + d.exponent - 1) ∧
      parts.decimal = d := by
  obtain ⟨c, cs, digits_eq⟩ :=
    List.exists_cons_of_ne_nil (Nat.toDigits_ne_nil : Nat.toDigits 10 d.digits ≠ [])
  have isDigit := isDigit_of_mem_toDigits d.digits
  rw [digits_eq] at isDigit
  obtain ⟨first, rest⟩ := List.forall_mem_cons.mp isDigit
  refine ⟨⟨[c], cs, some ((c :: cs).length + d.exponent - 1)⟩,
    ⟨by simp, List.forall_mem_singleton.mpr first, rest, .inr (by simp)⟩, ?_, ?_⟩
  · rw [digits_eq]
    cases cs <;> simp [FloatParts.text, FloatParts.pointed, FloatParts.scaled]
  · obtain ⟨value, exponent⟩ := d
    rw [FloatParts.decimal, List.singleton_append, ← digits_eq, Nat.ofDigitChars_ten_toDigits,
      digits_eq]
    congr 1
    dsimp only [Option.getD_some, List.length_cons]
    omega

theorem decimalText_parts (d : Decimal) : ∃ parts : FloatParts, parts.Proper ∧
    parts.text = decimalText d ∧ ∀ x, d.ReadsAs x → parts.decimal.ReadsAs x := by
  unfold decimalText
  dsimp only
  split
  · rename_i inFull
    obtain ⟨zeros, whole⟩ := Int.eq_ofNat_of_zero_le inFull.1
    exact whole_parts whole
  · rename_i notWhole
    split
    · rename_i short
      have fraction : d.exponent < 0 := by omega
      obtain ⟨parts, proper, text_eq, decimal_eq⟩ := pointed_parts fraction
      exact ⟨parts, proper, text_eq, fun x reads => decimal_eq ▸ reads⟩
    · obtain ⟨parts, proper, text_eq, decimal_eq⟩ := scientific_parts d
      exact ⟨parts, proper, text_eq, fun x reads => decimal_eq ▸ reads⟩

/-- The sign tells two numbers apart that are read back from the same digits. -/
theorem signed_injective {text other : List Char} (head : ∃ c cs, text = c :: cs ∧ c.isDigit)
    (otherHead : ∃ c cs, other = c :: cs ∧ c.isDigit) (same : x.signed text = y.signed other) :
    x.negative = y.negative ∧ text = other := by
  have unsigned {text : List Char} (head : ∃ c cs, text = c :: cs ∧ c.isDigit) (cs : List Char) :
      text ≠ '-' :: cs := by
    rintro rfl
    obtain ⟨c, _, same, digit⟩ := head
    cases same
    cases digit
  unfold Binary64.signed at same
  generalize x.negative = negative at same ⊢
  generalize y.negative = otherNegative at same ⊢
  cases negative <;> cases otherNegative
  · exact ⟨rfl, same⟩
  · exact absurd same (unsigned head _)
  · exact absurd same.symm (unsigned otherHead _)
  · exact ⟨rfl, (List.cons.inj same).2⟩

/-- Finite numbers with the same text have the same bits. -/
theorem floatText_injective (finite : x.isFinite) (otherFinite : y.isFinite)
    (same : floatText x = floatText y) : x = y := by
  obtain ⟨parts, proper, text_eq, reads⟩ := decimalText_parts (x.shortest .even)
  obtain ⟨other, otherProper, otherText_eq, otherReads⟩ := decimalText_parts (y.shortest .even)
  unfold floatText at same
  rw [← text_eq, ← otherText_eq] at same
  obtain ⟨sameSign, sameText⟩ :=
    signed_injective (FloatParts.text_head proper) (FloatParts.text_head otherProper) same
  obtain rfl : parts = other := FloatParts.text_injective proper otherProper sameText
  have magnitude := reads x (Binary64.shortest_readsAs .even finite)
  have otherMagnitude := otherReads y (Binary64.shortest_readsAs .even otherFinite)
  rw [← x.ofMagnitude_magnitude, ← y.ofMagnitude_magnitude, sameSign, ← magnitude, otherMagnitude]

theorem floatText_head (x : Binary64) : ∃ c cs, floatText x = c :: cs ∧ (c.isDigit ∨ c = '-') := by
  obtain ⟨parts, proper, text_eq, -⟩ := decimalText_parts (x.shortest .even)
  obtain ⟨c, cs, parts_eq, digit⟩ := FloatParts.text_head proper
  unfold floatText Binary64.signed
  rw [← text_eq, parts_eq]
  split
  · exact ⟨'-', _, rfl, .inr rfl⟩
  · exact ⟨c, cs, rfl, .inl digit⟩

theorem floatText_numberChar (x : Binary64) : ∀ c ∈ floatText x, isNumberChar c := by
  obtain ⟨parts, proper, text_eq, -⟩ := decimalText_parts (x.shortest .even)
  unfold floatText Binary64.signed
  rw [← text_eq]
  split
  · exact List.forall_mem_cons.mpr ⟨rfl, FloatParts.text_numberChar proper⟩
  · exact FloatParts.text_numberChar proper

/-- The point or the exponent of a float is no part of an integer. -/
theorem integerText_ne_floatText (n : Int) (x : Binary64) : Text.integerText n ≠ floatText x := by
  obtain ⟨parts, proper, text_eq, -⟩ := decimalText_parts (x.shortest .even)
  have marked : '.' ∈ floatText x ∨ 'e' ∈ floatText x := by
    unfold floatText Binary64.signed
    rw [← text_eq]
    split
    · exact (FloatParts.text_mark proper).imp (List.mem_cons_of_mem _) (List.mem_cons_of_mem _)
    · exact FloatParts.text_mark proper
  intro same
  rw [← same] at marked
  rcases marked with point | exponent
  · rcases integerText_char _ point with digit | minus
    · cases digit
    · cases minus
  · rcases integerText_char _ exponent with digit | minus
    · cases digit
    · cases minus

end QueryFilter.Json
