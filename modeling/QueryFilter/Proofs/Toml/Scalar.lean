import QueryFilter.Proofs.Toml.Quoted
import QueryFilter.Toml.Reader

/-!
# Strings and numbers are read back as values

The reader of values tries strings, dates and times, floats and integers in this order. A string in
the form of `quotedText` is read as that string, and a number in decimal digits at the end of a line
as that number: it is no date, no time and no float, and it has no leading zeros.
-/

namespace QueryFilter.Toml

variable {cs rest more digits : List Char} {n : Nat}

/-! ### Dates and times have more than digits -/

theorem twoDigits_eq_some {greatest value : Nat} (h : twoDigits? greatest cs = some (value, rest)) :
    ∃ a b, cs = a :: b :: rest ∧ a.isDigit ∧ b.isDigit := by
  unfold twoDigits? at h
  split at h
  · rename_i a b cs
    split at h
    · rename_i digits
      simp only [Option.ite_none_right_eq_some, Option.some.injEq, Prod.mk.injEq] at h
      exact ⟨a, b, by rw [h.2.2], digits⟩
    · cases h
  · cases h

theorem date_after_digits (h : (date? cs).isSome) :
    (cs.dropWhile Char.isDigit).head? = some '-' := by
  unfold date? at h
  split at h
  · split at h
    · rename_i century _ _ _ first second
      obtain ⟨a, b, same, isDigits⟩ := twoDigits_eq_some first
      obtain ⟨c, d, rfl, isDigit⟩ := twoDigits_eq_some second
      cases same
      simp [isDigits, isDigit]
    · cases h
  · cases h

theorem time_after_digits (h : (time? cs).isSome) :
    (cs.dropWhile Char.isDigit).head? = some ':' := by
  unfold time? at h
  split at h
  · rename_i hours
    obtain ⟨a, b, rfl, isDigits⟩ := twoDigits_eq_some hours
    simp [isDigits]
  · cases h

/-! ### Digits -/

theorem ne_of_isDigit {c other : Char} (isDigit : c.isDigit) (notDigit : other.isDigit = false) :
    c ≠ other := by
  rintro rfl
  rw [isDigit] at notDigit
  cases notDigit

/-- Digits without leading zeros. -/
structure Decimal (digits : List Char) : Prop where
  nonempty : digits ≠ []
  isDigit : ∀ c ∈ digits, c.isDigit
  noLeadingZero : digits.head? = some '0' → digits = ['0']

theorem toDigits_head (positive : 0 < n) : (Nat.toDigits 10 n).head? ≠ some '0' := by
  induction n using Nat.strongRecOn with
  | ind n ih =>
    by_cases small : n < 10
    · rw [Nat.toDigits_of_lt_base small]
      simp only [List.head?_cons, ne_eq, Option.some.injEq, Nat.digitChar_eq_zero]
      omega
    · rw [Nat.toDigits_of_base_le (by decide) (by omega),
        List.head?_append, Option.or_of_isSome (by simp [Nat.toDigits_ne_nil])]
      exact ih (n / 10) (by omega) (by omega)

theorem decimal_toDigits (n : Nat) : Decimal (Nat.toDigits 10 n) where
  nonempty := Nat.toDigits_ne_nil
  isDigit _ member := Nat.isDigit_of_mem_toDigits (by decide) (by decide) member
  noLeadingZero zero := by
    rcases Nat.eq_zero_or_pos n with rfl | positive
    · rfl
    · exact absurd zero (toDigits_head positive)

theorem moreDigits_append (isDigit : ∀ c ∈ digits, c.isDigit) :
    moreDigits Char.isDigit (digits ++ '\n' :: more) = (digits, '\n' :: more) := by
  induction digits with
  | nil => simp [moreDigits]
  | cons c digits ih =>
    have first := isDigit c List.mem_cons_self
    have notUnderscore : c ≠ '_' := ne_of_isDigit first rfl
    simp [moreDigits, notUnderscore, first,
      ih fun other member => isDigit other (List.mem_cons_of_mem _ member)]

theorem digitValue_eq {c : Char} (isDigit : c.isDigit) : digitValue c = c.toNat - '0'.toNat := by
  rw [digitValue, if_pos isDigit]

theorem digitsValue_eq (isDigit : ∀ c ∈ digits, c.isDigit) :
    digitsValue 10 digits = Nat.ofDigitChars 10 digits 0 := by
  rw [digitsValue, Nat.ofDigitChars_eq_foldl]
  generalize 0 = value
  induction digits generalizing value with
  | nil => rfl
  | cons c digits ih =>
    have step : value * 10 + digitValue c = 10 * value + (c.toNat - '0'.toNat) := by
      rw [digitValue_eq (isDigit c List.mem_cons_self), Nat.mul_comm]
    rw [List.foldl_cons, List.foldl_cons, step]
    exact ih (fun other member => isDigit other (List.mem_cons_of_mem _ member)) _

namespace Decimal

variable (decimal : Decimal digits)
include decimal

theorem exists_cons : ∃ c tail, digits = c :: tail ∧ c.isDigit := by
  obtain ⟨c, tail, rfl⟩ := List.exists_cons_of_ne_nil decimal.nonempty
  exact ⟨c, tail, rfl, decimal.isDigit c List.mem_cons_self⟩

theorem dropWhile : (digits ++ '\n' :: more).dropWhile Char.isDigit = '\n' :: more := by
  rw [List.dropWhile_append_of_pos decimal.isDigit]
  rfl

theorem string_none : string? (digits ++ more) = none := by
  obtain ⟨c, tail, rfl, isDigit⟩ := decimal.exists_cons
  have notQuote : ¬ (c = '"' ∨ c = '\x27') :=
    not_or.mpr ⟨ne_of_isDigit isDigit rfl, ne_of_isDigit isDigit rfl⟩
  rw [string?, List.cons_append, quoted_none notQuote, Option.map_none]

theorem dateTime_none : dateTime? (digits ++ '\n' :: more) = none := by
  have noDate : ¬ (date? (digits ++ '\n' :: more)).isSome := by
    intro read
    have minus := date_after_digits read
    rw [decimal.dropWhile] at minus
    cases minus
  have noTime : ¬ (time? (digits ++ '\n' :: more)).isSome := by
    intro read
    have colon := time_after_digits read
    rw [decimal.dropWhile] at colon
    cases colon
  simp only [Option.not_isSome_iff_eq_none] at noDate noTime
  simp [dateTime?, noDate, noTime]

theorem sign_eq : sign (digits ++ more) = (false, digits ++ more) := by
  obtain ⟨c, tail, rfl, isDigit⟩ := decimal.exists_cons
  rw [List.cons_append]
  unfold sign
  split <;> rename_i same
  · cases same
    cases isDigit
  · cases same
    cases isDigit
  · rfl

theorem wholeDigits_eq :
    wholeDigits? (digits ++ '\n' :: more) = some (digits, '\n' :: more) := by
  obtain ⟨c, tail, rfl, isDigit⟩ := decimal.exists_cons
  have later : ∀ other ∈ tail, other.isDigit :=
    fun other member => decimal.isDigit other (List.mem_cons_of_mem _ member)
  have read :
      digits? Char.isDigit (c :: tail ++ '\n' :: more) = some (c :: tail, '\n' :: more) := by
    simp [digits?, isDigit, moreDigits_append later]
  unfold wholeDigits?
  rw [read]
  split
  · rename_i zero
    cases zero
    cases decimal.noLeadingZero rfl
  · rfl

theorem float_none : float? (digits ++ '\n' :: more) = none := by
  have notFinite : finiteFloat? (digits ++ '\n' :: more) = none := by
    simp [finiteFloat?, decimal.sign_eq, decimal.wholeDigits_eq, fraction, exponent?]
  have notSpecial : specialFloat? (digits ++ '\n' :: more) = none := by
    obtain ⟨c, tail, rfl, isDigit⟩ := decimal.exists_cons
    rw [specialFloat?, decimal.sign_eq]
    dsimp only
    split <;> rename_i same
    · cases (List.cons.inj same).1
      cases isDigit
    · cases (List.cons.inj same).1
      cases isDigit
    · rfl
  simp [float?, notFinite, notSpecial]

theorem integer_eq (fits : Nat.ofDigitChars 10 digits 0 ≤ Int64.maxValue.toInt) :
    integer? (digits ++ '\n' :: more) =
      some (.integer (Nat.ofDigitChars 10 digits 0), '\n' :: more) := by
  have inRange : integerInRange? (Nat.ofDigitChars 10 digits 0) =
      some (Nat.ofDigitChars 10 digits 0 : Int) := by
    have nonnegative : Int64.minValue.toInt ≤ 0 := by decide
    exact if_pos ⟨by omega, fits⟩
  have read : decimalInteger? (digits ++ '\n' :: more) =
      some (.integer (Nat.ofDigitChars 10 digits 0), '\n' :: more) := by
    simp [decimalInteger?, decimal.sign_eq, decimal.wholeDigits_eq,
      digitsValue_eq decimal.isDigit, inRange]
  have noPrefix : ∀ c cs, digits ++ '\n' :: more = '0' :: c :: cs → c.isDigit ∨ c = '\n' := by
    intro c cs same
    obtain ⟨first, tail, rfl, -⟩ := decimal.exists_cons
    cases tail with
    | nil =>
      cases same
      exact .inr rfl
    | cons second tail =>
      cases same
      exact .inl (decimal.isDigit _ (by simp))
  unfold integer?
  split
  iterate 3
    · rename_i same
      rcases noPrefix _ _ same with isDigit | lineFeed
      · cases isDigit
      · cases lineFeed
  · exact read

end Decimal

/-! ### Values -/

theorem value_scalar (depth : Nat) {c : Char} (notArray : c ≠ '[') (notTable : c ≠ '{') :
    value? depth (c :: cs) = (string? (c :: cs) <|> dateTime? (c :: cs) <|> float? (c :: cs) <|>
      integer? (c :: cs) <|> boolean? (c :: cs)) := by
  rw [value?] <;> simp [notArray, notTable]

theorem quotedText_head (s : List Char) :
    ∃ c tail, quotedText s = c :: tail ∧ (c = '"' ∨ c = '\x27') := by
  unfold quotedText
  dsimp only
  repeat' split
  all_goals simp [onOneLine, onLines, List.replicate]

theorem value_quotedText (depth : Nat) (s : List Char) (notDouble : rest.head? ≠ some '"')
    (notSingle : rest.head? ≠ some '\x27') :
    value? depth (quotedText s ++ rest) = some (.string (String.ofList s), rest) := by
  obtain ⟨c, tail, spelled, isQuote⟩ := quotedText_head s
  have read := quoted_quotedText s notDouble notSingle
  rw [spelled, List.cons_append] at read ⊢
  rw [value_scalar depth (by rintro rfl; simp at isQuote) (by rintro rfl; simp at isQuote)]
  simp [string?, read]

theorem value_toDigits (depth : Nat) (fits : n ≤ Int64.maxValue.toInt) :
    value? depth (Nat.toDigits 10 n ++ '\n' :: more) = some (.integer n, '\n' :: more) := by
  have decimal := decimal_toDigits n
  have same : Nat.ofDigitChars 10 (Nat.toDigits 10 n) 0 = n :=
    Nat.ofDigitChars_toDigits (by decide) (by decide)
  have read : integer? (Nat.toDigits 10 n ++ '\n' :: more) = some (.integer n, '\n' :: more) := by
    rw [decimal.integer_eq (by rwa [same]), same]
  obtain ⟨c, tail, spelled, isDigit⟩ := decimal.exists_cons
  rw [spelled, List.cons_append,
    value_scalar depth (ne_of_isDigit isDigit rfl) (ne_of_isDigit isDigit rfl),
    ← List.cons_append, ← spelled, decimal.string_none, decimal.dateTime_none, decimal.float_none, read]
  rfl

end QueryFilter.Toml
