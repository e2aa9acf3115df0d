import Mathlib.Data.List.Infix
import QueryFilter.Proofs.Compilation

/-!
# What patterns match

A pattern is matched as SQL does. A literal goes into its pattern as it is, so a comparison with it
finds every text in which the literal stands at the right place. It finds no other text exactly if
the literal has none of the two characters that stand for others: `pattern_finds_iff`.
-/

namespace QueryFilter

/-! ### Matching -/

/-- Whether a text matches a pattern: a percent sign stands for any characters, an underscore for
any one character, and every other character for itself. -/
def matchesLike : List Char → List Char → Bool
  | [], text => text.isEmpty
  | p :: pattern, text =>
    if p = '%' then text.tails.any (matchesLike pattern)
    else match text with
      | [] => false
      | c :: rest => (p = '_' || p = c) && matchesLike pattern rest

/-- No character stands for others. -/
def Verbatim (sought : List Char) : Prop := ∀ c ∈ sought, c ≠ '%' ∧ c ≠ '_'

instance (sought : List Char) : Decidable (Verbatim sought) :=
  -- By name, since there are only finitely many characters and another instance tries them all.
  List.decidableBAll (fun c => c ≠ '%' ∧ c ≠ '_') sought

variable {p : Char} {pattern other text sought : List Char}

theorem matchesLike_nil : matchesLike [] text ↔ text = [] := by
  rw [matchesLike, List.isEmpty_iff]

theorem matchesLike_any :
    matchesLike ('%' :: pattern) text ↔ ∃ front back, text = front ++ back ∧
      matchesLike pattern back := by
  change text.tails.any (matchesLike pattern) = true ↔ _
  rw [List.any_eq_true]
  constructor
  · rintro ⟨back, isTail, matched⟩
    obtain ⟨front, same⟩ := (List.mem_tails _ _).mp isTail
    exact ⟨front, back, same.symm, matched⟩
  · rintro ⟨front, back, rfl, matched⟩
    exact ⟨back, (List.mem_tails _ _).mpr (List.suffix_append _ _), matched⟩

theorem matchesLike_cons (notAny : p ≠ '%') :
    matchesLike (p :: pattern) text ↔ ∃ c rest, text = c :: rest ∧ (p = '_' ∨ p = c) ∧
      matchesLike pattern rest := by
  cases text <;> simp [matchesLike, notAny]

/-- Two patterns one behind the other match a text in two parts. -/
theorem matchesLike_append : matchesLike (pattern ++ other) text ↔
    ∃ front back, text = front ++ back ∧ matchesLike pattern front ∧ matchesLike other back := by
  induction pattern generalizing text with
  | nil => simp [matchesLike_nil]
  | cons p pattern ih =>
    rw [List.cons_append]
    by_cases isAny : p = '%'
    · subst isAny
      simp only [matchesLike_any, ih]
      constructor
      · rintro ⟨front, _, rfl, middle, back, rfl, first, second⟩
        exact ⟨front ++ middle, back, by simp, ⟨front, middle, rfl, first⟩, second⟩
      · rintro ⟨_, back, rfl, ⟨front, middle, rfl, first⟩, second⟩
        exact ⟨front, middle ++ back, by simp, middle, back, rfl, first, second⟩
    · simp only [matchesLike_cons isAny, ih]
      constructor
      · rintro ⟨c, _, rfl, stands, front, back, rfl, first, second⟩
        exact ⟨c :: front, back, rfl, ⟨c, front, rfl, stands, first⟩, second⟩
      · rintro ⟨_, back, rfl, ⟨c, front, rfl, stands, first⟩, second⟩
        exact ⟨c, front ++ back, rfl, stands, front, back, rfl, first, second⟩

theorem matchesLike_percent (text : List Char) : matchesLike ['%'] text :=
  matchesLike_any.mpr ⟨text, [], by simp, matchesLike_nil.mpr rfl⟩

theorem matchesLike_self (pattern : List Char) : matchesLike pattern pattern := by
  induction pattern with
  | nil => rfl
  | cons p pattern ih =>
    by_cases isAny : p = '%'
    · subst isAny
      exact matchesLike_any.mpr ⟨['%'], pattern, rfl, ih⟩
    · exact (matchesLike_cons isAny).mpr ⟨p, pattern, rfl, .inr rfl, ih⟩

theorem matchesLike_verbatim (verbatim : Verbatim sought) :
    matchesLike sought text ↔ text = sought := by
  induction sought generalizing text with
  | nil => exact matchesLike_nil
  | cons c sought ih =>
    obtain ⟨⟨notAny, notOne⟩, more⟩ := List.forall_mem_cons.mp verbatim
    rw [matchesLike_cons notAny]
    constructor
    · rintro ⟨d, rest, rfl, stands, matched⟩
      rw [stands.resolve_left notOne, (ih more).mp matched]
    · rintro rfl
      exact ⟨c, sought, rfl, .inr rfl, (ih more).mpr rfl⟩

/-- The pattern with no character for a percent sign and a letter for an underscore. -/
def sample (pattern : List Char) : List Char :=
  pattern.flatMap fun p => if p = '%' then [] else if p = '_' then ['x'] else [p]

theorem matchesLike_sample (pattern : List Char) :
    matchesLike pattern (sample pattern) := by
  induction pattern with
  | nil => rfl
  | cons p pattern ih =>
    rw [sample, List.flatMap_cons]
    split_ifs with isAny isOne
    · subst isAny
      exact matchesLike_any.mpr ⟨[], _, rfl, ih⟩
    · exact (matchesLike_cons isAny).mpr ⟨'x', _, rfl, .inl isOne, ih⟩
    · exact (matchesLike_cons isAny).mpr ⟨p, _, rfl, .inr rfl, ih⟩

theorem verbatim_sample (pattern : List Char) : Verbatim (sample pattern) := by
  intro c member
  obtain ⟨p, -, inside⟩ := List.mem_flatMap.mp member
  split_ifs at inside with isAny isOne
  · cases inside
  · obtain rfl := List.mem_singleton.mp inside
    decide
  · obtain rfl := List.mem_singleton.mp inside
    exact ⟨isAny, isOne⟩

/-! ### Finding -/

/-- The operator that looks for a literal in the way of a pattern. -/
def Pattern.operator : Pattern → Comparison
  | .anywhere => .contains
  | .atStart => .startsWith
  | .atEnd => .endsWith

/-- The text contains, starts with or ends with what is sought. -/
def Pattern.Finds (pattern : Pattern) (sought text : List Char) : Prop :=
  match pattern with
  | .anywhere => sought <:+: text
  | .atStart => sought <+: text
  | .atEnd => sought <:+ text

theorem Pattern.Finds.within {pattern : Pattern} (finds : pattern.Finds sought text) :
    sought <:+: text := by
  cases pattern with
  | anywhere => exact finds
  | atStart => exact List.IsPrefix.isInfix finds
  | atEnd => exact List.IsSuffix.isInfix finds

/-- A pattern finds the texts that have a part, where the pattern says, which matches what is
sought. -/
theorem matchesLike_text (pattern : Pattern) (sought : String) :
    matchesLike (pattern.text sought).toList text ↔
      ∃ part, pattern.Finds part text ∧ matchesLike sought.toList part := by
  have percent : Pattern.any.toList = ['%'] := by decide
  have always (part : List Char) : matchesLike ['%'] part ↔ True :=
    iff_true_intro (matchesLike_percent part)
  cases pattern with
  | anywhere =>
    simp only [Pattern.text, Pattern.Finds, String.toList_append, percent, matchesLike_append,
      always, and_true, true_and]
    constructor
    · rintro ⟨_, back, rfl, front, part, rfl, matched⟩
      exact ⟨part, ⟨front, back, rfl⟩, matched⟩
    · rintro ⟨part, ⟨front, back, rfl⟩, matched⟩
      exact ⟨front ++ part, back, rfl, front, part, rfl, matched⟩
  | atStart =>
    simp only [Pattern.text, Pattern.Finds, String.toList_append, percent, matchesLike_append,
      always, and_true]
    constructor
    · rintro ⟨part, back, rfl, matched⟩
      exact ⟨part, ⟨back, rfl⟩, matched⟩
    · rintro ⟨part, ⟨back, rfl⟩, matched⟩
      exact ⟨part, back, rfl, matched⟩
  | atEnd =>
    simp only [Pattern.text, Pattern.Finds, String.toList_append, percent, matchesLike_append,
      always, true_and]
    constructor
    · rintro ⟨front, part, rfl, matched⟩
      exact ⟨part, ⟨front, rfl⟩, matched⟩
    · rintro ⟨part, ⟨front, rfl⟩, matched⟩
      exact ⟨front, part, rfl, matched⟩

/-! ### Numbers -/

theorem verbatim_toDigits (n : Nat) : Verbatim (Nat.toDigits 10 n) := by
  intro c member
  have isDigit := Nat.isDigit_of_mem_toDigits (by decide) (by decide) member
  constructor <;>
  · rintro rfl
    cases isDigit

theorem verbatim_integerText (n : Int) : Verbatim (Text.integerText n) := by
  cases n with
  | ofNat n => exact verbatim_toDigits n
  | negSucc n => exact List.forall_mem_cons.mpr ⟨by decide, verbatim_toDigits _⟩

theorem verbatim_positional (d : Decimal) : Verbatim d.positional := by
  have digits := verbatim_toDigits d.digits
  have zeros (n : Nat) : Verbatim (List.replicate n '0') := by
    intro c member
    obtain rfl := List.eq_of_mem_replicate member
    decide
  unfold Decimal.positional
  split
  · exact List.forall_mem_append.mpr ⟨digits, zeros _⟩
  · dsimp only
    split
    · exact List.forall_mem_append.mpr ⟨fun c member => digits c (List.mem_of_mem_take member),
        List.forall_mem_cons.mpr
          ⟨by decide, fun c member => digits c (List.mem_of_mem_drop member)⟩⟩
    · exact List.forall_mem_append.mpr ⟨List.forall_mem_cons.mpr
        ⟨by decide, List.forall_mem_cons.mpr ⟨by decide, zeros _⟩⟩, digits⟩

theorem verbatim_signed (x : Binary64) (verbatim : Verbatim text) : Verbatim (x.signed text) := by
  unfold Binary64.signed
  split
  · exact List.forall_mem_cons.mpr ⟨by decide, verbatim⟩
  · exact verbatim

theorem verbatim_pointedText (x : Binary64) : Verbatim x.pointedText := by
  have ending : Verbatim ['.', '0'] := by decide
  have undefined : Verbatim ['N', 'a', 'N'] := by decide
  have unbounded : Verbatim ['i', 'n', 'f'] := by decide
  unfold Binary64.pointedText Binary64.plainText
  split_ifs
  · exact verbatim_signed x (List.forall_mem_append.mpr ⟨verbatim_toDigits _, ending⟩)
  · exact undefined
  · exact verbatim_signed x (verbatim_positional _)
  · exact verbatim_signed x unbounded

/-- The text of a number has no character that stands for others. -/
theorem Literal.verbatim_text {value : Literal} (number : ∀ s, value ≠ .string s) :
    Verbatim value.text.toList := by
  cases value with
  | integer n => simpa [Literal.text] using verbatim_integerText n.toInt
  | float x => simpa [Literal.text] using verbatim_pointedText x
  | string s => exact absurd rfl (number s)

/-! ### Comparisons with a literal -/

/-- The three operators that look for a text bind one pattern for a literal. It matches every text
that contains, starts with or ends with the text of the literal, it matches no other exactly if the
text has neither of the two characters that stand for others, and the text of a number has none.
In general it matches where a part of the text matches the literal as a pattern. -/
theorem pattern_finds_iff (table field : String) (pattern : Pattern) (value : Literal) :
    ∃ bound : String,
      (Expr.comparison (.field field) pattern.operator (.literal value)).toClause table =
        .ok (.compare (.column table field) .like (.value (.string bound))) ∧
      (∀ text : String, pattern.Finds value.text.toList text.toList →
        matchesLike bound.toList text.toList) ∧
      ((∀ text : String, matchesLike bound.toList text.toList ↔
        pattern.Finds value.text.toList text.toList) ↔ Verbatim value.text.toList) ∧
      ((∀ s, value ≠ .string s) → Verbatim value.text.toList) ∧
      ∀ text : String, matchesLike bound.toList text.toList ↔
        ∃ part, pattern.Finds part text.toList ∧ matchesLike value.text.toList part := by
  refine ⟨pattern.text value.text, by cases pattern <;> rfl, ?_, ?_, Literal.verbatim_text,
    fun text => matchesLike_text pattern value.text⟩
  · intro text finds
    exact (matchesLike_text pattern value.text).mpr ⟨_, finds, matchesLike_self _⟩
  · constructor
    · intro only
      -- A text that matches by itself holds the literal only if the literal is too.
      have itself : pattern.Finds (sample value.text.toList) (sample value.text.toList) := by
        cases pattern with
        | anywhere => exact List.infix_rfl
        | atStart => exact List.prefix_rfl
        | atEnd => exact List.suffix_rfl
      have finds := (only (String.ofList (sample value.text.toList))).mp
        ((matchesLike_text pattern value.text).mpr
          ⟨_, by rw [String.toList_ofList]; exact itself, matchesLike_sample _⟩)
      rw [String.toList_ofList] at finds
      exact fun c member => verbatim_sample _ c (finds.within.subset member)
    · intro verbatim text
      rw [matchesLike_text]
      simp only [matchesLike_verbatim verbatim, exists_eq_right]

/-- The text of a decimal is found at the end of texts and nowhere else. -/
theorem pattern_finds_iff_decimal :
    (∀ s, Literal.float ⟨0xBFF8000000000000⟩ ≠ .string s) ∧ ∃ bound : String,
      (Expr.comparison (.field "x") .endsWith
          (.literal (.float ⟨0xBFF8000000000000⟩))).toClause "t" =
        .ok (.compare (.column "t" "x") .like (.value (.string bound))) ∧
      "-1.5".toList <:+ "a-1.5".toList ∧ matchesLike bound.toList "a-1.5".toList ∧
      ∀ text : String, matchesLike bound.toList text.toList ↔ "-1.5".toList <:+ text.toList := by
  have number : ∀ s, Literal.float ⟨0xBFF8000000000000⟩ ≠ .string s := by simp
  have sought : (Literal.float ⟨0xBFF8000000000000⟩).text = "-1.5" := by decide +kernel
  have present : "-1.5".toList <:+ "a-1.5".toList := by decide
  obtain ⟨bound, compiled, found, exactly, verbatim, -⟩ :=
    pattern_finds_iff "t" "x" .atEnd (.float ⟨0xBFF8000000000000⟩)
  rw [sought] at found exactly verbatim
  exact ⟨number, bound, compiled, present, found "a-1.5" present, exactly.mpr (verbatim number)⟩

/-- With a percent sign in the literal a text is found that does not contain the literal. -/
theorem percent_found_elsewhere : ∃ bound : String,
    (Expr.comparison (.field "x") .contains (.literal (.string "50%"))).toClause "t" =
      .ok (.compare (.column "t" "x") .like (.value (.string bound))) ∧
    matchesLike bound.toList "500".toList ∧ ¬ "50%".toList <:+: "500".toList :=
  ⟨"%50%%", rfl, by decide, by decide⟩

end QueryFilter
