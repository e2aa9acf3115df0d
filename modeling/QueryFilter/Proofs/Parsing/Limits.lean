import QueryFilter.Proofs.Parsing.Consumed

/-!
# Limits only reject

A parser with greater limits does the same as one with lower limits, unless a limit that was raised
had stopped the latter: `parseLexemes_lifted`. With the grammar this says which limit stops an
expression.
-/

namespace QueryFilter

/-- Two outcomes of one computation, the second under greater limits. -/
inductive Lifted (limits raised : Limits) {α : Type} :
    Except FilterError α → Except FilterError α → Prop where
  | same (outcome : Except FilterError α) : Lifted limits raised outcome outcome
  | tooDeep (lower : limits.depth < raised.depth) (outcome : Except FilterError α) :
    Lifted limits raised (.error (.nestedTooDeep limits.depth)) outcome
  | tooMany (lower : limits.terms < raised.terms) (outcome : Except FilterError α) :
    Lifted limits raised (.error (.tooManyTerms limits.terms)) outcome

variable {limits raised : Limits}

namespace Lifted

variable {α β : Type} {x y : Except FilterError α}

theorem bind {f g : α → Except FilterError β} (lifted : Lifted limits raised x y)
    (next : ∀ a, Lifted limits raised (f a) (g a)) : Lifted limits raised (x >>= f) (y >>= g) := by
  cases lifted with
  | same =>
    cases x with
    | ok a => exact next a
    | error e => exact .same _
  | tooDeep lower => exact .tooDeep lower _
  | tooMany lower => exact .tooMany lower _

theorem eq_or_stopped (lifted : Lifted limits raised x y) :
    y = x ∨ x = .error (.nestedTooDeep limits.depth) ∨ x = .error (.tooManyTerms limits.terms) := by
  cases lifted with
  | same => exact .inl rfl
  | tooDeep => exact .inr (.inl rfl)
  | tooMany => exact .inr (.inr rfl)

end Lifted

/-! ### Steps and runs -/

namespace Parser

theorem nest_lifted (depth : limits.depth ≤ raised.depth) (s : State) :
    Lifted limits raised (s.nest limits) (s.nest raised) := by
  unfold State.nest
  by_cases full : s.depth + 1 > limits.depth
  · rw [if_pos full]
    rcases Nat.lt_or_eq_of_le depth with lower | same
    · exact .tooDeep lower _
    · rw [if_pos (same ▸ full), same]
      exact .same _
  · rw [if_neg full, if_neg (by omega)]
    exact .same _

theorem countPredicate_lifted (terms : limits.terms ≤ raised.terms) (s : State) :
    Lifted limits raised (s.countPredicate limits) (s.countPredicate raised) := by
  unfold State.countPredicate
  by_cases full : s.terms + 1 > limits.terms
  · rw [if_pos full]
    rcases Nat.lt_or_eq_of_le terms with lower | same
    · exact .tooMany lower _
    · rw [if_pos (same ▸ full), same]
      exact .same _
  · rw [if_neg full, if_neg (by omega)]
    exact .same _

section

variable (depth : limits.depth ≤ raised.depth) (terms : limits.terms ≤ raised.terms)
include depth terms

theorem advance_lifted (s : State) (l : Lexeme) :
    Lifted limits raised (s.advance limits l) (s.advance raised l) := by
  -- Only the start of a term and the parenthesis behind a name look at the limits.
  generalize due : s.phase = current
  cases current with
  | term =>
    simp only [State.advance, due]
    split
    · exact (nest_lifted depth s).bind fun _ => .same _
    · exact (countPredicate_lifted terms s).bind fun _ => .same _
  | name name slot =>
    simp only [State.advance, due]
    split
    · exact (nest_lifted depth s).bind fun _ => .same _
    · exact .same _
  | _ =>
    simp only [State.advance, due]
    exact .same _

theorem step_lifted (s : State) (l : Lexeme) :
    Lifted limits raised (s.step limits l) (s.step raised l) := by
  unfold State.step
  split
  · exact advance_lifted depth terms s l
  · exact advance_lifted depth terms _ l

theorem run_lifted (s : State) (lexemes : List Lexeme) :
    Lifted limits raised (lexemes.foldlM (State.step limits) s)
      (lexemes.foldlM (State.step raised) s) := by
  induction lexemes generalizing s with
  | nil => exact .same _
  | cons l lexemes ih =>
    rw [List.foldlM_cons, List.foldlM_cons]
    exact (step_lifted depth terms s l).bind ih

end

theorem finish_lifted (terms : limits.terms ≤ raised.terms) (s : State) :
    Lifted limits raised (s.finish limits) (s.finish raised) := by
  unfold State.finish
  split
  · exact (countPredicate_lifted terms s).bind fun _ => .same _
  all_goals exact .same _

end Parser

theorem parseLexemes_lifted (depth : limits.depth ≤ raised.depth)
    (terms : limits.terms ≤ raised.terms) (lexemes : List Lexeme) :
    Lifted limits raised (parseLexemes limits lexemes) (parseLexemes raised lexemes) := by
  unfold parseLexemes
  split
  · exact .same _
  · exact (Parser.run_lifted depth terms _ lexemes).bind (Parser.finish_lifted terms)

/-! ### Which limit stops an expression -/

section

variable {lexemes : List Lexeme} {expr : Expr}

theorem depth_lt_of_tooDeep (terms : limits.terms ≤ raised.terms)
    (accepted : parseLexemes raised lexemes = .ok expr)
    (stopped : parseLexemes limits lexemes = .error (.nestedTooDeep limits.depth)) :
    limits.depth < expr.nesting := by
  obtain ⟨spelled, shape, -, room⟩ := spells_of_parseLexemes accepted
  apply Nat.lt_of_not_le
  intro fits
  -- If only the number of terms is raised, then the depth stops the parser still.
  let longer : Limits := ⟨limits.depth, raised.terms⟩
  have deep : parseLexemes longer lexemes = .ok expr :=
    parseLexemes_of_spells spelled shape fits room
  have same : limits.depth ≤ longer.depth := Nat.le_refl _
  have lifted : Lifted limits longer (parseLexemes limits lexemes) (parseLexemes longer lexemes) :=
    parseLexemes_lifted same terms lexemes
  rw [stopped, deep] at lifted
  cases lifted with
  | tooDeep lower => exact Nat.lt_irrefl _ lower

theorem terms_lt_of_tooMany (depth : limits.depth ≤ raised.depth)
    (accepted : parseLexemes raised lexemes = .ok expr)
    (stopped : parseLexemes limits lexemes = .error (.tooManyTerms limits.terms)) :
    limits.terms < expr.predicates := by
  obtain ⟨spelled, shape, fits, -⟩ := spells_of_parseLexemes accepted
  apply Nat.lt_of_not_le
  intro room
  let deeper : Limits := ⟨raised.depth, limits.terms⟩
  have long : parseLexemes deeper lexemes = .ok expr :=
    parseLexemes_of_spells spelled shape fits room
  have higher : limits.depth ≤ deeper.depth := depth
  have same : limits.terms ≤ deeper.terms := Nat.le_refl _
  have lifted : Lifted limits deeper (parseLexemes limits lexemes) (parseLexemes deeper lexemes) :=
    parseLexemes_lifted higher same lexemes
  rw [stopped, long] at lifted
  cases lifted with
  | tooMany lower => exact Nat.lt_irrefl _ lower

end

/-- Greater limits change nothing unless a limit is the reason of a rejection. What they let pass
the lower limits reject if and only if it exceeds one of them, and they name one that it exceeds. -/
theorem parseLexemes_raised (depth : limits.depth ≤ raised.depth)
    (terms : limits.terms ≤ raised.terms) (lexemes : List Lexeme) :
    ((∀ limit, parseLexemes limits lexemes ≠ .error (.nestedTooDeep limit)) →
      (∀ limit, parseLexemes limits lexemes ≠ .error (.tooManyTerms limit)) →
      parseLexemes raised lexemes = parseLexemes limits lexemes) ∧
    ∀ expr, parseLexemes raised lexemes = .ok expr →
      if expr.nesting ≤ limits.depth ∧ expr.predicates ≤ limits.terms then
        parseLexemes limits lexemes = .ok expr
      else
        parseLexemes limits lexemes = .error (.nestedTooDeep limits.depth) ∧
            limits.depth < expr.nesting ∨
          parseLexemes limits lexemes = .error (.tooManyTerms limits.terms) ∧
            limits.terms < expr.predicates := by
  have outcome := (parseLexemes_lifted depth terms lexemes).eq_or_stopped
  refine ⟨?_, ?_⟩
  · intro notDeep notMany
    rcases outcome with same | deep | many
    · exact same
    · exact absurd deep (notDeep _)
    · exact absurd many (notMany _)
  · intro expr accepted
    obtain ⟨spelled, shape, -, -⟩ := spells_of_parseLexemes accepted
    split
    · rename_i within
      exact parseLexemes_of_spells spelled shape within.1 within.2
    · rename_i beyond
      rcases outcome with same | deep | many
      · obtain ⟨-, -, fits, room⟩ := spells_of_parseLexemes (same.symm.trans accepted)
        exact absurd ⟨fits, room⟩ beyond
      · exact .inl ⟨deep, depth_lt_of_tooDeep terms accepted deep⟩
      · exact .inr ⟨many, terms_lt_of_tooMany depth accepted many⟩

theorem parseLexemes_raised_for_groups :
    let group := [⟨.openParen, "(", 0⟩, ⟨.openParen, "(", 1⟩, ⟨.name "a", "a", 2⟩, ⟨.is, "is", 4⟩,
      ⟨.null, "null", 7⟩, ⟨.closeParen, ")", 11⟩, ⟨.closeParen, ")", 12⟩]
    let closed := group ++ [⟨.closeParen, ")", 13⟩]
    parseLexemes ⟨1, 1⟩ group = .error (.nestedTooDeep 1) ∧
      parseLexemes ⟨2, 1⟩ group = .ok (.group (.group (.isNull "a" false))) ∧
      parseLexemes ⟨7, 9⟩ closed = .error (.unexpectedToken ")" 13) := by
  intro group closed
  have accepted : parseLexemes ⟨2, 1⟩ group = .ok (.group (.group (.isNull "a" false))) := rfl
  have misplaced : parseLexemes ⟨2, 1⟩ closed = .error (.unexpectedToken ")" 13) := rfl
  refine ⟨?_, accepted, ?_⟩
  · have stopped := (@parseLexemes_raised ⟨1, 1⟩ ⟨2, 1⟩ (by decide) (by decide) group).2 _ accepted
    simpa [Expr.nesting, Expr.predicates] using stopped
  · have same := (@parseLexemes_raised ⟨2, 1⟩ ⟨7, 9⟩ (by decide) (by decide) closed).1
      (by simp [misplaced]) (by simp [misplaced])
    exact same.trans misplaced

end QueryFilter
