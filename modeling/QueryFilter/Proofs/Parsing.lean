import QueryFilter.Proofs.Parsing.Consumed

/-!
# The parser and its grammar

`parseLexemes_eq_ok_iff` says which token lists are accepted, and as what. The tree is the only one
of its shape that the tokens spell.
-/

namespace QueryFilter

theorem canonical_of_parse {limits : Limits} {text : String} {expr : Expr}
    (h : parse limits text = .ok expr) : expr.Canonical := by
  obtain ⟨lexemes, -, parsed⟩ := bind_ok h
  exact (spells_of_parseLexemes parsed).2.1

/-- Two canonical trees with one spelling are the same tree. -/
theorem spelling_unique {tokens : List Token} {first second : Expr} (spellsFirst : Spells tokens first)
    (firstShape : first.Canonical) (spellsSecond : Spells tokens second)
    (secondShape : second.Canonical) : first = second := by
  -- Under limits that neither tree exceeds the parser has to return both.
  let limits : Limits :=
    ⟨max first.nesting second.nesting, max first.predicates second.predicates⟩
  let lexemes : List Lexeme := tokens.map fun token => ⟨token, "", 0⟩
  have same : lexemes.map Lexeme.token = tokens := by simp [lexemes, Function.comp_def]
  rw [← same] at spellsFirst spellsSecond
  have parsedFirst : parseLexemes limits lexemes = .ok first :=
    parseLexemes_of_spells spellsFirst firstShape (Nat.le_max_left ..) (Nat.le_max_left ..)
  have parsedSecond : parseLexemes limits lexemes = .ok second :=
    parseLexemes_of_spells spellsSecond secondShape (Nat.le_max_right ..) (Nat.le_max_right ..)
  exact Except.ok.inj (parsedFirst.symm.trans parsedSecond)

/-- The parser accepts exactly what the grammar spells in the canonical shape within the limits,
whatever the texts and places of the lexemes, and no token list spells two canonical trees. -/
theorem parseLexemes_eq_ok_iff (limits : Limits) (lexemes : List Lexeme) (expr : Expr) :
    (parseLexemes limits lexemes = .ok expr ↔
      Spells (lexemes.map Lexeme.token) expr ∧ expr.Canonical ∧
        expr.nesting ≤ limits.depth ∧ expr.predicates ≤ limits.terms) ∧
    ∀ other : Expr, Spells (lexemes.map Lexeme.token) expr → expr.Canonical →
      Spells (lexemes.map Lexeme.token) other → other.Canonical → expr = other := by
  refine ⟨⟨spells_of_parseLexemes, ?_⟩, ?_⟩
  · rintro ⟨spelled, shape, fits, room⟩
    exact parseLexemes_of_spells spelled shape fits room
  · intro other spelled shape spelledOther otherShape
    exact spelling_unique spelled shape spelledOther otherShape

theorem parseLexemes_negated_list :
    let lexemes := [⟨.name "a", "a", 0⟩, ⟨.not, "not", 2⟩, ⟨.isIn, "in", 6⟩, ⟨.openParen, "(", 9⟩,
      ⟨.literal (.string "x"), "'x'", 10⟩, ⟨.closeParen, ")", 13⟩]
    parseLexemes ⟨0, 1⟩ lexemes = .ok (.inList "a" true [.string "x"]) ∧
      ∀ other : Expr, Spells (lexemes.map Lexeme.token) other → other.Canonical →
        .inList "a" true [.string "x"] = other := by
  intro lexemes
  have spelled : Spells (lexemes.map Lexeme.token) (.inList "a" true [.string "x"]) :=
    .inList "a" .words [.string "x"]
  have shape : (Expr.inList "a" true [.string "x"]).Canonical := by simp [Expr.Canonical]
  have parsed := (parseLexemes_eq_ok_iff ⟨0, 1⟩ lexemes (.inList "a" true [.string "x"])).1.mpr
    ⟨spelled, shape, Nat.le_refl _, Nat.le_refl _⟩
  refine ⟨parsed, ?_⟩
  intro other
  exact (parseLexemes_eq_ok_iff ⟨0, 1⟩ lexemes _).2 other spelled shape

end QueryFilter
