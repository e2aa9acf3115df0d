import QueryFilter.Proofs.Parsing.Agreement

/-!
# Balanced counters

From any counters within the limits a rule of the grammar returns at the depth at which it started,
behind exactly the tokens that spell its result, with one more predicate counted for each in the
result. So siblings start at the same depth, and no run lowers a depth that was not raised.
-/

namespace QueryFilter.Descent

open QueryFilter.Parser (State Chain)

variable {α : Type} {limits : Limits} {lexemes : List Lexeme} {c c' : Counters}

/-- Between the two counters the tokens are read and the predicates counted, and every level that
was opened is closed. -/
structure Balanced (limits : Limits) (lexemes : List Lexeme) (c : Counters) (tokens : List Token)
    (predicates : Nat) (c' : Counters) : Prop where
  depth_eq : c'.depth = c.depth
  drop_eq : (lexemes.map Lexeme.token).drop c.position =
    tokens ++ (lexemes.map Lexeme.token).drop c'.position
  position_eq : c'.position = c.position + tokens.length
  position_lt : c.position < c'.position
  position_le : c'.position ≤ lexemes.length
  terms_eq : c'.terms = c.terms + predicates
  terms_le : c'.terms ≤ limits.terms

theorem Here.balanced {outcome : Except FilterError Expr} {tokens : List Token} {predicates : Nat}
    {s : State} (here : Here limits lexemes c outcome c.depth tokens predicates s c')
    (nonempty : tokens ≠ []) : Balanced limits lexemes c tokens predicates c' := by
  have length_eq := congrArg List.length here.drop_eq
  simp only [List.length_append, List.length_drop, List.length_map] at length_eq
  have position_eq := here.position_eq
  have some := List.length_pos_iff.mpr nonempty
  exact {
    depth_eq := here.depth_eq
    drop_eq := here.drop_eq
    position_eq := position_eq
    position_lt := by omega
    position_le := by omega
    terms_eq := here.terms_eq
    terms_le := here.terms_le }

theorem Ends.returned {returned : α → Counters → Prop} {refused : FilterError → Counters → Prop}
    {reader : Reader α} {a : α} (ends : Ends returned refused (reader c))
    (run : reader c = .ok a c') : returned a c' := by
  rw [run] at ends
  cases ends with
  | ok holds => exact holds

section

variable (fits : c.depth ≤ limits.depth) (room : c.terms ≤ limits.terms)
include fits room

/-- The machine stands at the start of an expression, so that the chain before it is empty. -/
theorem reader_balanced {reader : Reader Expr} {ready : Chain → Prop} {separators : List Token}
    {expr : Expr}
    (reads : ∀ outcome, ReadsExpr limits lexemes c outcome c.depth ready separators reader)
    (empty : ready .empty) (run : reader c = .ok expr c') :
    ∃ tokens, Spells tokens expr ∧ Balanced limits lexemes c tokens expr.predicates c' := by
  have start := Here.start lexemes .initial fits room
  obtain ⟨⟨tokens, spelled, here⟩, -⟩ := (reads _ (s := .initial) empty start).returned run
  rw [List.nil_append, Nat.zero_add] at here
  exact ⟨tokens, spelled, here.balanced (spells_ne_nil spelled)⟩

theorem expression_balanced {expr : Expr} (run : expression limits lexemes c = .ok expr c') :
    ∃ tokens, Spells tokens expr ∧ Balanced limits lexemes c tokens expr.predicates c' :=
  reader_balanced fits room (fun _ => expressionWithin_ends (Counters.levels_eq fits)) rfl run

theorem term_balanced {expr : Expr} (run : term limits lexemes c = .ok expr c') :
    ∃ tokens, Spells tokens expr ∧ Balanced limits lexemes c tokens expr.predicates c' := by
  have levels_eq := Counters.levels_eq fits
  exact reader_balanced fits room (fun _ => termOf_ends (operandWithin_ends levels_eq)
    (expressionWithin_ends (by omega))) trivial run

theorem operand_balanced {value : Operand} (run : operand limits lexemes c = .ok value c') :
    Balanced limits lexemes c value.tokens 0 c' := by
  have start := Here.start lexemes { State.initial with phase := .operand (.left 0) } fits room
  have here := (operandWithin_ends (Counters.levels_eq fits) (s := .initial) start).returned run
  exact here.balanced (operand_tokens_ne_nil value)

theorem call_balanced {name : String} {value : Operand}
    (run : call limits lexemes name c = .ok value c') : ∃ tokens,
      value.tokens = .name name :: tokens ∧ Balanced limits lexemes c tokens 0 c' := by
  have levels_eq := Counters.levels_eq fits
  have start := Here.start lexemes { State.initial with phase := .name name (.left 0) } fits room
  have nested : ReadsOperand limits lexemes c
      (resume limits lexemes (c.into { State.initial with phase := .name name (.left 0) })
        c.position)
      (c.depth + 1) (operandWithin limits lexemes (c.levels limits - 1)) :=
    operandWithin_ends (by omega)
  rcases next_cases lexemes c .openParen with ⟨l, found, isOpen⟩ | notOpen
  · obtain ⟨args, rfl, here⟩ := (callOf_ends nested start found isOpen).returned run
    exact ⟨_, Operand.tokens_call name args, here.balanced (by simp)⟩
  · have halted : ∃ e, expect lexemes .openParen c = .error e c := by
      rw [expect_other notOpen]
      cases found : lexemes[c.position]? with
      | none => exact ⟨_, unexpected_none found⟩
      | some l => exact ⟨_, unexpected_some found⟩
    obtain ⟨e, halted⟩ := halted
    have failed : call limits lexemes name c = .error e c := bind_of_error halted _
    rw [failed] at run
    cases run

end

/-- Expressions, terms and operands are read by a balanced run from any counters within the limits,
and so is a call, whose name is read before it. A run of the parser ends with the answer of
`parseLexemes`, has not been deeper than one level beyond the limit, and does not underflow. -/
theorem counters_balance (limits : Limits) (lexemes : List Lexeme) :
    (∀ c : Counters, c.depth ≤ limits.depth → c.terms ≤ limits.terms →
      (∀ expr c', expression limits lexemes c = .ok expr c' →
        ∃ tokens, Spells tokens expr ∧ Balanced limits lexemes c tokens expr.predicates c') ∧
      (∀ expr c', term limits lexemes c = .ok expr c' →
        ∃ tokens, Spells tokens expr ∧ Balanced limits lexemes c tokens expr.predicates c') ∧
      (∀ value c', operand limits lexemes c = .ok value c' →
        Balanced limits lexemes c value.tokens 0 c') ∧
      (∀ name value c', call limits lexemes name c = .ok value c' →
        ∃ tokens, value.tokens = .name name :: tokens ∧ Balanced limits lexemes c tokens 0 c')) ∧
    Ends (fun expr c => parseLexemes limits lexemes = .ok expr ∧ c.deepest ≤ limits.depth + 1)
      (fun e c => parseLexemes limits lexemes = .error e ∧ c.deepest ≤ limits.depth + 1)
      (parse limits lexemes .initial) := by
  refine ⟨fun c fits room => ⟨?_, ?_, ?_, ?_⟩, parse_ends limits lexemes⟩
  · exact fun _ _ => expression_balanced fits room
  · exact fun _ _ => term_balanced fits room
  · exact fun _ _ => operand_balanced fits room
  · exact fun _ _ _ => call_balanced fits room

/-- `(f(x) eq y) and (g() eq z)`, two groups with a call in each. -/
def siblingGroups : List Lexeme :=
  [.openParen, .name "f", .openParen, .name "x", .closeParen, .comparison .equal, .name "y",
    .closeParen, .and, .openParen, .name "g", .openParen, .closeParen, .comparison .equal,
    .name "z", .closeParen].map fun token => ⟨token, token.label, 0⟩

theorem counters_balance_siblingGroups :
    (∃ tokens, Spells tokens (.and
        (.group (.comparison (.call "f" [.field "x"]) .equal (.field "y")))
        (.group (.comparison (.call "g" []) .equal (.field "z")))) ∧
      Balanced ⟨2, 2⟩ siblingGroups .initial tokens 2 ⟨16, 0, 2, 2⟩) ∧
    ∃ tokens, (Operand.call "f" [.field "x"]).tokens = .name "f" :: tokens ∧
      Balanced ⟨2, 2⟩ siblingGroups ⟨2, 1, 1, 1⟩ tokens 0 ⟨5, 1, 1, 2⟩ := by
  have balance := (counters_balance ⟨2, 2⟩ siblingGroups).1
  obtain ⟨whole, -⟩ := balance .initial (by decide) (by decide)
  obtain ⟨-, -, -, inner⟩ := balance ⟨2, 1, 1, 1⟩ (by decide) (by decide)
  exact ⟨whole _ _ (by cbv), inner _ _ _ (by cbv)⟩

end QueryFilter.Descent
