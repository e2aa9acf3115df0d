import QueryFilter.Proofs.Parsing.Incomplete
import QueryFilter.Proofs.Parsing.Recasting

/-!
# `not in` as one token

The parser takes the tokens `not` and `in`, one behind the other, for the one token that means both:
`parseLexemes_respelled`. Where neither may stand, the first of the two is as wrong as the one.
-/

namespace QueryFilter

/-- The tokens, with one token in place of each `not` that an `in` follows. -/
def joinNotIn : List Token → List Token
  | .not :: .isIn :: tokens => .notIn :: joinNotIn tokens
  | token :: tokens => token :: joinNotIn tokens
  | [] => []

theorem joinNotIn_eq_nil {tokens : List Token} : joinNotIn tokens = [] ↔ tokens = [] := by
  fun_cases joinNotIn tokens <;> simp

namespace Parser

variable (limits : Limits)

/-- The two tokens lead where the one does: to a list if they stand behind a field, and to an error
of the same cause everywhere else. -/
theorem advance_notIn (s : State) :
    Agrees Eq (s.advance limits (bare .notIn))
      (s.advance limits (bare .not) >>= fun t => t.step limits (bare .isIn)) := by
  -- After `is` the first of the two tokens is read, and only the second is wrong.
  generalize due : s.phase = current
  cases current with
  | term =>
    simp only [State.advance, due, bare]
    unfold State.countPredicate
    by_cases full : s.terms + 1 > limits.terms
    · rw [if_pos full]
      exact .error rfl
    · rw [if_neg full]
      exact .error rfl
  | operator left position =>
    cases left with
    | field name =>
      simp only [State.advance, due, bare]
      exact .ok rfl
    | literal value =>
      simp only [State.advance, due, bare]
      exact .error rfl
    | call name args =>
      simp only [State.advance, due, bare]
      exact .error rfl
  | null field negated =>
    simp only [State.advance, due, bare]
    cases negated with
    | false => exact .error rfl
    | true => exact .error rfl
  | complete term =>
    simp only [State.advance, due, bare, State.afterTerm]
    exact .error rfl
  | _ =>
    simp only [State.advance, due, bare]
    exact .error rfl

theorem step_notIn (s : State) :
    Agrees Eq (s.step limits (bare .notIn))
      (s.step limits (bare .not) >>= fun t => t.step limits (bare .isIn)) := by
  rw [step_eq_advance (by simp [bare]), step_eq_advance (l := bare .not) (by simp [bare])]
  exact advance_notIn limits s.settle

theorem run_joinNotIn (s : State) (tokens : List Token) :
    Agrees Eq (((joinNotIn tokens).map bare).foldlM (State.step limits) s)
      ((tokens.map bare).foldlM (State.step limits) s) := by
  fun_induction joinNotIn tokens generalizing s with
  | case1 tokens ih =>
    simp only [List.map_cons, List.foldlM_cons, ← bind_assoc]
    refine (step_notIn limits s).bind ?_
    rintro t _ rfl
    exact ih t
  | case2 token tokens _ ih =>
    rw [List.map_cons, List.foldlM_cons, List.map_cons, List.foldlM_cons]
    refine (Agrees.of_eq rfl).bind ?_
    rintro t _ rfl
    exact ih t
  | case3 => exact .ok rfl

end Parser

/-! ### Texts and positions -/

theorem Operand.recast_id (operand : Operand) : operand.recast id = operand := by
  induction operand using Operand.induction with
  | field name => rfl
  | literal value => rfl
  | call name args ih => rw [recast_call, List.map_congr_left ih, List.map_id']

theorem Expr.recast_id (expr : Expr) : expr.recast id = expr := by
  induction expr with
  | comparison left op right => rw [recast, Operand.recast_id, Operand.recast_id]
  | inList field negated values => rw [recast, List.map_id]
  | isNull field negated => rfl
  | and left right ihLeft ihRight | or left right ihLeft ihRight => rw [recast, ihLeft, ihRight]
  | group inner ih => rw [recast, ih]

theorem Lexeme.recast_id (l : Lexeme) : l.recast id = Parser.bare l.token := by
  obtain ⟨token, text, position⟩ := l
  cases token <;> rfl

theorem parseLexemes_joinNotIn (limits : Limits) (tokens : List Token) :
    Agrees Eq (parseLexemes limits ((joinNotIn tokens).map Parser.bare))
      (parseLexemes limits (tokens.map Parser.bare)) := by
  unfold parseLexemes
  simp only [List.map_eq_nil_iff, joinNotIn_eq_nil]
  by_cases empty : tokens = []
  · rw [if_pos empty, if_pos empty]
    exact .error rfl
  · rw [if_neg empty, if_neg empty]
    refine (Parser.run_joinNotIn limits .initial tokens).bind ?_
    rintro s _ rfl
    exact .of_eq rfl

/-- The tokens alone, with `not in` as one of them, decide what is parsed. -/
theorem parseLexemes_bare (limits : Limits) (ls : List Lexeme) :
    Agrees Eq (parseLexemes limits ls)
      (parseLexemes limits ((joinNotIn (ls.map Lexeme.token)).map Parser.bare)) := by
  have stripped : ls.map (Lexeme.recast id) = (ls.map Lexeme.token).map Parser.bare := by
    rw [List.map_map]
    exact List.map_congr_left fun l _ => l.recast_id
  have recast := parseLexemes_recast id limits ls
  rw [stripped] at recast
  refine recast.join (parseLexemes_joinNotIn limits _) ?_
  rintro expr _ joined rfl rfl
  exact expr.recast_id.symm

/-- Lists that differ in texts, positions and the spelling of `not in` mean the same expression, or
are wrong for the same cause. -/
theorem parseLexemes_respelled (limits : Limits) {ls others : List Lexeme}
    (alike : joinNotIn (ls.map Lexeme.token) = joinNotIn (others.map Lexeme.token)) :
    Agrees Eq (parseLexemes limits ls) (parseLexemes limits others) := by
  have first := parseLexemes_bare limits ls
  have second := parseLexemes_bare limits others
  rw [← alike] at second
  exact first.join second fun _ _ _ same otherSame => same.trans otherSame.symm

end QueryFilter
