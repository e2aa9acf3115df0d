import QueryFilter.Proofs.Parsing.Lockstep

/-!
# The levels are no bound of their own

The descent counts the levels that are left only to end its recursion. Within the depth limit each
of its functions is what the grammar says of the others: `expression_eq`, `term_eq`, `operand_eq`
and `call_eq`.
-/

namespace QueryFilter.Descent

variable {α β : Type} {limits : Limits} {lexemes : List Lexeme} {c : Counters}
  {first second third depth levels : Nat}

/-- From counters at the first depth both readers do the same, and they return at the second. -/
def Moves (first second : Nat) (x y : Reader α) : Prop :=
  ∀ c : Counters, c.depth = first → x c = y c ∧ ∀ a c', x c = .ok a c' → c'.depth = second

theorem Moves.bind {x y : Reader α} {f g : α → Reader β} (start : Moves first second x y)
    (next : ∀ a, Moves second third (f a) (g a)) : Moves first third (x >>= f) (y >>= g) := by
  intro c atFirst
  obtain ⟨same, returns⟩ := start c atFirst
  cases run : x c with
  | ok a c' =>
    rw [bind_of_ok run, bind_of_ok (same ▸ run)]
    exact next a c' (returns a c' run)
  | error halt c' =>
    rw [bind_of_error run, bind_of_error (same ▸ run)]
    exact ⟨rfl, fun _ _ ok => by cases ok⟩

theorem Moves.pure (a : α) : Moves depth depth (Pure.pure a) (Pure.pure a) := by
  intro c atDepth
  refine ⟨rfl, ?_⟩
  rintro _ _ ⟨⟩
  exact atDepth

theorem refuse_moves (e : FilterError) :
    Moves first second (refuse e : Reader α) (refuse e) :=
  fun _ _ => ⟨rfl, fun _ _ ok => by cases ok⟩

theorem peek_moves : Moves depth depth (peek lexemes) (peek lexemes) := by
  intro c atDepth
  refine ⟨rfl, ?_⟩
  rintro _ _ ⟨⟩
  exact atDepth

theorem check_moves (token : Token) :
    Moves depth depth (check lexemes token) (check lexemes token) :=
  peek_moves.bind fun _ => .pure _

theorem advance_moves : Moves depth depth (advance lexemes) (advance lexemes) := by
  intro c atDepth
  refine ⟨rfl, ?_⟩
  rintro _ _ ⟨⟩
  split <;> exact atDepth

theorem unexpected_moves :
    Moves first second (unexpected lexemes : Reader α) (unexpected lexemes) := by
  unfold unexpected
  refine peek_moves.bind fun next => ?_
  cases next with
  | none => exact refuse_moves _
  | some l => exact refuse_moves _

theorem expect_moves (token : Token) :
    Moves depth depth (expect lexemes token) (expect lexemes token) := by
  unfold expect
  refine peek_moves.bind fun next => ?_
  cases next with
  | none => exact unexpected_moves
  | some l =>
    dsimp only
    split
    · exact advance_moves.bind fun _ => .pure _
    · exact unexpected_moves

theorem closing_moves (opening : Nat) :
    Moves depth depth (closing lexemes opening) (closing lexemes opening) := by
  unfold closing
  refine peek_moves.bind fun next => ?_
  cases next with
  | none => exact refuse_moves _
  | some l => exact (expect_moves _).bind fun _ => .pure _

theorem enter_moves : Moves depth (depth + 1) (enter limits) (enter limits) := by
  intro c atDepth
  refine ⟨rfl, fun _ c' ok => ?_⟩
  by_cases room : c.depth + 1 ≤ limits.depth
  · rw [enter_of_le room] at ok
    cases ok
    exact congrArg (· + 1) atDepth
  · rw [enter_of_lt (Nat.lt_of_not_le room)] at ok
    cases ok

theorem leave_moves : Moves (depth + 1) depth leave leave := by
  intro c atDepth
  have inside : c.depth ≠ 0 := by omega
  refine ⟨rfl, fun _ c' ok => ?_⟩
  rw [leave, if_neg inside] at ok
  cases ok
  exact Nat.sub_eq_of_eq_add atDepth

theorem countTerm_moves : Moves depth depth (countTerm limits) (countTerm limits) := by
  intro c atDepth
  refine ⟨rfl, fun _ c' ok => ?_⟩
  unfold countTerm at ok
  dsimp only at ok
  split at ok
  · cases ok
  · cases ok
    exact atDepth

theorem loop_moves {separator : Token} {x y : Reader α} {join : β → α → β}
    (item : Moves depth depth x y) (bound : Nat) (joined : β) :
    Moves depth depth (loop lexemes separator x join bound joined)
      (loop lexemes separator y join bound joined) := by
  induction bound generalizing joined with
  | zero => exact .pure _
  | succ bound ih =>
    unfold loop
    refine (check_moves _).bind fun separated => ?_
    cases separated with
    | false => exact .pure _
    | true => exact advance_moves.bind fun _ => item.bind fun next => ih (join joined next)

/-! ### Operands -/

theorem literal_moves : Moves depth depth (literal lexemes) (literal lexemes) := by
  unfold literal
  refine peek_moves.bind fun next => ?_
  split
  · exact advance_moves.bind fun _ => .pure _
  · exact unexpected_moves

section

variable {x y : Reader Operand} (nested : Moves (depth + 1) (depth + 1) x y)
include nested

theorem callOf_moves (name : String) :
    Moves depth depth (callOf limits lexemes x name) (callOf limits lexemes y name) := by
  have arguments : Moves (depth + 1) (depth + 1) (arguments lexemes x) (arguments lexemes y) := by
    refine (check_moves _).bind fun closed => ?_
    cases closed with
    | false => exact nested.bind fun _ => loop_moves nested _ _
    | true => exact .pure _
  exact (expect_moves _).bind fun opening => enter_moves.bind fun _ => arguments.bind fun args =>
    (closing_moves opening).bind fun _ => leave_moves.bind fun _ => .pure _

theorem operandOf_moves :
    Moves depth depth (operandOf limits lexemes x) (operandOf limits lexemes y) := by
  unfold operandOf
  refine peek_moves.bind fun next => ?_
  generalize next.map Lexeme.token = token?
  have literal : Moves depth depth
      (literal lexemes >>= fun value => Pure.pure (Operand.literal value))
      (literal lexemes >>= fun value => Pure.pure (Operand.literal value)) :=
    literal_moves.bind fun _ => .pure _
  cases token? with
  | none => exact literal
  | some token =>
    cases token with
    | name name =>
      refine advance_moves.bind fun _ => (check_moves _).bind fun called => ?_
      cases called with
      | false => exact .pure _
      | true => exact callOf_moves nested name
    | _ => exact literal

end

/-! ### Predicates -/

theorem subject_moves (left : Operand) (start : Nat) :
    Moves depth depth (subject left start) (subject left start) := by
  unfold subject
  cases Parser.subjectField left start with
  | ok field => exact .pure field
  | error e => exact refuse_moves e

theorem valueList_moves : Moves depth depth (valueList lexemes) (valueList lexemes) := by
  unfold valueList
  refine (expect_moves _).bind fun opening => (check_moves _).bind fun closed => ?_
  cases closed with
  | true => exact refuse_moves _
  | false => exact literal_moves.bind fun first => (loop_moves literal_moves _ _).bind fun values =>
      (closing_moves opening).bind fun _ => .pure _

theorem nullTest_moves (left : Operand) (start : Nat) :
    Moves depth depth (nullTest lexemes left start) (nullTest lexemes left start) := by
  unfold nullTest
  refine (subject_moves left start).bind fun field => advance_moves.bind fun _ =>
    (check_moves _).bind fun negated => ?_
  have word : Moves depth depth
      (expect lexemes .null >>= fun _ => Pure.pure (Expr.isNull field negated))
      (expect lexemes .null >>= fun _ => Pure.pure (Expr.isNull field negated)) :=
    (expect_moves _).bind fun _ => .pure _
  cases negated with
  | true => exact advance_moves.bind fun _ => word
  | false => exact word

theorem membership_moves (left : Operand) (start : Nat) (negated : Bool) : Moves depth depth
    (membership lexemes left start negated) (membership lexemes left start negated) :=
  (subject_moves left start).bind fun _ => advance_moves.bind fun _ => valueList_moves.bind fun _ =>
    .pure _

theorem negatedMembership_moves (left : Operand) (start : Nat) : Moves depth depth
    (negatedMembership lexemes left start) (negatedMembership lexemes left start) :=
  (subject_moves left start).bind fun _ => advance_moves.bind fun _ =>
    (expect_moves _).bind fun _ => valueList_moves.bind fun _ => .pure _

theorem predicateOf_moves {x y : Reader Operand} (operand : Moves depth depth x y) :
    Moves depth depth (predicateOf limits lexemes x) (predicateOf limits lexemes y) := by
  unfold predicateOf
  refine countTerm_moves.bind fun _ => peek_moves.bind fun start => operand.bind fun left => ?_
  unfold behindSubject
  refine peek_moves.bind fun next => ?_
  generalize next.map Lexeme.token = token?
  cases token? with
  | none => exact unexpected_moves
  | some token =>
    cases token with
    | comparison op => exact advance_moves.bind fun _ => operand.bind fun _ => .pure _
    | is => exact nullTest_moves left _
    | isIn => exact membership_moves left _ false
    | not => exact negatedMembership_moves left _
    | notIn => exact membership_moves left _ true
    | _ => exact unexpected_moves

/-! ### Expressions -/

theorem groupOf_moves {x y : Reader Expr} (inner : Moves (depth + 1) (depth + 1) x y) :
    Moves depth depth (groupOf limits lexemes x) (groupOf limits lexemes y) := by
  unfold groupOf
  refine (expect_moves _).bind fun opening => enter_moves.bind fun _ => inner.bind fun expr =>
    leave_moves.bind fun _ => (check_moves _).bind fun closed => ?_
  cases closed with
  | true => exact advance_moves.bind fun _ => .pure _
  | false =>
    refine peek_moves.bind fun next => ?_
    cases next with
    | none => exact refuse_moves _
    | some l => exact unexpected_moves

theorem termOf_moves {x y : Reader Operand} {u v : Reader Expr} (operand : Moves depth depth x y)
    (inner : Moves (depth + 1) (depth + 1) u v) :
    Moves depth depth (termOf limits lexemes x u) (termOf limits lexemes y v) := by
  refine (check_moves _).bind fun opens => ?_
  cases opens with
  | true => exact groupOf_moves inner
  | false => exact predicateOf_moves operand

theorem conjunctionOf_moves {x y : Reader Expr} (term : Moves depth depth x y) :
    Moves depth depth (conjunctionOf lexemes x) (conjunctionOf lexemes y) :=
  term.bind fun _ => loop_moves term _ _

theorem disjunctionOf_moves {x y : Reader Expr} (conjunction : Moves depth depth x y) :
    Moves depth depth (disjunctionOf lexemes x) (disjunctionOf lexemes y) :=
  conjunction.bind fun _ => loop_moves conjunction _ _

/-! ### Levels -/

theorem Moves.steady {x y : Reader α} (moves : Moves first second x y) : Moves first second x x :=
  fun c atFirst => ⟨rfl, (moves c atFirst).2⟩

/-- With the levels that are left at a depth a reader is the one that asks for them. -/
theorem within_moves {bounded : Nat → Reader α} (left : limits.depth + 1 = depth + levels)
    (steady : Moves depth depth (bounded levels) (bounded levels)) :
    Moves depth depth (bounded levels) fun c => bounded (c.levels limits) c := by
  intro c atDepth
  have levels_eq : c.levels limits = levels := by
    unfold Counters.levels
    omega
  exact ⟨by dsimp only; rw [levels_eq], (steady c atDepth).2⟩

theorem operandWithin_moves (left : limits.depth + 1 = depth + levels) :
    Moves depth depth (operandWithin limits lexemes levels) (operand limits lexemes) := by
  induction levels generalizing depth with
  | zero => exact within_moves left (refuse_moves _)
  | succ levels ih => exact within_moves left (operandOf_moves (ih (by omega)).steady)

theorem expressionWithin_moves (left : limits.depth + 1 = depth + levels) :
    Moves depth depth (expressionWithin limits lexemes levels) (expression limits lexemes) := by
  induction levels generalizing depth with
  | zero => exact within_moves left (refuse_moves _)
  | succ levels ih =>
    exact within_moves left (disjunctionOf_moves (conjunctionOf_moves
      (termOf_moves (operandWithin_moves left).steady (ih (by omega)).steady)))

/-! ### The equations of the grammar -/

section

variable (fits : c.depth ≤ limits.depth)
include fits

theorem call_eq (name : String) :
    call limits lexemes name c = callOf limits lexemes (operand limits lexemes) name c := by
  have levels_eq := Counters.levels_eq fits
  exact (callOf_moves (operandWithin_moves (by omega)) name c rfl).1

theorem operand_eq :
    operand limits lexemes c = operandOf limits lexemes (operand limits lexemes) c := by
  have levels_eq := Counters.levels_eq fits
  obtain ⟨levels, more⟩ : ∃ levels, c.levels limits = levels + 1 :=
    Nat.exists_eq_add_one.mpr (by omega)
  rw [operand, more]
  exact (operandOf_moves (operandWithin_moves (by omega)) c rfl).1

theorem term_eq : term limits lexemes c =
    termOf limits lexemes (operand limits lexemes) (expression limits lexemes) c := by
  have levels_eq := Counters.levels_eq fits
  exact (termOf_moves (operandWithin_moves levels_eq) (expressionWithin_moves (by omega)) c rfl).1

theorem expression_eq : expression limits lexemes c =
    disjunctionOf lexemes (conjunctionOf lexemes (term limits lexemes)) c := by
  have levels_eq := Counters.levels_eq fits
  obtain ⟨levels, more⟩ : ∃ levels, c.levels limits = levels + 1 :=
    Nat.exists_eq_add_one.mpr (by omega)
  let bounded (levels : Nat) : Reader Expr :=
    termOf limits lexemes (operandWithin limits lexemes levels)
      (expressionWithin limits lexemes (levels - 1))
  have steady : Moves c.depth c.depth (bounded (levels + 1)) (bounded (levels + 1)) :=
    termOf_moves (operandWithin_moves (by omega)).steady (expressionWithin_moves (by omega)).steady
  have term : Moves c.depth c.depth (bounded (levels + 1)) (term limits lexemes) :=
    within_moves (by omega) steady
  rw [expression, more]
  exact (disjunctionOf_moves (conjunctionOf_moves term) c rfl).1

end

end QueryFilter.Descent
