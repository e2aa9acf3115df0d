import QueryFilter.Proofs.Parsing.Limits

/-!
# Incomplete and wrong expressions

An error of the parser tells a text that ends too early from one that no more text can mend. What is
missing in a state is a list of tokens, `State.missing`, that leads from it to the end of an
expression, and an error in a step stays whatever follows. So within the limits every list of
lexemes is an expression, the beginning of one, or neither: `parseLexemes_trichotomy`.
-/

namespace QueryFilter

/-- The text ended where an expression could not. -/
inductive FilterError.Incomplete : FilterError → Prop where
  | emptyExpression : Incomplete .emptyExpression
  | unexpectedEnd : Incomplete .unexpectedEnd
  | unclosedParenthesis (position : Nat) : Incomplete (.unclosedParenthesis position)

/-- A lexeme cannot stand where it does. -/
inductive FilterError.Misplaced : FilterError → Prop where
  | unexpectedToken (text : String) (position : Nat) : Misplaced (.unexpectedToken text position)
  | emptyList (position : Nat) : Misplaced (.emptyList position)

theorem FilterError.Misplaced.not_incomplete {e : FilterError} (misplaced : e.Misplaced) :
    ¬ e.Incomplete := by
  rintro ⟨⟩ <;> cases misplaced

namespace Parser

variable {limits : Limits} {s t u : State} {l : Lexeme} {ls ms : List Lexeme}

/-! ### What a step can do to the counts -/

/-- What reading some lexemes from a state with these counts can lead to: both counts grow by at
most one with each lexeme, and an error tells of a misplaced lexeme or of a count that is full. -/
inductive Progress (limits : Limits) (depth terms count : Nat) :
    Except FilterError State → Prop where
  | ok {t : State} (depth_le : t.depth ≤ depth + count) (terms_le : t.terms ≤ terms + count) :
    Progress limits depth terms count (.ok t)
  | misplaced {e : FilterError} (misplaced : e.Misplaced) :
    Progress limits depth terms count (.error e)
  | tooDeep (full : limits.depth < depth + count) :
    Progress limits depth terms count (.error (.nestedTooDeep limits.depth))
  | tooMany (full : limits.terms < terms + count) :
    Progress limits depth terms count (.error (.tooManyTerms limits.terms))

theorem advance_progress (s : State) (l : Lexeme) :
    Progress limits s.depth s.terms 1 (s.advance limits l) := by
  have takes : Takes limits s l (s.advance limits l) := advance_takes limits s l
  generalize s.advance limits l = outcome at takes
  cases takes with
  | goes | and | or => exact .ok (Nat.le_add_right ..) (Nat.le_add_right ..)
  | predicate => exact .ok (Nat.le_add_right ..) (Nat.le_refl _)
  | openGroup | openCall => exact .ok (Nat.le_refl _) (Nat.le_add_right ..)
  | closeCall | closeGroup =>
    exact .ok (Nat.le_succ_of_le (Nat.sub_le ..)) (Nat.le_add_right ..)
  | tooDeep _ _ full => exact .tooDeep full
  | tooMany _ _ full => exact .tooMany full
  | misplaced | unopened | asksLiteral | asksCall => exact .misplaced (.unexpectedToken _ _)
  | emptyList => exact .misplaced (.emptyList _)

theorem step_progress (s : State) (l : Lexeme) :
    Progress limits s.depth s.terms 1 (s.step limits l) := by
  unfold State.step
  split
  · exact advance_progress s l
  · exact advance_progress { s with phase := s.phase.settled } l

theorem run_progress (s : State) (ls : List Lexeme) :
    Progress limits s.depth s.terms ls.length (ls.foldlM (State.step limits) s) := by
  induction ls generalizing s with
  | nil => exact .ok (Nat.le_refl _) (Nat.le_refl _)
  | cons l ls ih =>
    have first : Progress limits s.depth s.terms 1 (s.step limits l) := step_progress s l
    rw [List.foldlM_cons, List.length_cons]
    generalize s.step limits l = outcome at first
    cases first with
    | @ok middle depth terms =>
      have rest := ih middle
      change Progress _ _ _ _ (ls.foldlM (State.step limits) middle)
      generalize ls.foldlM (State.step limits) middle = outcome at rest
      cases rest with
      | ok laterDepth laterTerms => exact .ok (by omega) (by omega)
      | misplaced wrong => exact .misplaced wrong
      | tooDeep full => exact .tooDeep (by omega)
      | tooMany full => exact .tooMany (by omega)
    | misplaced wrong => exact .misplaced wrong
    | tooDeep full => exact .tooDeep (by omega)
    | tooMany full => exact .tooMany (by omega)

/-! ### Limits that leave room -/

/-- The limits admit as many levels and predicates as there are lexemes. -/
structure Room (limits : Limits) (ls : List Lexeme) : Prop where
  depth : ls.length ≤ limits.depth
  terms : ls.length ≤ limits.terms

/-- All limits that leave room lead to the same state or the same error. -/
theorem run_of_room {other : Limits} (room : Room limits ls) (otherRoom : Room other ls) :
    ls.foldlM (State.step limits) State.initial = ls.foldlM (State.step other) State.initial := by
  let least : Limits := ⟨ls.length, ls.length⟩
  have unstopped : Progress least 0 0 ls.length (ls.foldlM (State.step least) State.initial) :=
    run_progress State.initial ls
  have same {greater : Limits} (room : Room greater ls) :
      ls.foldlM (State.step greater) State.initial =
        ls.foldlM (State.step least) State.initial := by
    have lifted : Lifted least greater (ls.foldlM (State.step least) State.initial)
        (ls.foldlM (State.step greater) State.initial) :=
      run_lifted room.depth room.terms State.initial ls
    rcases lifted.eq_or_stopped with same | deep | many
    · exact same
    · rw [deep] at unstopped
      cases unstopped with
      | misplaced wrong => cases wrong
      | tooDeep full => simp [least] at full
    · rw [many] at unstopped
      cases unstopped with
      | misplaced wrong => cases wrong
      | tooMany full => simp [least] at full
  exact (same room).trans (same otherRoom).symm

/-- With room for the lexemes, a run can only end early at a misplaced lexeme. -/
theorem run_within (room : Room limits ls) :
    (∃ t, ls.foldlM (State.step limits) State.initial = .ok t ∧ t.terms ≤ ls.length) ∨
      ∃ e, ls.foldlM (State.step limits) State.initial = .error e ∧ e.Misplaced := by
  have progress : Progress limits 0 0 ls.length (ls.foldlM (State.step limits) State.initial) :=
    run_progress State.initial ls
  obtain ⟨depth, terms⟩ := room
  generalize ls.foldlM (State.step limits) State.initial = outcome at progress ⊢
  cases progress with
  | ok _ few => exact .inl ⟨_, rfl, by omega⟩
  | misplaced wrong => exact .inr ⟨_, rfl, wrong⟩
  | tooDeep full => omega
  | tooMany full => omega

theorem finish_incomplete (room : s.terms < limits.terms) :
    (∃ expr, s.finish limits = .ok expr) ∨ ∃ e, s.finish limits = .error e ∧ e.Incomplete := by
  unfold State.finish
  split
  · rw [count_ok room]
    exact .inr ⟨_, rfl, .unexpectedEnd⟩
  · exact .inr ⟨_, rfl, .unclosedParenthesis _⟩
  · exact .inr ⟨_, rfl, .unclosedParenthesis _⟩
  · split
    · exact .inl ⟨_, rfl⟩
    · exact .inr ⟨_, rfl, .unclosedParenthesis _⟩
  · exact .inr ⟨_, rfl, .unexpectedEnd⟩

/-! ### What is missing -/

def zero : Literal := .integer 0

/-- The tokens that end a predicate once the slot is filled. -/
def Slot.missing : Slot → List Token
  | .left _ => [.comparison .equal, .literal zero]
  | .right .. => []
  | .argument _ outer => .closeParen :: outer.missing

/-- The tokens that lead to the end of the predicate. -/
def Phase.missing : Phase → List Token
  | .term => .name "" :: nullWords false
  | .operand slot => .literal zero :: slot.missing
  | .name _ slot => slot.missing
  | .firstArgument _ outer | .afterArgument _ outer => .closeParen :: outer.missing
  | .operator .. => [.comparison .equal, .literal zero]
  | .null .. => [.null]
  | .inWord _ => .isIn :: listTokens [zero]
  | .list .. => listTokens [zero]
  | .firstValue _ | .value .. => [.literal zero, .closeParen]
  | .afterValue .. => [.closeParen]
  | .complete _ => []

/-- The tokens that lead to the end of the expression. -/
def State.missing (s : State) : List Token :=
  s.phase.missing ++ List.replicate s.groups.length .closeParen

/-- A lexeme without a text of its own. -/
def bare (token : Token) : Lexeme := ⟨token, "", 0⟩

theorem map_bare (tokens : List Token) : (tokens.map bare).map Lexeme.token = tokens := by
  simp [Function.comp_def, bare]

theorem leads_trans (first : Leads limits s ls t) (second : Leads limits t ms u)
    (notOpen : ∀ l ∈ ms.head?, l.token ≠ .openParen) : Leads limits s (ls ++ ms) u := by
  obtain ⟨middle, run, rfl⟩ := first
  cases ms with
  | nil =>
    obtain ⟨_, same, settled⟩ := second
    cases same
    refine ⟨middle, by simpa using run, ?_⟩
    rw [← settled]
    simp [State.settle]
  | cons l ms =>
    obtain ⟨last, rest, settled⟩ := second
    have plain : l.token ≠ .openParen := notOpen l rfl
    refine ⟨last, ?_, settled⟩
    -- A settled state and the state itself read a lexeme in the same way.
    have step : middle.step limits l = middle.settle.step limits l := by
      rw [step_eq_advance plain, step_eq_advance plain]
      simp [State.settle]
    rw [List.foldlM_append, run]
    change (l :: ms).foldlM (State.step limits) middle = _
    rw [List.foldlM_cons, step, ← List.foldlM_cons]
    exact rest

/-- Reading the tokens leads from the state to the end of a predicate in the same groups. -/
def Finishes (limits : Limits) (s : State) (tokens : List Token) : Prop :=
  ∃ t term, Leads limits s (tokens.map bare) t ∧ t.phase = .complete term ∧ t.groups = s.groups

theorem leads_self {term : Expr} (due : s.phase = .complete term) : Leads limits s [] s := by
  have settled : s.phase.settled = s.phase := by
    rw [due]
    rfl
  exact leads_nil (by rw [State.settle, settled])

theorem finishes_nil {term : Expr} (due : s.phase = .complete term) : Finishes limits s [] :=
  ⟨s, term, leads_self due, due, rfl⟩

theorem finishes_cons {token : Token} {tokens : List Token}
    (step : s.step limits (bare token) = .ok t) (groups : t.groups = s.groups)
    (rest : Finishes limits t tokens) :
    Finishes limits s (token :: tokens) := by
  obtain ⟨u, term, leads, due, same⟩ := rest
  exact ⟨u, term, leads_cons step leads, due, same.trans groups⟩

theorem finishes_of_settle {tokens : List Token}
    (notOpen : ∀ token ∈ tokens.head?, token ≠ .openParen)
    (ends : Finishes limits s.settle tokens) : Finishes limits s tokens := by
  obtain ⟨t, term, leads, due, groups⟩ := ends
  have settled : Leads limits s [] s.settle := leads_nil rfl
  refine ⟨t, term, leads_trans settled leads ?_, due, groups⟩
  intro l isHead
  rw [List.head?_map, Option.mem_def, Option.map_eq_some_iff] at isHead
  obtain ⟨token, isFirst, rfl⟩ := isHead
  exact notOpen token isFirst

theorem missing_not_open (slot : Slot) : ∀ token ∈ slot.missing.head?, token ≠ .openParen := by
  cases slot <;> simp [Slot.missing]

theorem finishes_goes {token : Token} {tokens : List Token} {phase next : Phase}
    (due : s.phase = phase) (goes : phase.Goes (bare token) next)
    (rest : Finishes limits { s with phase := next } tokens) :
    Finishes limits s (token :: tokens) :=
  finishes_cons (step_goes due goes) rfl rest

theorem closeCall_finishes {call : OpenCall} {outer : Slot} {tokens : List Token}
    (due : s.phase = .firstArgument call outer ∨ s.phase = .afterArgument call outer)
    (rest : Finishes limits
      { s with depth := s.depth - 1, phase := outer.fill (.call call.name call.args) } tokens) :
    Finishes limits s (.closeParen :: tokens) := by
  have settled : s.phase.settled = s.phase := by rcases due with due | due <;> rw [due] <;> rfl
  exact finishes_cons (step_of_takes rfl settled (.closeCall due rfl)) rfl rest

theorem operator_finishes {left : Operand} {position : Nat}
    (due : s.phase = .operator left position) :
    Finishes limits s [.comparison .equal, .literal zero] :=
  finishes_goes due (.comparison rfl)
    (finishes_goes rfl (.operand (.literal rfl)) (finishes_nil rfl))

theorem fill_finishes {slot : Slot} {operand : Operand} (due : s.phase = slot.fill operand) :
    Finishes limits s slot.missing := by
  induction slot generalizing s operand with
  | left position => exact operator_finishes due
  | right left op => exact finishes_nil due
  | argument call outer ih => exact closeCall_finishes (.inr due) (ih rfl)

theorem afterValue_finishes {list : OpenList} {values : List Literal}
    (due : s.phase = .afterValue list values) : Finishes limits s [.closeParen] :=
  finishes_goes due (.closeList rfl) (finishes_nil rfl)

theorem phase_finishes (room : s.terms < limits.terms) : Finishes limits s s.phase.missing := by
  -- In each phase the first missing token leads to a phase that is known to end.
  generalize due : s.phase = current
  cases current with
  | term =>
    exact ⟨_, _, isNull_leads due room (map_bare _), rfl, rfl⟩
  | operand slot => exact finishes_goes due (.operand (.literal rfl)) (fill_finishes rfl)
  | name text slot =>
    have filled : s.settle.phase = slot.fill (.field text) := by
      simp [State.settle, due, Phase.settled]
    exact finishes_of_settle (missing_not_open slot) (fill_finishes filled)
  | firstArgument call outer => exact closeCall_finishes (.inl due) (fill_finishes rfl)
  | afterArgument call outer => exact closeCall_finishes (.inr due) (fill_finishes rfl)
  | operator left position => exact operator_finishes due
  | null field negated => exact ⟨_, _, null_leads due (map_bare _), rfl, rfl⟩
  | inWord field =>
    have values : Leads limits { s with phase := .list field true }
        ((listTokens [zero]).map bare) _ := list_leads rfl (by simp) (map_bare _)
    exact finishes_goes due (.inWord rfl) ⟨_, _, values, rfl, rfl⟩
  | list field negated =>
    exact ⟨_, _, list_leads due (by simp) (map_bare _), rfl, rfl⟩
  | firstValue list => exact finishes_goes due (.firstValue rfl) (afterValue_finishes rfl)
  | value list values => exact finishes_goes due (.value rfl) (afterValue_finishes rfl)
  | afterValue list values => exact afterValue_finishes due
  | complete term => exact finishes_nil due

/-- Behind a finished predicate, one parenthesis for each open group finishes the expression. -/
theorem groups_close {term : Expr} (due : s.phase = .complete term) :
    ∃ t last, Leads limits s ((List.replicate s.groups.length .closeParen).map bare) t ∧
      t.phase = .complete last ∧ t.groups = [] := by
  generalize same : s.groups = groups
  induction groups generalizing s term with
  | nil => exact ⟨s, term, leads_self due, due, same⟩
  | cons group groups ih =>
    let left : State := { s with
      groups := groups, chain := group.outer, depth := s.depth - 1
      phase := .complete (.group (s.chain.close term)) }
    have close : s.step limits (bare .closeParen) = .ok left :=
      step_of_takes due rfl (.closeGroup due rfl same)
    obtain ⟨t, last, leads, complete, none⟩ := ih (s := left) rfl rfl
    exact ⟨t, last, leads_cons close leads, complete, none⟩

/-- The missing tokens complete the expression. -/
theorem missing_completes (room : s.terms < limits.terms) :
    ∃ t expr, (s.missing.map bare).foldlM (State.step limits) s = .ok t ∧
      t.finish limits = .ok expr := by
  obtain ⟨middle, term, ends, due, groups⟩ := phase_finishes room
  obtain ⟨t, last, closes, complete, none⟩ := groups_close due
  rw [groups] at closes
  have notOpen : ∀ l ∈ ((List.replicate s.groups.length Token.closeParen).map bare).head?,
      l.token ≠ .openParen := by
    intro l isHead
    have member : l ∈ (List.replicate s.groups.length Token.closeParen).map bare :=
      List.mem_of_mem_head? isHead
    simp only [List.map_replicate, List.mem_replicate] at member
    simp [member.2, bare]
  obtain ⟨after, run, settled⟩ := leads_trans ends closes notOpen
  rw [← List.map_append] at run
  refine ⟨after, t.chain.close last, run, ?_⟩
  rw [← finish_settle, settled]
  simp [State.finish, complete, none, Phase.settled]

end Parser

open QueryFilter.Parser

/-! ### Expressions, beginnings of expressions, and neither -/

def Accepted (limits : Limits) (lexemes : List Lexeme) : Prop :=
  ∃ expr, parseLexemes limits lexemes = .ok expr

/-- The error says that the text ended too early, and there is a text that completes it. -/
def Unfinished (limits : Limits) (lexemes : List Lexeme) : Prop :=
  ∃ e, parseLexemes limits lexemes = .error e ∧ e.Incomplete ∧
    ∃ further, further ≠ [] ∧ ∀ other : Limits, (lexemes ++ further).length < other.depth →
      (lexemes ++ further).length < other.terms → Accepted other (lexemes ++ further)

/-- The error blames a lexeme, and no text behind it changes that. -/
def Hopeless (limits : Limits) (lexemes : List Lexeme) : Prop :=
  ∃ e, parseLexemes limits lexemes = .error e ∧ e.Misplaced ∧
    ∀ (further : List Lexeme) (other : Limits), lexemes.length < other.depth →
      lexemes.length < other.terms → parseLexemes other (lexemes ++ further) = .error e

variable {limits : Limits} {lexemes : List Lexeme}

theorem parseLexemes_of_run (nonempty : lexemes ≠ []) {further : List Lexeme} {s : State}
    (run : lexemes.foldlM (State.step limits) State.initial = .ok s) :
    parseLexemes limits (lexemes ++ further) =
      (further.foldlM (State.step limits) s >>= State.finish limits) := by
  rw [parseLexemes, if_neg (by simp [nonempty]), List.foldlM_append, run]
  rfl

theorem hopeless_of_misplaced (nonempty : lexemes ≠ []) (room : Room limits lexemes)
    {e : FilterError} (run : lexemes.foldlM (State.step limits) State.initial = .error e)
    (misplaced : e.Misplaced) : Hopeless limits lexemes := by
  have stays (further : List Lexeme) (other : Limits) (otherRoom : Room other lexemes) :
      parseLexemes other (lexemes ++ further) = .error e := by
    rw [parseLexemes, if_neg (by simp [nonempty]), List.foldlM_append,
      run_of_room otherRoom room, run]
    rfl
  refine ⟨e, by simpa using stays [] limits room, misplaced, ?_⟩
  intro further other depth terms
  exact stays further other ⟨Nat.le_of_lt depth, Nat.le_of_lt terms⟩

theorem accepted_of_missing (nonempty : lexemes ≠ []) {other : Limits} {s : State}
    (room : Room limits lexemes) (few : s.terms ≤ lexemes.length)
    (run : lexemes.foldlM (State.step limits) State.initial = .ok s)
    (depth : lexemes.length < other.depth) (terms : lexemes.length < other.terms) :
    Accepted other (lexemes ++ s.missing.map bare) := by
  have within : s.terms < other.terms := Nat.lt_of_le_of_lt few terms
  obtain ⟨t, expr, rest, finish⟩ := missing_completes within
  rw [run_of_room room ⟨Nat.le_of_lt depth, Nat.le_of_lt terms⟩] at run
  refine ⟨expr, ?_⟩
  rw [parseLexemes_of_run nonempty run, rest]
  exact finish

theorem accepted_or_unfinished (nonempty : lexemes ≠ []) (depth : lexemes.length < limits.depth)
    (terms : lexemes.length < limits.terms) {s : State} (few : s.terms ≤ lexemes.length)
    (run : lexemes.foldlM (State.step limits) State.initial = .ok s) :
    Accepted limits lexemes ∨ Unfinished limits lexemes := by
  have room : Room limits lexemes := ⟨Nat.le_of_lt depth, Nat.le_of_lt terms⟩
  have here : parseLexemes limits lexemes = s.finish limits := by
    rw [← List.append_nil lexemes, parseLexemes_of_run nonempty run]
    rfl
  have within : s.terms < limits.terms := Nat.lt_of_le_of_lt few terms
  rcases finish_incomplete within with ⟨expr, finish⟩ | ⟨e, finish, incomplete⟩
  · exact .inl ⟨expr, here.trans finish⟩
  refine .inr ⟨e, here.trans finish, incomplete, s.missing.map bare, ?_, ?_⟩
  · intro nothing
    obtain ⟨expr, accepted⟩ := accepted_of_missing nonempty room few run depth terms
    rw [nothing, List.append_nil, here, finish] at accepted
    cases accepted
  · intro other otherDepth otherTerms
    rw [List.length_append] at otherDepth otherTerms
    exact accepted_of_missing nonempty room few run (by omega) (by omega)

theorem unfinished_nil (limits : Limits) : Unfinished limits [] := by
  refine ⟨.emptyExpression, rfl, .emptyExpression, [bare (.name ""), bare .is, bare .null],
    by simp, ?_⟩
  intro other depth terms
  have spelled : Spells [.name "", .is, .null] (.isNull "" false) := .isNull "" false
  refine ⟨.isNull "" false, parseLexemes_of_spells spelled trivial (Nat.zero_le _) ?_⟩
  exact Nat.le_trans (by simp [Expr.predicates]) (Nat.le_of_lt terms)

/-- Within limits greater than their number, lexemes are an expression, or the beginning of one, or
neither, and the kind of the error tells which. -/
theorem parseLexemes_trichotomy (depth : lexemes.length < limits.depth)
    (terms : lexemes.length < limits.terms) :
    (Accepted limits lexemes ∨ Unfinished limits lexemes ∨ Hopeless limits lexemes) ∧
      ¬ (Accepted limits lexemes ∧ Unfinished limits lexemes) ∧
      ¬ (Accepted limits lexemes ∧ Hopeless limits lexemes) ∧
      ¬ (Unfinished limits lexemes ∧ Hopeless limits lexemes) := by
  refine ⟨?_, ?_, ?_, ?_⟩
  · by_cases empty : lexemes = []
    · subst empty
      exact .inr (.inl (unfinished_nil limits))
    have room : Room limits lexemes := ⟨Nat.le_of_lt depth, Nat.le_of_lt terms⟩
    rcases run_within room with ⟨s, run, few⟩ | ⟨e, run, misplaced⟩
    · exact (accepted_or_unfinished empty depth terms few run).imp_right .inl
    · exact .inr (.inr (hopeless_of_misplaced empty room run misplaced))
  · rintro ⟨⟨expr, accepted⟩, e, rejected, -⟩
    cases accepted.symm.trans rejected
  · rintro ⟨⟨expr, accepted⟩, e, rejected, -⟩
    cases accepted.symm.trans rejected
  · rintro ⟨⟨e, rejected, incomplete, -⟩, d, other, misplaced, -⟩
    cases rejected.symm.trans other
    exact misplaced.not_incomplete incomplete

theorem parseLexemes_trichotomy_of_lists :
    let listed :=
      [⟨.openParen, "(", 0⟩, ⟨.name "a", "a", 1⟩, ⟨.isIn, "in", 3⟩, ⟨.openParen, "(", 6⟩]
    let empty := listed ++ [⟨.closeParen, ")", 7⟩]
    Unfinished ⟨5, 5⟩ listed ∧ Hopeless ⟨6, 6⟩ empty := by
  intro listed empty
  have ended : parseLexemes ⟨5, 5⟩ listed = .error .unexpectedEnd := rfl
  have wrong : parseLexemes ⟨6, 6⟩ empty = .error (.emptyList 6) := rfl
  constructor
  · have cases := (@parseLexemes_trichotomy ⟨5, 5⟩ listed (by decide) (by decide)).1
    rcases cases with ⟨expr, accepted⟩ | unfinished | ⟨e, rejected, misplaced, -⟩
    · cases ended.symm.trans accepted
    · exact unfinished
    · cases ended.symm.trans rejected
      cases misplaced
  · have cases := (@parseLexemes_trichotomy ⟨6, 6⟩ empty (by decide) (by decide)).1
    rcases cases with ⟨expr, accepted⟩ | ⟨e, rejected, incomplete, -⟩ | hopeless
    · cases wrong.symm.trans accepted
    · cases wrong.symm.trans rejected
      cases incomplete
    · exact hopeless

end QueryFilter
