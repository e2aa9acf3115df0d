import QueryFilter.Proofs.Outcome
import QueryFilter.Proofs.Parsing.Reading

/-!
# Literals pass through the parser

Recasting by `f` puts `f` of every literal in its place and drops texts and positions. The parser
takes the same steps on lexemes and on recast ones, so it never looks at a literal, a text or a
position: `parseLexemes_recast`.
-/

namespace QueryFilter

variable (f : Literal → Literal)

/-! ### Recast expressions -/

def Token.recast : Token → Token
  | .literal value => .literal (f value)
  | token => token

def Lexeme.recast (l : Lexeme) : Lexeme := ⟨l.token.recast f, "", 0⟩

mutual

def Operand.recast : Operand → Operand
  | .field name => .field name
  | .literal value => .literal (f value)
  | .call name args => .call name (Operand.recastArgs args)

def Operand.recastArgs : List Operand → List Operand
  | [] => []
  | arg :: args => arg.recast :: Operand.recastArgs args

end

def Expr.recast : Expr → Expr
  | .comparison left op right => .comparison (left.recast f) op (right.recast f)
  | .inList field negated values => .inList field negated (values.map f)
  | .isNull field negated => .isNull field negated
  | .and left right => .and left.recast right.recast
  | .or left right => .or left.recast right.recast
  | .group inner => .group inner.recast

theorem Operand.recastArgs_eq_map (args : List Operand) :
    recastArgs f args = args.map (recast f) := by
  induction args with
  | nil => rfl
  | cons arg args ih => rw [recastArgs, ih, List.map_cons]

theorem Operand.recast_call (name : String) (args : List Operand) :
    (Operand.call name args).recast f = .call name (args.map (recast f)) := by
  rw [recast, recastArgs_eq_map]

namespace Parser

/-! ### Recast states -/

def Chain.recast (chain : Chain) : Chain :=
  ⟨chain.disjunction.map (Expr.recast f), chain.conjunction.map (Expr.recast f)⟩

def OpenGroup.recast (group : OpenGroup) : OpenGroup := ⟨group.outer.recast f, 0⟩

def OpenCall.recast (call : OpenCall) : OpenCall := ⟨call.name, 0, call.args.map (Operand.recast f)⟩

def OpenList.recast (list : OpenList) : OpenList := { list with position := 0 }

def Slot.recast : Slot → Slot
  | .left _ => .left 0
  | .right first op => .right (first.recast f) op
  | .argument call outer => .argument (call.recast f) outer.recast

def Phase.recast : Phase → Phase
  | .term => .term
  | .operand slot => .operand (slot.recast f)
  | .name text slot => .name text (slot.recast f)
  | .firstArgument call outer => .firstArgument (call.recast f) (outer.recast f)
  | .afterArgument call outer => .afterArgument (call.recast f) (outer.recast f)
  | .operator first _ => .operator (first.recast f) 0
  | .null field negated => .null field negated
  | .inWord field => .inWord field
  | .list field negated => .list field negated
  | .firstValue opened => .firstValue opened.recast
  | .value opened values => .value opened.recast (values.map f)
  | .afterValue opened values => .afterValue opened.recast (values.map f)
  | .complete expr => .complete (expr.recast f)

def State.recast (s : State) : State :=
  ⟨s.groups.map (OpenGroup.recast f), s.chain.recast f, s.depth, s.terms, s.phase.recast f⟩

theorem Chain.recast_conjunct (chain : Chain) (term : Expr) :
    (chain.conjunct term).recast f = (chain.recast f).conjunct (term.recast f) := by
  obtain ⟨disjunction, conjunction⟩ := chain
  cases conjunction <;> rfl

theorem Chain.recast_close (chain : Chain) (term : Expr) :
    (chain.close term).recast f = (chain.recast f).close (term.recast f) := by
  have last := chain.recast_conjunct f term
  obtain ⟨disjunction, conjunction⟩ := chain
  cases disjunction with
  | none => exact last
  | some before => exact congrArg (Expr.or (before.recast f)) last

theorem Chain.recast_followedByAnd (chain : Chain) (term : Expr) :
    (chain.followedByAnd term).recast f = (chain.recast f).followedByAnd (term.recast f) :=
  congrArg (fun last => Chain.mk _ (some last)) (chain.recast_conjunct f term)

theorem Chain.recast_followedByOr (chain : Chain) (term : Expr) :
    (chain.followedByOr term).recast f = (chain.recast f).followedByOr (term.recast f) :=
  congrArg (fun whole => Chain.mk (some whole) none) (chain.recast_close f term)

theorem Slot.recast_fill (slot : Slot) (operand : Operand) :
    (slot.fill operand).recast f = (slot.recast f).fill (operand.recast f) := by
  cases slot with
  | left position => rfl
  | right left op => rfl
  | argument call outer => simp [Slot.fill, Phase.recast, Slot.recast, OpenCall.recast]

theorem Phase.recast_settled (phase : Phase) :
    phase.settled.recast f = (phase.recast f).settled := by
  cases phase with
  | name text slot => exact slot.recast_fill f (.field text)
  | _ => rfl

/-! ### Steps -/

section

variable {f} {limits : Limits} {s : State} {l : Lexeme}

theorem token_recast {token : Token} (isToken : l.token = token) :
    (l.recast f).token = token.recast f := congrArg (Token.recast f) isToken

theorem phase_recast {phase : Phase} (due : s.phase = phase) :
    (s.recast f).phase = phase.recast f := congrArg (Phase.recast f) due

theorem begins_recast {slot : Slot} {next : Phase} (begins : slot.Begins l next) :
    (slot.recast f).Begins (l.recast f) (next.recast f) := by
  cases begins with
  | name isName => exact .name (token_recast isName)
  | literal isLiteral =>
    rw [slot.recast_fill f, Operand.recast]
    exact .literal (token_recast isLiteral)

theorem asks_recast {field : String} {next : Phase} (asks : Asks l field next) :
    Asks (l.recast f) field (next.recast f) := by
  cases asks with
  | is isIs => exact .is (token_recast isIs)
  | isIn isIn => exact .isIn (token_recast isIn)
  | notIn isNotIn => exact .notIn (token_recast isNotIn)
  | not isNot => exact .not (token_recast isNot)

theorem goes_recast {current next : Phase} (goes : current.Goes l next) :
    (current.recast f).Goes (l.recast f) (next.recast f) := by
  cases goes with
  | operand begins => exact .operand (begins_recast begins)
  | firstArgument begins => exact .firstArgument (begins_recast begins)
  | nextArgument isComma => exact .nextArgument (token_recast isComma)
  | comparison isOp => exact .comparison (token_recast isOp)
  | asks asks => exact .asks (asks_recast asks)
  | null isNull => exact .null (token_recast isNull)
  | notNull isNot => exact .notNull (token_recast isNot)
  | inWord isIn => exact .inWord (token_recast isIn)
  | list isOpen => exact .list (token_recast isOpen)
  | firstValue isLiteral => exact .firstValue (token_recast isLiteral)
  | value isLiteral =>
    rw [Phase.recast, Phase.recast, List.map_append]
    exact .value (token_recast isLiteral)
  | nextValue isComma => exact .nextValue (token_recast isComma)
  | closeList isClose => exact .closeList (token_recast isClose)

theorem expects_recast (phase : Phase) (token : Token) :
    (phase.recast f).expects (token.recast f) = phase.expects token := by
  cases phase <;> cases token <;> rfl

theorem eq_term_of_recast {phase : Phase} (isTerm : phase.recast f = .term) : phase = .term := by
  cases phase with
  | term => rfl
  | _ => cases isTerm

/-- The step on the recast lexeme is of the same kind. -/
theorem takes_recast {outcome : Except FilterError State} (takes : Takes limits s l outcome) :
    ∃ other, Takes limits (s.recast f) (l.recast f) other ∧
      Agrees (fun t u => t.recast f = u) outcome other := by
  cases takes with
  | goes due goes => exact ⟨_, .goes (phase_recast due) (goes_recast goes), .ok rfl⟩
  | predicate due room begins =>
    exact ⟨_, .predicate (phase_recast due) room (begins_recast begins), .ok rfl⟩
  | openGroup due isOpen room =>
    exact ⟨_, .openGroup (phase_recast due) (token_recast isOpen) room, .ok rfl⟩
  | openCall due isOpen room =>
    exact ⟨_, .openCall (phase_recast due) (token_recast isOpen) room, .ok rfl⟩
  | closeCall due isClose =>
    refine ⟨_, .closeCall (due.imp phase_recast phase_recast) (token_recast isClose), .ok ?_⟩
    simp [State.recast, Slot.recast_fill, Operand.recast_call, OpenCall.recast]
  | and due isAnd =>
    refine ⟨_, .and (phase_recast due) (token_recast isAnd), .ok ?_⟩
    simp [State.recast, Chain.recast_followedByAnd, Phase.recast]
  | or due isOr =>
    refine ⟨_, .or (phase_recast due) (token_recast isOr), .ok ?_⟩
    simp [State.recast, Chain.recast_followedByOr, Phase.recast]
  | closeGroup due isClose innermost =>
    have others := congrArg (List.map (OpenGroup.recast f)) innermost
    refine ⟨_, .closeGroup (phase_recast due) (token_recast isClose) others, .ok ?_⟩
    simp [State.recast, Phase.recast, Expr.recast, Chain.recast_close, OpenGroup.recast]
  | tooDeep waits isOpen full =>
    have waits : (s.recast f).phase = .term ∨ ∃ name slot, (s.recast f).phase = .name name slot :=
      waits.imp phase_recast fun ⟨name, slot, due⟩ => ⟨name, slot.recast f, phase_recast due⟩
    exact ⟨_, .tooDeep waits (token_recast isOpen) full, .error rfl⟩
  | tooMany due notOpen full =>
    have notOpen : (l.recast f).token ≠ .openParen := by
      obtain ⟨token, text, position⟩ := l
      cases token <;> simp_all [Lexeme.recast, Token.recast]
    exact ⟨_, .tooMany (phase_recast due) notOpen full, .error rfl⟩
  | misplaced unexpected counted =>
    have same := (expects_recast (f := f) s.phase l.token).trans unexpected
    exact ⟨_, .misplaced same fun isTerm => counted (eq_term_of_recast isTerm), .error rfl⟩
  | unopened due isClose noGroup =>
    have none := congrArg (List.map (OpenGroup.recast f)) noGroup
    exact ⟨_, .unopened (phase_recast due) (token_recast isClose) none, .error rfl⟩
  | asksLiteral due asks =>
    exact ⟨_, .asksLiteral (phase_recast due) (asks_recast asks), .error rfl⟩
  | asksCall due asks =>
    have due := phase_recast (f := f) due
    rw [Phase.recast, Operand.recast_call] at due
    exact ⟨_, .asksCall due (asks_recast asks), .error rfl⟩
  | emptyList due isClose =>
    exact ⟨_, .emptyList (phase_recast due) (token_recast isClose), .error rfl⟩

end

theorem advance_recast (limits : Limits) (s : State) (l : Lexeme) :
    Agrees (fun t u => t.recast f = u) (s.advance limits l)
      ((s.recast f).advance limits (l.recast f)) := by
  obtain ⟨other, takes, agrees⟩ := takes_recast (f := f) (advance_takes limits s l)
  rw [takes.advance_eq]
  exact agrees

theorem step_recast (limits : Limits) (s : State) (l : Lexeme) :
    Agrees (fun t u => t.recast f = u) (s.step limits l)
      ((s.recast f).step limits (l.recast f)) := by
  have settle : s.settle.recast f = (s.recast f).settle := by
    simp only [State.settle, State.recast, Phase.recast_settled]
  have settled := advance_recast f limits s.settle l
  rw [settle] at settled
  obtain ⟨token, text, position⟩ := l
  cases token with
  | openParen =>
    -- A name waits for the parenthesis, and every other phase is settled.
    have direct := advance_recast f limits s ⟨.openParen, text, position⟩
    generalize due : s.phase = current
    have recastDue : (s.recast f).phase = current.recast f := by rw [State.recast, due]
    simp only [State.settle, due, recastDue] at settled
    unfold State.step
    rw [due, recastDue]
    cases current with
    | name name slot => exact direct
    | _ => exact settled
  | _ => simpa only [step_eq_advance, ne_eq, Lexeme.recast, Token.recast, reduceCtorEq,
      not_false_eq_true] using settled

theorem run_recast (limits : Limits) (s : State) (ls : List Lexeme) :
    Agrees (fun t u => t.recast f = u) (ls.foldlM (State.step limits) s)
      ((ls.map (Lexeme.recast f)).foldlM (State.step limits) (s.recast f)) := by
  induction ls generalizing s with
  | nil => exact .ok rfl
  | cons l ls ih =>
    rw [List.foldlM_cons, List.map_cons, List.foldlM_cons]
    refine (step_recast f limits s l).bind ?_
    rintro t _ rfl
    exact ih t

theorem finish_recast (limits : Limits) (s : State) :
    Agrees (fun expr other => expr.recast f = other) (s.finish limits)
      ((s.recast f).finish limits) := by
  have settled : (s.recast f).phase.settled = s.phase.settled.recast f :=
    (s.phase.recast_settled f).symm
  unfold State.finish
  rw [settled]
  generalize s.phase.settled = current
  cases current with
  | term =>
    have terms : (s.recast f).terms = s.terms := rfl
    simp only [Phase.recast, State.countPredicate, terms]
    split <;> exact .error rfl
  | complete term =>
    obtain ⟨groups, chain, depth, terms, phase⟩ := s
    cases groups with
    | nil => exact .ok (chain.recast_close f term)
    | cons group groups => exact .error rfl
  | _ => exact .error rfl

end Parser

theorem parseLexemes_recast (limits : Limits) (ls : List Lexeme) :
    Agrees (fun expr other => expr.recast f = other) (parseLexemes limits ls)
      (parseLexemes limits (ls.map (Lexeme.recast f))) := by
  unfold parseLexemes
  by_cases empty : ls = []
  · subst empty
    exact .error rfl
  · rw [if_neg empty, if_neg (by simpa using empty)]
    have initial : Parser.State.initial.recast f = Parser.State.initial := rfl
    have run := Parser.run_recast f limits Parser.State.initial ls
    rw [initial] at run
    refine run.bind ?_
    rintro s _ rfl
    exact Parser.finish_recast f limits s

end QueryFilter
