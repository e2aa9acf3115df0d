import QueryFilter.Expr.Parser

/-!
# What a step can do

`Takes limits s l outcome` says that the parser, in a settled phase, goes from `s` to `outcome` when
it reads `l`. Each way to go on or to fail is a case of its own, and nothing else can happen
(`advance_iff`), so what holds of every step is proved case by case, without the parser itself.
-/

namespace QueryFilter.Parser

variable {limits : Limits} {s : State} {l : Lexeme} {outcome : Except FilterError State}

/-! ### Phases -/

/-- The tokens that the phase waits for. A closing parenthesis behind a term needs an open group
besides. -/
def Phase.expects : Phase → Token → Bool
  | .term, .name _ | .term, .literal _ | .term, .openParen => true
  | .operand _, .name _ | .operand _, .literal _ => true
  | .name .., .openParen => true
  | .firstArgument .., .name _ | .firstArgument .., .literal _ => true
  | .firstArgument .., .closeParen => true
  | .afterArgument .., .comma | .afterArgument .., .closeParen => true
  | .operator .., .comparison _ | .operator .., .is | .operator .., .isIn => true
  | .operator .., .notIn | .operator .., .not => true
  | .null .., .null | .null _ false, .not => true
  | .inWord _, .isIn => true
  | .list .., .openParen => true
  | .firstValue _, .literal _ | .firstValue _, .closeParen => true
  | .value .., .literal _ => true
  | .afterValue .., .comma | .afterValue .., .closeParen => true
  | .complete _, .and | .complete _, .or | .complete _, .closeParen => true
  | _, _ => false

/-- The lexeme starts an operand for the slot, or is all of it. -/
inductive Slot.Begins (slot : Slot) (l : Lexeme) : Phase → Prop where
  | name {name : String} (isName : l.token = .name name) : slot.Begins l (.name name slot)
  | literal {value : Literal} (isLiteral : l.token = .literal value) :
    slot.Begins l (slot.fill (.literal value))

/-- The word behind a field asks for null or for values. -/
inductive Asks (l : Lexeme) (field : String) : Phase → Prop where
  | is (isIs : l.token = .is) : Asks l field (.null field false)
  | isIn (isIn : l.token = .isIn) : Asks l field (.list field false)
  | notIn (isNotIn : l.token = .notIn) : Asks l field (.list field true)
  | not (isNot : l.token = .not) : Asks l field (.inWord field)

/-- The lexeme takes the phase further, and nothing else of the state. -/
inductive Phase.Goes (l : Lexeme) : Phase → Phase → Prop where
  | operand {slot : Slot} {next : Phase} (begins : slot.Begins l next) :
    Goes l (.operand slot) next
  | firstArgument {call : OpenCall} {outer : Slot} {next : Phase}
    (begins : (Slot.argument call outer).Begins l next) : Goes l (.firstArgument call outer) next
  | nextArgument {call : OpenCall} {outer : Slot} (isComma : l.token = .comma) :
    Goes l (.afterArgument call outer) (.operand (.argument call outer))
  | comparison {left : Operand} {position : Nat} {op : Comparison}
    (isOp : l.token = .comparison op) : Goes l (.operator left position) (.operand (.right left op))
  | asks {field : String} {position : Nat} {next : Phase} (asks : Asks l field next) :
    Goes l (.operator (.field field) position) next
  | null {field : String} {negated : Bool} (isNull : l.token = .null) :
    Goes l (.null field negated) (.complete (.isNull field negated))
  | notNull {field : String} (isNot : l.token = .not) :
    Goes l (.null field false) (.null field true)
  | inWord {field : String} (isIn : l.token = .isIn) : Goes l (.inWord field) (.list field true)
  | list {field : String} {negated : Bool} (isOpen : l.token = .openParen) :
    Goes l (.list field negated) (.firstValue ⟨field, negated, l.position⟩)
  | firstValue {list : OpenList} {value : Literal} (isLiteral : l.token = .literal value) :
    Goes l (.firstValue list) (.afterValue list [value])
  | value {list : OpenList} {values : List Literal} {value : Literal}
    (isLiteral : l.token = .literal value) :
    Goes l (.value list values) (.afterValue list (values ++ [value]))
  | nextValue {list : OpenList} {values : List Literal} (isComma : l.token = .comma) :
    Goes l (.afterValue list values) (.value list values)
  | closeList {list : OpenList} {values : List Literal} (isClose : l.token = .closeParen) :
    Goes l (.afterValue list values) (.complete (.inList list.field list.negated values))

/-! ### Steps -/

/-- What reading the lexeme does. -/
inductive Takes (limits : Limits) (s : State) (l : Lexeme) : Except FilterError State → Prop where
  | goes {current next : Phase} (due : s.phase = current) (goes : current.Goes l next) :
    Takes limits s l (.ok { s with phase := next })
  | predicate {next : Phase} (due : s.phase = .term) (room : s.terms + 1 ≤ limits.terms)
    (begins : (Slot.left l.position).Begins l next) :
    Takes limits s l (.ok { s with terms := s.terms + 1, phase := next })
  | openGroup (due : s.phase = .term) (isOpen : l.token = .openParen)
    (room : s.depth + 1 ≤ limits.depth) :
    Takes limits s l (.ok { s with
      groups := ⟨s.chain, l.position⟩ :: s.groups, chain := .empty, depth := s.depth + 1
      phase := .term })
  | openCall {name : String} {slot : Slot} (due : s.phase = .name name slot)
    (isOpen : l.token = .openParen) (room : s.depth + 1 ≤ limits.depth) :
    Takes limits s l (.ok { s with
      depth := s.depth + 1, phase := .firstArgument ⟨name, l.position, []⟩ slot })
  | closeCall {call : OpenCall} {outer : Slot}
    (due : s.phase = .firstArgument call outer ∨ s.phase = .afterArgument call outer)
    (isClose : l.token = .closeParen) :
    Takes limits s l (.ok { s with
      depth := s.depth - 1, phase := outer.fill (.call call.name call.args) })
  | and {term : Expr} (due : s.phase = .complete term) (isAnd : l.token = .and) :
    Takes limits s l (.ok { s with chain := s.chain.followedByAnd term, phase := .term })
  | or {term : Expr} (due : s.phase = .complete term) (isOr : l.token = .or) :
    Takes limits s l (.ok { s with chain := s.chain.followedByOr term, phase := .term })
  | closeGroup {term : Expr} {group : OpenGroup} {groups : List OpenGroup}
    (due : s.phase = .complete term) (isClose : l.token = .closeParen)
    (innermost : s.groups = group :: groups) :
    Takes limits s l (.ok { s with
      groups := groups, chain := group.outer, depth := s.depth - 1
      phase := .complete (.group (s.chain.close term)) })
  | tooDeep (waits : s.phase = .term ∨ ∃ name slot, s.phase = .name name slot)
    (isOpen : l.token = .openParen) (full : limits.depth < s.depth + 1) :
    Takes limits s l (.error (.nestedTooDeep limits.depth))
  | tooMany (due : s.phase = .term) (notOpen : l.token ≠ .openParen)
    (full : limits.terms < s.terms + 1) : Takes limits s l (.error (.tooManyTerms limits.terms))
  /-- A term is counted before it is known to be one. -/
  | misplaced (unexpected : s.phase.expects l.token = false)
    (counted : s.phase = .term → s.terms + 1 ≤ limits.terms) :
    Takes limits s l (.error (misplaced l))
  | unopened {term : Expr} (due : s.phase = .complete term) (isClose : l.token = .closeParen)
    (noGroup : s.groups = []) : Takes limits s l (.error (Parser.misplaced l))
  | asksLiteral {value : Literal} {position : Nat} {field : String} {next : Phase}
    (due : s.phase = .operator (.literal value) position) (asks : Asks l field next) :
    Takes limits s l (.error (.unexpectedToken value.text position))
  | asksCall {name : String} {args : List Operand} {position : Nat} {field : String} {next : Phase}
    (due : s.phase = .operator (.call name args) position) (asks : Asks l field next) :
    Takes limits s l (.error (.unexpectedToken name position))
  | emptyList {list : OpenList} (due : s.phase = .firstValue list)
    (isClose : l.token = .closeParen) : Takes limits s l (.error (.emptyList list.position))

/-! ### Every step is one of these -/

theorem startOperand_ok {slot : Slot} {next : Phase} (begins : slot.Begins l next) :
    startOperand slot l = .ok next := by
  cases begins with
  | name isName => simp [startOperand, isName]
  | literal isLiteral => simp [startOperand, isLiteral]

theorem goes_advance {current next : Phase} (due : s.phase = current) (goes : current.Goes l next) :
    s.advance limits l = .ok { s with phase := next } := by
  cases goes with
  | operand begins => simp [State.advance, due, startOperand_ok begins, Except.map]
  | firstArgument begins =>
    have start := startOperand_ok begins
    cases begins with
    | name isName | literal isName => simp [State.advance, due, start, isName, Except.map]
  | comparison isOp => simp [State.advance, due, readOperator, isOp, Except.map]
  | asks asks =>
    cases asks with
    | is isWord | isIn isWord | notIn isWord | not isWord =>
      simp [State.advance, due, readOperator, subjectField, isWord, Except.map]
  | firstValue isLiteral | value isLiteral =>
    simp [State.advance, due, readValue, isLiteral, Except.map]
  | nextArgument isToken | null isToken | notNull isToken | inWord isToken | list isToken
  | nextValue isToken | closeList isToken => simp [State.advance, due, isToken]

theorem unexpected_advance (unexpected : s.phase.expects l.token = false)
    (counted : s.phase = .term → s.terms + 1 ≤ limits.terms) :
    s.advance limits l = .error (misplaced l) := by
  generalize due : s.phase = current at unexpected counted
  generalize isToken : l.token = token at unexpected
  -- The phases that name their tokens refuse the others one by one.
  cases current with
  | term =>
    have room : ¬ s.terms + 1 > limits.terms := Nat.not_lt.mpr (counted rfl)
    cases token <;> first | (cases unexpected; done) |
      simp [State.advance, due, isToken, State.countPredicate, room, startOperand, bind,
        Except.bind]
  | null field negated =>
    cases negated <;> cases token <;> first | (cases unexpected; done) |
      simp [State.advance, due, isToken]
  | _ =>
    cases token <;> first | (cases unexpected; done) |
      simp [State.advance, due, isToken, startOperand, readOperator, readValue, State.afterTerm,
        Except.map]

theorem Takes.advance_eq (takes : Takes limits s l outcome) : s.advance limits l = outcome := by
  cases takes with
  | goes due goes => exact goes_advance due goes
  | predicate due room begins =>
    have start := startOperand_ok begins
    have room : ¬ s.terms + 1 > limits.terms := Nat.not_lt.mpr room
    cases begins with
    | name isName | literal isName =>
      simp [State.advance, due, start, isName, State.countPredicate, room, bind, Except.bind]
  | openGroup due isOpen room | openCall due isOpen room =>
    have room : ¬ s.depth + 1 > limits.depth := Nat.not_lt.mpr room
    simp [State.advance, due, isOpen, State.nest, room, bind, Except.bind]
  | closeCall due isClose =>
    rcases due with due | due <;> simp [State.advance, due, isClose, State.unnest]
  | and due isToken | or due isToken => simp [State.advance, due, State.afterTerm, isToken]
  | closeGroup due isClose innermost =>
    simp [State.advance, due, State.afterTerm, isClose, innermost, State.unnest]
  | tooDeep waits isOpen full =>
    have full : s.depth + 1 > limits.depth := full
    rcases waits with due | ⟨name, slot, due⟩ <;>
      simp [State.advance, due, isOpen, State.nest, full, bind, Except.bind]
  | tooMany due notOpen full =>
    have full : s.terms + 1 > limits.terms := full
    simp [State.advance, due, State.countPredicate, full, bind, Except.bind]
  | misplaced unexpected counted => exact unexpected_advance unexpected counted
  | unopened due isClose noGroup => simp [State.advance, due, State.afterTerm, isClose, noGroup]
  | asksLiteral due asks | asksCall due asks =>
    cases asks with
    | is isWord | isIn isWord | notIn isWord | not isWord =>
      simp [State.advance, due, readOperator, subjectField, isWord, Except.map]
  | emptyList due isClose => simp [State.advance, due, isClose]

/-! ### Nothing else can happen -/

theorem term_takes (limits : Limits) (due : s.phase = .term) (l : Lexeme) :
    ∃ outcome, Takes limits s l outcome := by
  by_cases isOpen : l.token = .openParen
  · rcases Nat.lt_or_ge limits.depth (s.depth + 1) with full | room
    · exact ⟨_, .tooDeep (.inl due) isOpen full⟩
    · exact ⟨_, .openGroup due isOpen room⟩
  rcases Nat.lt_or_ge limits.terms (s.terms + 1) with full | room
  · exact ⟨_, .tooMany due isOpen full⟩
  cases isToken : l.token with
  | name name => exact ⟨_, .predicate due room (.name isToken)⟩
  | literal value => exact ⟨_, .predicate due room (.literal isToken)⟩
  | openParen => exact absurd isToken isOpen
  | _ => exact ⟨_, .misplaced (by rw [due, isToken]; rfl) fun _ => room⟩

theorem misplaced_takes (limits : Limits) {phase : Phase} (due : s.phase = phase)
    (notTerm : phase ≠ .term) (unexpected : phase.expects l.token = false) :
    ∃ outcome, Takes limits s l outcome :=
  ⟨_, .misplaced (due ▸ unexpected) fun isTerm => absurd (due.symm.trans isTerm) notTerm⟩

theorem name_takes (limits : Limits) {name : String} {slot : Slot} (due : s.phase = .name name slot)
    (l : Lexeme) : ∃ outcome, Takes limits s l outcome := by
  cases isToken : l.token with
  | openParen =>
    rcases Nat.lt_or_ge limits.depth (s.depth + 1) with full | room
    · exact ⟨_, .tooDeep (.inr ⟨name, slot, due⟩) isToken full⟩
    · exact ⟨_, .openCall due isToken room⟩
  | _ => exact misplaced_takes limits due (by simp) (by rw [isToken]; rfl)

theorem firstArgument_takes (limits : Limits) {call : OpenCall} {outer : Slot}
    (due : s.phase = .firstArgument call outer) (l : Lexeme) :
    ∃ outcome, Takes limits s l outcome := by
  cases isToken : l.token with
  | name name => exact ⟨_, .goes due (.firstArgument (.name isToken))⟩
  | literal value => exact ⟨_, .goes due (.firstArgument (.literal isToken))⟩
  | closeParen => exact ⟨_, .closeCall (.inl due) isToken⟩
  | _ => exact misplaced_takes limits due (by simp) (by rw [isToken]; rfl)

theorem operator_takes (limits : Limits) {left : Operand} {position : Nat}
    (due : s.phase = .operator left position) (l : Lexeme) :
    ∃ outcome, Takes limits s l outcome := by
  have asked {next : String → Phase} (asks : ∀ field, Asks l field (next field)) :
      ∃ outcome, Takes limits s l outcome := by
    cases left with
    | field name => exact ⟨_, .goes due (.asks (asks name))⟩
    | literal value => exact ⟨_, .asksLiteral due (asks "")⟩
    | call name args => exact ⟨_, .asksCall due (asks "")⟩
  cases isToken : l.token with
  | comparison op => exact ⟨_, .goes due (.comparison isToken)⟩
  | is => exact asked fun _ => .is isToken
  | isIn => exact asked fun _ => .isIn isToken
  | notIn => exact asked fun _ => .notIn isToken
  | not => exact asked fun _ => .not isToken
  | _ => exact misplaced_takes limits due (by simp) (by rw [isToken]; rfl)

theorem null_takes (limits : Limits) {field : String} {negated : Bool}
    (due : s.phase = .null field negated) (l : Lexeme) : ∃ outcome, Takes limits s l outcome := by
  cases isToken : l.token with
  | null => exact ⟨_, .goes due (.null isToken)⟩
  | not =>
    cases negated with
    | false => exact ⟨_, .goes due (.notNull isToken)⟩
    | true => exact misplaced_takes limits due (by simp) (by rw [isToken]; rfl)
  | _ => exact misplaced_takes limits due (by simp) (by rw [isToken]; rfl)

theorem firstValue_takes (limits : Limits) {list : OpenList} (due : s.phase = .firstValue list)
    (l : Lexeme) : ∃ outcome, Takes limits s l outcome := by
  cases isToken : l.token with
  | literal value => exact ⟨_, .goes due (.firstValue isToken)⟩
  | closeParen => exact ⟨_, .emptyList due isToken⟩
  | _ => exact misplaced_takes limits due (by simp) (by rw [isToken]; rfl)

theorem complete_takes (limits : Limits) {term : Expr} (due : s.phase = .complete term)
    (l : Lexeme) : ∃ outcome, Takes limits s l outcome := by
  cases isToken : l.token with
  | and => exact ⟨_, .and due isToken⟩
  | or => exact ⟨_, .or due isToken⟩
  | closeParen =>
    cases innermost : s.groups with
    | nil => exact ⟨_, .unopened due isToken innermost⟩
    | cons group groups => exact ⟨_, .closeGroup due isToken innermost⟩
  | _ => exact misplaced_takes limits due (by simp) (by rw [isToken]; rfl)

theorem exists_takes (limits : Limits) (s : State) (l : Lexeme) :
    ∃ outcome, Takes limits s l outcome := by
  generalize due : s.phase = current
  have goes {next : Phase} (goes : current.Goes l next) : ∃ outcome, Takes limits s l outcome :=
    ⟨_, .goes due goes⟩
  have other := @misplaced_takes s l limits current due
  cases current with
  | term => exact term_takes limits due l
  | name name slot => exact name_takes limits due l
  | firstArgument call outer => exact firstArgument_takes limits due l
  | operator left position => exact operator_takes limits due l
  | null field negated => exact null_takes limits due l
  | firstValue list => exact firstValue_takes limits due l
  | complete term => exact complete_takes limits due l
  | operand slot =>
    cases isToken : l.token with
    | name name => exact goes (.operand (.name isToken))
    | literal value => exact goes (.operand (.literal isToken))
    | _ => exact other (by simp) (by rw [isToken]; rfl)
  | afterArgument call outer =>
    cases isToken : l.token with
    | comma => exact goes (.nextArgument isToken)
    | closeParen => exact ⟨_, .closeCall (.inr due) isToken⟩
    | _ => exact other (by simp) (by rw [isToken]; rfl)
  | inWord field =>
    cases isToken : l.token with
    | isIn => exact goes (.inWord isToken)
    | _ => exact other (by simp) (by rw [isToken]; rfl)
  | list field negated =>
    cases isToken : l.token with
    | openParen => exact goes (.list isToken)
    | _ => exact other (by simp) (by rw [isToken]; rfl)
  | value list values =>
    cases isToken : l.token with
    | literal value => exact goes (.value isToken)
    | _ => exact other (by simp) (by rw [isToken]; rfl)
  | afterValue list values =>
    cases isToken : l.token with
    | comma => exact goes (.nextValue isToken)
    | closeParen => exact goes (.closeList isToken)
    | _ => exact other (by simp) (by rw [isToken]; rfl)

theorem advance_iff : s.advance limits l = outcome ↔ Takes limits s l outcome := by
  constructor
  · rintro rfl
    obtain ⟨outcome, takes⟩ := exists_takes limits s l
    rw [takes.advance_eq]
    exact takes
  · exact Takes.advance_eq

theorem advance_takes (limits : Limits) (s : State) (l : Lexeme) :
    Takes limits s l (s.advance limits l) := advance_iff.mp rfl

end QueryFilter.Parser
