import QueryFilter.Proofs.Outcome
import QueryFilter.Proofs.Parsing.Reading

/-!
# What the parser has read

`State.Consumed limits tokens s` ties a state to the tokens that led to it: groups, chain and phase
spell them, depth and terms count them, and both counts are within the limits. Every step keeps it
(`step_consumed`), so an accepted text is spelled by the grammar.
-/

namespace QueryFilter.Parser

variable {limits : Limits} {level : Nat} {front back : List Token} {s t : State} {l : Lexeme}

/-! ### Finished expressions -/

/-- The tokens spell a canonical expression that fits below `level` groups. -/
structure Whole (limits : Limits) (level : Nat) (tokens : List Token) (expr : Expr) : Prop where
  spells : Spells tokens expr
  shape : expr.Canonical
  fits : level + expr.nesting ≤ limits.depth

theorem Whole.and {left right : Expr} (first : Whole limits level front left)
    (second : Whole limits level back right) (notOr : left.isOr = false) (isTerm : right.isTerm) :
    Whole limits level (front ++ .and :: back) (.and left right) where
  spells := .and first.spells second.spells
  shape := ⟨notOr, isTerm, first.shape, second.shape⟩
  fits := by
    have := first.fits
    have := second.fits
    simp only [Expr.nesting]; omega

theorem Whole.or {left right : Expr} (first : Whole limits level front left)
    (second : Whole limits level back right) (notOr : right.isOr = false) :
    Whole limits level (front ++ .or :: back) (.or left right) where
  spells := .or first.spells second.spells
  shape := ⟨notOr, first.shape, second.shape⟩
  fits := by
    have := first.fits
    have := second.fits
    simp only [Expr.nesting]; omega

theorem Whole.group {inner : Expr} (whole : Whole limits (level + 1) front inner) :
    Whole limits level (.openParen :: front ++ [.closeParen]) (.group inner) where
  spells := .group whole.spells
  shape := whole.shape
  fits := by
    have := whole.fits
    simp only [Expr.nesting]; omega

/-! ### Chains -/

/-- The part of a chain before its last `joiner`. -/
inductive Pending (limits : Limits) (level : Nat) (joiner : Token) :
    List Token → Option Expr → Prop where
  | none : Pending limits level joiner [] none
  | some {tokens : List Token} {expr : Expr} (whole : Whole limits level tokens expr) :
    Pending limits level joiner (tokens ++ [joiner]) (some expr)

/-- The tokens spell the chain. -/
inductive Chain.Reads (limits : Limits) (level : Nat) : List Token → Chain → Prop where
  | mk {front back : List Token} {chain : Chain}
    (disjunction : Pending limits level .or front chain.disjunction)
    (conjunction : Pending limits level .and back chain.conjunction)
    (notOr : ∀ expr ∈ chain.conjunction, expr.isOr = false) :
    Chain.Reads limits level (front ++ back) chain

def pendingPredicates : Option Expr → Nat
  | some expr => expr.predicates
  | none => 0

def Chain.predicates (chain : Chain) : Nat :=
  pendingPredicates chain.disjunction + pendingPredicates chain.conjunction

theorem Chain.reads_empty : Chain.Reads limits level [] .empty := by
  have notOr : ∀ expr ∈ Chain.empty.conjunction, expr.isOr = false := by simp [Chain.empty]
  exact Chain.Reads.mk .none .none notOr

theorem Chain.conjunct_whole {chain : Chain} {term : Expr}
    (conjunction : Pending limits level .and front chain.conjunction)
    (notOr : ∀ expr ∈ chain.conjunction, expr.isOr = false)
    (whole : Whole limits level back term) (isTerm : term.isTerm) :
    Whole limits level (front ++ back) (chain.conjunct term) ∧
      (chain.conjunct term).isOr = false := by
  obtain ⟨disjunction, waiting⟩ := chain
  cases conjunction with
  | none => exact ⟨whole, Expr.not_isOr_of_isTerm isTerm⟩
  | some first =>
    rw [List.append_assoc, List.singleton_append]
    exact ⟨first.and whole (notOr _ rfl) isTerm, rfl⟩

theorem Chain.close_whole {chain : Chain} {term : Expr} (reads : chain.Reads limits level front)
    (whole : Whole limits level back term) (isTerm : term.isTerm) :
    Whole limits level (front ++ back) (chain.close term) := by
  obtain ⟨disjunction, conjunction, notOr⟩ := reads
  rw [List.append_assoc]
  obtain ⟨last, lastNotOr⟩ := Chain.conjunct_whole conjunction notOr whole isTerm
  unfold Chain.close
  generalize chain.conjunct term = conjunct at last lastNotOr ⊢
  generalize chain.disjunction = before at disjunction ⊢
  cases disjunction with
  | none => exact last
  | some first =>
    rw [List.append_assoc, List.singleton_append]
    exact first.or last lastNotOr

theorem Chain.predicates_conjunct (chain : Chain) (term : Expr) :
    (chain.conjunct term).predicates = pendingPredicates chain.conjunction + term.predicates := by
  unfold Chain.conjunct pendingPredicates
  cases chain.conjunction <;> simp [Expr.predicates]

theorem Chain.predicates_close (chain : Chain) (term : Expr) :
    (chain.close term).predicates = chain.predicates + term.predicates := by
  unfold Chain.close Chain.predicates
  rw [Nat.add_assoc, ← chain.predicates_conjunct]
  unfold pendingPredicates
  cases chain.disjunction <;> simp [Expr.predicates]

theorem Chain.reads_and {chain : Chain} {term : Expr} (reads : chain.Reads limits level front)
    (whole : Whole limits level back term) (isTerm : term.isTerm) :
    (chain.followedByAnd term).Reads limits level (front ++ back ++ [.and]) := by
  obtain ⟨disjunction, conjunction, notOr⟩ := reads
  obtain ⟨last, lastNotOr⟩ := Chain.conjunct_whole conjunction notOr whole isTerm
  simp only [List.append_assoc]
  rw [← List.append_assoc _ back]
  exact .mk disjunction (.some last) (by simpa [Chain.followedByAnd] using lastNotOr)

theorem Chain.reads_or {chain : Chain} {term : Expr} (reads : chain.Reads limits level front)
    (whole : Whole limits level back term) (isTerm : term.isTerm) :
    (chain.followedByOr term).Reads limits level (front ++ back ++ [.or]) := by
  have closed := Chain.close_whole reads whole isTerm
  rw [← List.append_nil (front ++ back ++ [Token.or])]
  exact .mk (.some closed) .none (by simp [Chain.followedByOr])

/-! ### Groups -/

/-- The tokens spell what stands before the innermost group. -/
inductive GroupsRead (limits : Limits) : List Token → List OpenGroup → Prop where
  | nil : GroupsRead limits [] []
  | cons {tokens front : List Token} {group : OpenGroup} {groups : List OpenGroup}
    (before : GroupsRead limits tokens groups)
    (chain : group.outer.Reads limits groups.length front) :
    GroupsRead limits (tokens ++ front ++ [.openParen]) (group :: groups)

def groupPredicates : List OpenGroup → Nat
  | [] => 0
  | group :: groups => group.outer.predicates + groupPredicates groups

/-! ### Slots -/

/-- The tokens of a predicate before the operand that fills the slot. -/
def Slot.tokens : Slot → List Token
  | .left _ => []
  | .right first op => first.tokens ++ [.comparison op]
  | .argument call outer =>
    outer.tokens ++ .name call.name :: .openParen :: terminated (call.args.map Operand.tokens)

def Slot.calls : Slot → Nat
  | .left _ => 0
  | .right .. => 0
  | .argument _ outer => outer.calls + 1

def Slot.Fits (limits : Limits) (level : Nat) : Slot → Prop
  | .left _ => True
  | .right first _ => level + first.nesting ≤ limits.depth
  | .argument call outer =>
    outer.Fits limits level ∧
      level + outer.calls + 1 + Operand.argNesting call.args ≤ limits.depth

/-! ### Phases -/

/-- The tokens of the innermost predicate so far. -/
inductive Phase.Reads (limits : Limits) (level : Nat) : List Token → Phase → Prop where
  | term : Reads limits level [] .term
  | operand (slot : Slot) (fits : slot.Fits limits level) :
    Reads limits level slot.tokens (.operand slot)
  | name (text : String) (slot : Slot) (fits : slot.Fits limits level) :
    Reads limits level (slot.tokens ++ [.name text]) (.name text slot)
  | firstArgument (name : String) (position : Nat) (outer : Slot)
    (fits : (Slot.argument ⟨name, position, []⟩ outer).Fits limits level) :
    Reads limits level (outer.tokens ++ [.name name, .openParen])
      (.firstArgument ⟨name, position, []⟩ outer)
  | afterArgument (call : OpenCall) (outer : Slot) (nonempty : call.args ≠ [])
    (fits : (Slot.argument call outer).Fits limits level) :
    Reads limits level
      (outer.tokens ++ .name call.name :: .openParen :: separated (call.args.map Operand.tokens))
      (.afterArgument call outer)
  | operator (left : Operand) (position : Nat) (fits : level + left.nesting ≤ limits.depth) :
    Reads limits level left.tokens (.operator left position)
  | null (field : String) : Reads limits level [.name field, .is] (.null field false)
  | notNull (field : String) : Reads limits level [.name field, .is, .not] (.null field true)
  | inWord (field : String) : Reads limits level [.name field, .not] (.inWord field)
  | list (field : String) {negated : Bool} {words : List Token}
    (membership : MembershipWords negated words) :
    Reads limits level (.name field :: words) (.list field negated)
  | firstValue (field : String) (position : Nat) {negated : Bool} {words : List Token}
    (membership : MembershipWords negated words) :
    Reads limits level (.name field :: words ++ [.openParen])
      (.firstValue ⟨field, negated, position⟩)
  | value (field : String) (position : Nat) {negated : Bool} {words : List Token}
    (membership : MembershipWords negated words) (values : List Literal) :
    Reads limits level
      (.name field :: words ++ .openParen :: terminated (values.map fun value => [.literal value]))
      (.value ⟨field, negated, position⟩ values)
  | afterValue (field : String) (position : Nat) {negated : Bool} {words : List Token}
    (membership : MembershipWords negated words) (values : List Literal) (nonempty : values ≠ []) :
    Reads limits level
      (.name field :: words ++ .openParen :: separated (values.map fun value => [.literal value]))
      (.afterValue ⟨field, negated, position⟩ values)
  | complete {tokens : List Token} {term : Expr} (whole : Whole limits level tokens term)
    (isTerm : term.isTerm) : Reads limits level tokens (.complete term)

def Phase.calls : Phase → Nat
  | .operand slot => slot.calls
  | .name _ slot => slot.calls
  | .firstArgument _ outer => outer.calls + 1
  | .afterArgument _ outer => outer.calls + 1
  | _ => 0

/-- The number of predicates since the last joiner or parenthesis. -/
def Phase.predicates : Phase → Nat
  | .term => 0
  | .complete expr => expr.predicates
  | _ => 1

/-- A phase that goes on with the predicate of a slot: the tokens are read, and the calls around
the slot are still open. -/
structure Phase.Continues (limits : Limits) (level : Nat) (tokens : List Token) (calls : Nat)
    (phase : Phase) : Prop where
  reads : phase.Reads limits level tokens
  calls_eq : phase.calls = calls
  predicates_eq : phase.predicates = 1

theorem Slot.fill_continues {slot : Slot} (operand : Operand) (fits : slot.Fits limits level)
    (within : level + slot.calls + operand.nesting ≤ limits.depth) :
    (slot.fill operand).Continues limits level (slot.tokens ++ operand.tokens) slot.calls := by
  cases slot with
  | left position => exact ⟨.operator operand position within, rfl, rfl⟩
  | right first op =>
    refine ⟨.complete ⟨?_, trivial, ?_⟩ rfl, rfl, rfl⟩
    · rw [Slot.tokens, List.append_assoc, List.singleton_append]
      exact .comparison first op operand
    · simp only [Slot.Fits, Slot.calls, Expr.nesting] at fits within ⊢; omega
  | argument call outer =>
    obtain ⟨outerFits, argsFit⟩ := fits
    refine ⟨?_, rfl, rfl⟩
    have tokens : (Slot.argument call outer).tokens ++ operand.tokens =
        outer.tokens ++ .name call.name :: .openParen ::
          separated ((call.args ++ [operand]).map Operand.tokens) := by
      rw [List.map_append, List.map_singleton, separated_append_singleton, Slot.tokens]
      simp
    rw [tokens]
    refine .afterArgument { call with args := call.args ++ [operand] } outer (by simp)
      ⟨outerFits, ?_⟩
    simp only [Operand.argNesting_append, Operand.argNesting, Slot.calls] at argsFit within ⊢
    omega

theorem Phase.settled_reads {phase : Phase}
    (reads : phase.Reads limits level front) (within : level + phase.calls ≤ limits.depth) :
    phase.settled.Reads limits level front ∧ phase.settled.calls = phase.calls ∧
      phase.settled.predicates = phase.predicates := by
  cases reads with
  | name text slot fits =>
    obtain ⟨reads, calls, predicates⟩ := Slot.fill_continues (.field text) fits within
    exact ⟨reads, calls, predicates⟩
  | _ => exact ⟨by constructor <;> assumption, rfl, rfl⟩

/-! ### The parts of a step -/

theorem begins_continues {slot : Slot} {next : Phase} (fits : slot.Fits limits level)
    (within : level + slot.calls ≤ limits.depth) (begins : slot.Begins l next) :
    next.Continues limits level (slot.tokens ++ [l.token]) slot.calls := by
  cases begins with
  | name isName =>
    rw [isName]
    exact ⟨.name _ slot fits, rfl, rfl⟩
  | literal isLiteral =>
    rw [isLiteral]
    exact Slot.fill_continues (.literal _) fits within

theorem call_continues {outer : Slot} {name : String} (args : List Operand) {last : List Token}
    (fits : outer.Fits limits level)
    (argsFit : level + outer.calls + 1 + Operand.argNesting args ≤ limits.depth)
    (isClose : l.token = .closeParen)
    (spelled : last = outer.tokens ++ .name name :: .openParen ::
      separated (args.map Operand.tokens)) :
    (outer.fill (.call name args)).Continues limits level (last ++ [l.token]) outer.calls := by
  have filled := Slot.fill_continues (.call name args) fits
    (by simp only [Operand.nesting]; omega)
  rw [Operand.tokens_call] at filled
  simpa [spelled, isClose] using filled

theorem firstArgument_continues {call : OpenCall} {outer : Slot} {next : Phase}
    (reads : Phase.Reads limits level front (.firstArgument call outer))
    (within : level + (outer.calls + 1) ≤ limits.depth)
    (begins : (Slot.argument call outer).Begins l next) :
    next.Continues limits level (front ++ [l.token]) (outer.calls + 1) := by
  cases reads with
  | firstArgument name position _ fits =>
    have continues := begins_continues fits within begins
    simpa [Slot.tokens, Slot.calls] using continues

theorem nextArgument_continues {call : OpenCall} {outer : Slot}
    (reads : Phase.Reads limits level front (.afterArgument call outer))
    (isComma : l.token = .comma) :
    (Phase.operand (.argument call outer)).Continues limits level (front ++ [l.token])
      (outer.calls + 1) := by
  cases reads with
  | afterArgument _ _ nonempty fits =>
    have argument := Phase.Reads.operand (.argument call outer) fits
    rw [Slot.tokens, ← separated_append_comma (by simpa using nonempty)] at argument
    exact ⟨by simpa [isComma] using argument, rfl, rfl⟩

theorem asks_continues {field : String} {next : Phase} (asks : Asks l field next) :
    next.Continues limits level [.name field, l.token] 0 := by
  cases asks with
  | is isWord =>
    rw [isWord]
    exact ⟨.null field, rfl, rfl⟩
  | isIn isWord =>
    rw [isWord]
    exact ⟨.list field .plain, rfl, rfl⟩
  | notIn isWord =>
    rw [isWord]
    exact ⟨.list field .symbol, rfl, rfl⟩
  | not isWord =>
    rw [isWord]
    exact ⟨.inWord field, rfl, rfl⟩

theorem null_continues {field : String} {negated : Bool}
    (reads : Phase.Reads limits level front (.null field negated))
    (within : level ≤ limits.depth) (isNull : l.token = .null) :
    (Phase.complete (.isNull field negated)).Continues limits level (front ++ [l.token]) 0 := by
  have spelled : Spells (front ++ [l.token]) (.isNull field negated) := by
    rw [isNull]
    cases reads with
    | null => exact .isNull field false
    | notNull => exact .isNull field true
  exact ⟨.complete ⟨spelled, trivial, within⟩ rfl, rfl, rfl⟩

theorem value_continues {list : OpenList} {values : List Literal} {value : Literal}
    (reads : Phase.Reads limits level front (.value list values))
    (isLiteral : l.token = .literal value) :
    (Phase.afterValue list (values ++ [value])).Continues limits level (front ++ [l.token]) 0 := by
  cases reads with
  | value field position membership =>
    have behind : Phase.Reads limits level _ _ :=
      .afterValue field position membership (values ++ [value]) (by simp)
    rw [List.map_append, List.map_singleton, separated_append_singleton] at behind
    exact ⟨by simpa [isLiteral] using behind, rfl, rfl⟩

theorem nextValue_continues {list : OpenList} {values : List Literal}
    (reads : Phase.Reads limits level front (.afterValue list values))
    (isComma : l.token = .comma) :
    (Phase.value list values).Continues limits level (front ++ [l.token]) 0 := by
  cases reads with
  | afterValue field position membership _ nonempty =>
    have behind : Phase.Reads limits level _ _ := .value field position membership values
    rw [← separated_append_comma (by simpa using nonempty)] at behind
    exact ⟨by simpa [isComma] using behind, rfl, rfl⟩

theorem closeList_continues {list : OpenList} {values : List Literal}
    (reads : Phase.Reads limits level front (.afterValue list values))
    (within : level ≤ limits.depth) (isClose : l.token = .closeParen) :
    (Phase.complete (.inList list.field list.negated values)).Continues limits level
      (front ++ [l.token]) 0 := by
  cases reads with
  | afterValue field position membership _ nonempty =>
    have spelled := Spells.inList field membership values
    exact ⟨.complete ⟨by simpa [listTokens, isClose] using spelled, nonempty, within⟩ rfl, rfl, rfl⟩

/-- What goes on within a predicate continues it, and the calls around it stay open. -/
theorem goes_continues {phase next : Phase} (reads : phase.Reads limits level front)
    (within : level + phase.calls ≤ limits.depth) (goes : phase.Goes l next) :
    next.Continues limits level (front ++ [l.token]) phase.calls := by
  cases goes with
  | operand begins =>
    cases reads with
    | operand slot fits => exact begins_continues fits within begins
  | firstArgument begins => exact firstArgument_continues reads within begins
  | nextArgument isComma => exact nextArgument_continues reads isComma
  | @comparison left position op isOp =>
    cases reads with
    | operator _ _ fits =>
      rw [isOp]
      exact ⟨.operand (.right left op) fits, rfl, rfl⟩
  | asks asks =>
    cases reads with
    | operator => exact asks_continues asks
  | null isNull => exact null_continues reads within isNull
  | @notNull field isNot =>
    cases reads with
    | null =>
      rw [isNot]
      exact ⟨.notNull field, rfl, rfl⟩
  | @inWord field isIn =>
    cases reads with
    | inWord =>
      rw [isIn]
      exact ⟨.list field .words, rfl, rfl⟩
  | @list field negated isOpen =>
    cases reads with
    | list _ membership =>
      rw [isOpen]
      exact ⟨.firstValue field l.position membership, rfl, rfl⟩
  | firstValue isLiteral =>
    cases reads with
    | firstValue field position membership =>
      have empty : Phase.Reads limits level _ _ := .value field position membership []
      exact value_continues (by simpa using empty) isLiteral
  | value isLiteral => exact value_continues reads isLiteral
  | nextValue isComma => exact nextValue_continues reads isComma
  | closeList isClose => exact closeList_continues reads within isClose

theorem goes_predicates {phase next : Phase} (goes : phase.Goes l next) : phase.predicates = 1 := by
  cases goes <;> rfl

/-! ### Steps -/

/-- The state is what the parser knows after the tokens. -/
structure State.Consumed (limits : Limits) (tokens : List Token) (s : State) : Prop where
  depth_eq : s.depth = s.groups.length + s.phase.calls
  depth_le : s.depth ≤ limits.depth
  terms_eq : s.terms = groupPredicates s.groups + s.chain.predicates + s.phase.predicates
  terms_le : s.terms ≤ limits.terms
  reads : ∃ outer front last, tokens = outer ++ front ++ last ∧ GroupsRead limits outer s.groups ∧
    s.chain.Reads limits s.groups.length front ∧ s.phase.Reads limits s.groups.length last

theorem initial_consumed : State.Consumed limits [] State.initial where
  depth_eq := rfl
  depth_le := Nat.zero_le _
  terms_eq := rfl
  terms_le := Nat.zero_le _
  reads := ⟨[], [], [], rfl, .nil, Chain.reads_empty, .term⟩

theorem settle_consumed (h : s.Consumed limits front) : s.settle.Consumed limits front := by
  obtain ⟨depth, within, terms, counted, outer, chain, last, rfl, groups, chainReads, phase⟩ := h
  obtain ⟨reads, calls, predicates⟩ := Phase.settled_reads phase (depth ▸ within)
  exact ⟨depth.trans (by rw [← calls]; rfl), within, terms.trans (by rw [← predicates]; rfl),
    counted, outer, chain, last, rfl, groups, chainReads, reads⟩

/-- A step within a predicate changes only the phase and the counts. -/
theorem consumed_continues {phase : Phase} {last : List Token} {calls depth terms : Nat}
    (before : ∃ outer chain, front = outer ++ chain ++ last ∧ GroupsRead limits outer s.groups ∧
      s.chain.Reads limits s.groups.length chain)
    (continues : phase.Continues limits s.groups.length (last ++ [l.token]) calls)
    (depth_eq : depth = s.groups.length + calls) (depth_le : depth ≤ limits.depth)
    (terms_eq : terms = groupPredicates s.groups + s.chain.predicates + 1)
    (terms_le : terms ≤ limits.terms) :
    State.Consumed limits (front ++ [l.token])
      { s with depth := depth, terms := terms, phase := phase } := by
  obtain ⟨outer, chain, rfl, groups, chainReads⟩ := before
  obtain ⟨reads, calls_eq, predicates_eq⟩ := continues
  exact ⟨by rw [calls_eq]; exact depth_eq, depth_le, by rw [predicates_eq]; exact terms_eq,
    terms_le, outer, chain, last ++ [l.token], by simp, groups, chainReads, reads⟩

theorem goes_consumed {phase next : Phase} (h : s.Consumed limits front) (due : s.phase = phase)
    (goes : phase.Goes l next) :
    State.Consumed limits (front ++ [l.token]) { s with phase := next } := by
  obtain ⟨depth, within, terms, counted, outer, chain, last, rfl, groups, chainReads, reads⟩ := h
  rw [due] at depth terms reads
  rw [goes_predicates goes] at terms
  exact consumed_continues ⟨outer, chain, rfl, groups, chainReads⟩
    (goes_continues reads (depth ▸ within) goes) depth within terms counted

theorem predicate_consumed {next : Phase} (h : s.Consumed limits front) (due : s.phase = .term)
    (room : s.terms + 1 ≤ limits.terms) (begins : (Slot.left l.position).Begins l next) :
    State.Consumed limits (front ++ [l.token])
      { s with terms := s.terms + 1, phase := next } := by
  obtain ⟨depth, within, terms, counted, outer, chain, last, rfl, groups, chainReads, reads⟩ := h
  rw [due] at depth terms reads
  cases reads
  have fits : (Slot.left l.position).Fits limits s.groups.length := trivial
  exact consumed_continues ⟨outer, chain, rfl, groups, chainReads⟩
    (begins_continues fits (depth ▸ within) begins) depth within (by rw [terms]; rfl) room

theorem openGroup_consumed (h : s.Consumed limits front) (due : s.phase = .term)
    (isOpen : l.token = .openParen) (room : s.depth + 1 ≤ limits.depth) :
    State.Consumed limits (front ++ [l.token]) { s with
      groups := ⟨s.chain, l.position⟩ :: s.groups, chain := .empty, depth := s.depth + 1
      phase := .term } := by
  obtain ⟨depth, within, terms, counted, outer, chain, last, rfl, groups, chainReads, reads⟩ := h
  rw [due] at depth terms reads
  cases reads
  rw [isOpen]
  refine ⟨?_, room, ?_, counted, _, [], [], ?_, .cons groups chainReads, Chain.reads_empty, .term⟩
  · simp only [depth, Phase.calls, List.length_cons]
  · simp only [terms, groupPredicates, Chain.predicates, Chain.empty, pendingPredicates,
      Phase.predicates]
    omega
  · simp

theorem openCall_consumed {name : String} {slot : Slot} (h : s.Consumed limits front)
    (due : s.phase = .name name slot) (isOpen : l.token = .openParen)
    (room : s.depth + 1 ≤ limits.depth) :
    State.Consumed limits (front ++ [l.token]) { s with
      depth := s.depth + 1, phase := .firstArgument ⟨name, l.position, []⟩ slot } := by
  obtain ⟨depth, within, terms, counted, outer, chain, last, rfl, groups, chainReads, reads⟩ := h
  rw [due] at depth terms reads
  cases reads with
  | name _ _ fits =>
    simp only [Phase.calls] at depth
    have opened : Phase.Reads limits s.groups.length _ _ :=
      .firstArgument name l.position slot ⟨fits, by simp only [Operand.argNesting]; omega⟩
    refine consumed_continues ⟨outer, chain, rfl, groups, chainReads⟩ ⟨?_, rfl, rfl⟩ ?_ room terms
      counted
    · simpa [isOpen] using opened
    · simp only [Phase.calls]; omega

theorem closeCall_consumed {call : OpenCall} {outer : Slot} (h : s.Consumed limits front)
    (due : s.phase = .firstArgument call outer ∨ s.phase = .afterArgument call outer)
    (isClose : l.token = .closeParen) :
    State.Consumed limits (front ++ [l.token]) { s with
      depth := s.depth - 1, phase := outer.fill (.call call.name call.args) } := by
  obtain ⟨depth, within, terms, counted, before, chain, last, rfl, groups, chainReads, reads⟩ := h
  have continues : (outer.fill (.call call.name call.args)).Continues limits s.groups.length
      (last ++ [l.token]) outer.calls ∧ s.phase.calls = outer.calls + 1 ∧
        s.phase.predicates = 1 := by
    rcases due with due | due
    · rw [due] at reads ⊢
      cases reads with
      | firstArgument name position _ fits =>
        exact ⟨call_continues [] fits.1 fits.2 isClose (by simp), rfl, rfl⟩
    · rw [due] at reads ⊢
      cases reads with
      | afterArgument _ _ nonempty fits =>
        exact ⟨call_continues call.args fits.1 fits.2 isClose rfl, rfl, rfl⟩
  obtain ⟨continues, calls, predicates⟩ := continues
  rw [calls] at depth
  rw [predicates] at terms
  exact consumed_continues ⟨before, chain, rfl, groups, chainReads⟩ continues (by omega) (by omega)
    terms counted

theorem and_consumed {term : Expr} (h : s.Consumed limits front) (due : s.phase = .complete term)
    (isAnd : l.token = .and) :
    State.Consumed limits (front ++ [l.token])
      { s with chain := s.chain.followedByAnd term, phase := .term } := by
  obtain ⟨depth, within, terms, counted, outer, chain, last, rfl, groups, chainReads, reads⟩ := h
  rw [due] at depth terms reads
  cases reads with
  | complete whole isTerm =>
    rw [isAnd]
    refine ⟨depth, within, ?_, counted, outer, chain ++ last ++ [.and], [], by simp, groups,
      Chain.reads_and chainReads whole isTerm, .term⟩
    simp only [Chain.followedByAnd, Chain.predicates, pendingPredicates, Phase.predicates,
      Chain.predicates_conjunct] at terms ⊢
    omega

theorem or_consumed {term : Expr} (h : s.Consumed limits front) (due : s.phase = .complete term)
    (isOr : l.token = .or) :
    State.Consumed limits (front ++ [l.token])
      { s with chain := s.chain.followedByOr term, phase := .term } := by
  obtain ⟨depth, within, terms, counted, outer, chain, last, rfl, groups, chainReads, reads⟩ := h
  rw [due] at depth terms reads
  cases reads with
  | complete whole isTerm =>
    rw [isOr]
    refine ⟨depth, within, ?_, counted, outer, chain ++ last ++ [.or], [], by simp, groups,
      Chain.reads_or chainReads whole isTerm, .term⟩
    simp only [Chain.followedByOr, Chain.predicates, pendingPredicates, Phase.predicates,
      Chain.predicates_close] at terms ⊢
    omega

theorem closeGroup_consumed {term : Expr} {group : OpenGroup} {rest : List OpenGroup}
    (h : s.Consumed limits front) (due : s.phase = .complete term)
    (isClose : l.token = .closeParen) (innermost : s.groups = group :: rest) :
    State.Consumed limits (front ++ [l.token]) { s with
      groups := rest, chain := group.outer, depth := s.depth - 1
      phase := .complete (.group (s.chain.close term)) } := by
  obtain ⟨depth, within, terms, counted, outer, chain, last, rfl, groups, chainReads, reads⟩ := h
  rw [due] at depth terms reads
  rw [innermost] at depth terms groups chainReads reads
  cases reads with
  | complete whole isTerm =>
  cases groups with
  | @cons tokens front _ _ before around =>
    have closed := (Chain.close_whole chainReads whole isTerm).group
    rw [isClose]
    refine ⟨?_, Nat.le_trans (Nat.sub_le ..) within, ?_, counted, tokens, front, _, ?_, before,
      around, .complete closed rfl⟩
    · simp only [depth, Phase.calls, List.length_cons]; omega
    · simp only [groupPredicates, Phase.predicates, Expr.predicates, Chain.predicates_close]
        at terms ⊢
      omega
    · simp

theorem advance_consumed (h : s.Consumed limits front) (step : s.advance limits l = .ok t) :
    t.Consumed limits (front ++ [l.token]) := by
  have takes : Takes limits s l (.ok t) := advance_iff.mp step
  cases takes with
  | goes due goes => exact goes_consumed h due goes
  | predicate due room begins => exact predicate_consumed h due room begins
  | openGroup due isOpen room => exact openGroup_consumed h due isOpen room
  | openCall due isOpen room => exact openCall_consumed h due isOpen room
  | closeCall due isClose => exact closeCall_consumed h due isClose
  | and due isAnd => exact and_consumed h due isAnd
  | or due isOr => exact or_consumed h due isOr
  | closeGroup due isClose innermost => exact closeGroup_consumed h due isClose innermost

theorem step_consumed (h : s.Consumed limits front) (step : s.step limits l = .ok t) :
    t.Consumed limits (front ++ [l.token]) := by
  unfold State.step at step
  split at step
  · exact advance_consumed h step
  · exact advance_consumed (settle_consumed h) step

/-! ### Runs -/

theorem run_consumed {lexemes : List Lexeme} (h : s.Consumed limits front)
    (run : lexemes.foldlM (State.step limits) s = .ok t) :
    t.Consumed limits (front ++ lexemes.map Lexeme.token) := by
  induction lexemes generalizing s front with
  | nil =>
    cases run
    simpa using h
  | cons l lexemes ih =>
    rw [List.foldlM_cons] at run
    obtain ⟨middle, step, rest⟩ := bind_ok run
    simpa using ih (step_consumed h step) rest

theorem finish_whole {expr : Expr} (h : s.Consumed limits front)
    (finish : s.finish limits = .ok expr) :
    Whole limits 0 front expr ∧ expr.predicates ≤ limits.terms := by
  rw [← finish_settle] at finish
  obtain ⟨depth, within, terms, counted, outer, chain, last, rfl, groups, chainReads, phase⟩ :=
    settle_consumed h
  unfold State.finish at finish
  rw [show s.settle.phase.settled = s.settle.phase from settled_settled _] at finish
  split at finish
  · obtain ⟨_, _, finish⟩ := bind_ok finish
    cases finish
  · cases finish
  · cases finish
  · rename_i term due
    rw [due] at phase terms
    cases phase with
    | complete whole isTerm =>
    split at finish
    · rename_i noGroups
      cases finish
      rw [noGroups] at groups chainReads whole terms
      cases groups
      refine ⟨Chain.close_whole chainReads whole isTerm, ?_⟩
      rw [Chain.predicates_close]
      simp only [groupPredicates, Phase.predicates] at terms
      omega
    · cases finish
  · cases finish

end QueryFilter.Parser

namespace QueryFilter

/-- Everything that is accepted is spelled by the grammar, within the limits. -/
theorem spells_of_parseLexemes {limits : Limits} {lexemes : List Lexeme} {expr : Expr}
    (h : parseLexemes limits lexemes = .ok expr) :
    Spells (lexemes.map Lexeme.token) expr ∧ expr.Canonical ∧ expr.nesting ≤ limits.depth ∧
      expr.predicates ≤ limits.terms := by
  unfold parseLexemes at h
  split at h
  · cases h
  obtain ⟨s, run, finish⟩ := bind_ok h
  obtain ⟨⟨spelled, shape, fits⟩, room⟩ :=
    Parser.finish_whole (Parser.run_consumed Parser.initial_consumed run) finish
  exact ⟨by simpa using spelled, shape, by simpa using fits, room⟩

end QueryFilter
