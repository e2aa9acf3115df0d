import QueryFilter.Proofs.Grammar
import QueryFilter.Proofs.Parsing.Steps

/-!
# Reading what the grammar spells

The parser reads every spelling of a canonical expression that fits the limits, and what it then
has is that expression: `operand_starts` for operands, `spelling_read` for expressions.
-/

namespace QueryFilter.Parser

variable {limits : Limits} {s t u : State} {l : Lexeme} {ls ms : List Lexeme}

def State.settle (s : State) : State := { s with phase := s.phase.settled }

@[simp] theorem settled_fill (slot : Slot) (operand : Operand) :
    (slot.fill operand).settled = slot.fill operand := by
  cases slot <;> rfl

@[simp] theorem settled_settled (phase : Phase) : phase.settled.settled = phase.settled := by
  cases phase with
  | name text slot => exact settled_fill slot (.field text)
  | _ => rfl

theorem step_of_name {name : String} {slot : Slot} (due : s.phase = .name name slot)
    (isOpen : l.token = .openParen) : s.step limits l = s.advance limits l := by
  rw [State.step, due, isOpen]

/-- Only an opening parenthesis tells a name from a field. -/
theorem step_eq_advance (notOpen : l.token ≠ .openParen) :
    s.step limits l = s.settle.advance limits l := by
  unfold State.step
  split
  · contradiction
  · rfl

theorem step_of_settled (settled : s.phase.settled = s.phase) :
    s.step limits l = s.advance limits l := by
  unfold State.step
  split
  · rfl
  · rw [settled]

theorem step_of_takes {phase : Phase} {outcome : Except FilterError State} (due : s.phase = phase)
    (settled : phase.settled = phase) (takes : Takes limits s l outcome) :
    s.step limits l = outcome := by
  rw [step_of_settled (by rw [due, settled]), takes.advance_eq]

theorem goes_settled {phase next : Phase} (goes : phase.Goes l next) : phase.settled = phase := by
  cases goes <;> rfl

theorem step_goes {phase next : Phase} (due : s.phase = phase) (goes : phase.Goes l next) :
    s.step limits l = .ok { s with phase := next } :=
  step_of_takes due (goes_settled goes) (.goes due goes)

theorem step_misplaced (settled : s.phase.settled = s.phase) (notTerm : s.phase ≠ .term)
    (unexpected : s.phase.expects l.token = false) : s.step limits l = .error (misplaced l) :=
  step_of_takes rfl settled (.misplaced unexpected fun isTerm => absurd isTerm notTerm)

theorem finish_settle : s.settle.finish limits = s.finish limits := by
  simp only [State.finish, State.settle, settled_settled, State.countPredicate]
  cases s.phase.settled with
  | term => by_cases full : s.terms + 1 > limits.terms <;> simp [full, Except.bind]
  | _ => rfl

/-! ### Runs -/

/-- Reading the lexemes leads from `s` to a state that settles to `t`. -/
def Leads (limits : Limits) (s : State) (lexemes : List Lexeme) (t : State) : Prop :=
  ∃ after, lexemes.foldlM (State.step limits) s = .ok after ∧ after.settle = t

theorem leads_nil (settled : s.settle = t) : Leads limits s [] t := ⟨s, rfl, settled⟩

theorem leads_cons (step : s.step limits l = .ok t) (rest : Leads limits t ls u) :
    Leads limits s (l :: ls) u := by
  obtain ⟨after, run, settled⟩ := rest
  refine ⟨after, ?_, settled⟩
  rw [List.foldlM_cons, step]
  exact run

theorem leads_singleton (step : s.step limits l = .ok t) (settled : t.phase.settled = t.phase) :
    Leads limits s [l] t :=
  leads_cons step (leads_nil (by rw [State.settle, settled]))

/-- Two runs around a lexeme that no name waits for. -/
theorem leads_append (first : Leads limits s ls t) (notOpen : l.token ≠ .openParen)
    (step : t.advance limits l = .ok u) {v : State} (rest : Leads limits u ms v) :
    Leads limits s (ls ++ l :: ms) v := by
  obtain ⟨middle, run, rfl⟩ := first
  obtain ⟨after, tail, settled⟩ := rest
  refine ⟨after, ?_, settled⟩
  rw [List.foldlM_append, run]
  change (l :: ms).foldlM (State.step limits) middle = _
  rw [List.foldlM_cons, step_eq_advance notOpen, step]
  exact tail

/-! ### Operands -/

/-- The first lexeme starts an operand for the slot, and the rest leads to the given phase. -/
def Starts (limits : Limits) (s : State) (slot : Slot) (lexemes : List Lexeme) (phase : Phase) :
    Prop :=
  ∃ l ls first, lexemes = l :: ls ∧ slot.Begins l first ∧
    Leads limits { s with phase := first } ls { s with phase := phase }

theorem operand_leads {slot : Slot} {phase : Phase} (h : Starts limits s slot ls phase)
    (due : s.phase = .operand slot) : Leads limits s ls { s with phase := phase } := by
  obtain ⟨l, rest, first, rfl, begins, run⟩ := h
  exact leads_cons (step_goes due (.operand begins)) run

theorem firstArgument_leads {call : OpenCall} {outer : Slot} {phase : Phase}
    (h : Starts limits s (.argument call outer) ls phase)
    (due : s.phase = .firstArgument call outer) : Leads limits s ls { s with phase := phase } := by
  obtain ⟨l, rest, first, rfl, begins, run⟩ := h
  exact leads_cons (step_goes due (.firstArgument begins)) run

theorem args_start (call : OpenCall) (outer : Slot) {arg : Operand} {args : List Operand}
    (read : ∀ operand ∈ arg :: args, ∀ slot s lexemes,
      lexemes.map Lexeme.token = operand.tokens → s.depth + operand.nesting ≤ limits.depth →
      Starts limits s slot lexemes (slot.fill operand))
    (spelled : ls.map Lexeme.token = separated ((arg :: args).map Operand.tokens))
    (fits : s.depth + Operand.argNesting (arg :: args) ≤ limits.depth) :
    Starts limits s (.argument call outer) ls
      (.afterArgument { call with args := call.args ++ arg :: args } outer) := by
  -- At each comma the call has one argument more, and the rest is read as behind a parenthesis.
  induction args generalizing arg call ls s with
  | nil =>
    simp only [Operand.argNesting] at fits
    exact read arg (by simp) _ _ _ (by simpa using spelled) (by omega)
  | cons next args ih =>
    simp only [Operand.argNesting] at fits ih
    rw [List.map_cons, separated_cons _ (by simp)] at spelled
    obtain ⟨front, back, rfl, spelledFront, spelledBack⟩ := List.map_eq_append_iff.mp spelled
    obtain ⟨comma, rest, rfl, isComma, spelledRest⟩ := List.map_eq_cons_iff.mp spelledBack
    obtain ⟨l, ls, first, rfl, begins, run⟩ :=
      read arg (by simp) (.argument call outer) s front spelledFront (by omega)
    refine ⟨l, ls ++ comma :: rest, first, rfl, begins, ?_⟩
    let called : OpenCall := { call with args := call.args ++ [arg] }
    have later := ih called (s := { s with phase := .operand (.argument called outer) })
      (fun operand member => read operand (List.mem_cons_of_mem _ member)) spelledRest
      (by dsimp only; omega)
    have leads := operand_leads later rfl
    simp only [called, List.append_assoc, List.singleton_append] at leads
    exact leads_append run (by simp [isComma])
      (Takes.advance_eq (.goes rfl (.nextArgument isComma))) leads

theorem operand_starts (operand : Operand) : ∀ slot s lexemes,
    lexemes.map Lexeme.token = operand.tokens → s.depth + operand.nesting ≤ limits.depth →
    Starts limits s slot lexemes (slot.fill operand) := by
  induction operand using Operand.induction with
  | field name =>
    intro slot s lexemes spelled fits
    obtain ⟨l, rest, rfl, isName, spelled⟩ := List.map_eq_cons_iff.mp spelled
    obtain rfl := List.map_eq_nil_iff.mp spelled
    exact ⟨l, [], .name name slot, rfl, .name isName, leads_nil rfl⟩
  | literal value =>
    intro slot s lexemes spelled fits
    obtain ⟨l, rest, rfl, isLiteral, spelled⟩ := List.map_eq_cons_iff.mp spelled
    obtain rfl := List.map_eq_nil_iff.mp spelled
    exact ⟨l, [], slot.fill (.literal value), rfl, .literal isLiteral,
      leads_nil (by simp [State.settle])⟩
  | call name args ih =>
    intro slot s lexemes spelled fits
    rw [Operand.tokens_call] at spelled
    simp only [Operand.nesting] at fits
    obtain ⟨l, rest, rfl, isName, spelled⟩ := List.map_eq_cons_iff.mp spelled
    obtain ⟨opening, rest, rfl, isOpen, spelled⟩ := List.map_eq_cons_iff.mp spelled
    obtain ⟨inside, rest, rfl, spelledInside, spelled⟩ := List.map_eq_append_iff.mp spelled
    obtain ⟨closing, rest, rfl, isClose, spelled⟩ := List.map_eq_cons_iff.mp spelled
    obtain rfl := List.map_eq_nil_iff.mp spelled
    refine ⟨l, _, .name name slot, rfl, .name isName, ?_⟩
    let inner : State := { s with
      depth := s.depth + 1, phase := .firstArgument ⟨name, opening.position, []⟩ slot }
    refine leads_cons (t := inner) ?_ ?_
    · rw [step_of_name rfl isOpen]
      exact Takes.advance_eq (.openCall rfl isOpen (by dsimp only; omega))
    have filled (args : List Operand) :
        Leads limits { s with phase := slot.fill (.call name args) } []
          { s with phase := slot.fill (.call name args) } :=
      leads_nil (by simp [State.settle])
    cases args with
    | nil =>
      obtain rfl := List.map_eq_nil_iff.mp spelledInside
      exact leads_cons (step_of_takes rfl rfl (.closeCall (.inl rfl) isClose)) (filled [])
    | cons arg args =>
      have run := args_start ⟨name, opening.position, []⟩ slot (s := inner)
        ih spelledInside (by dsimp only [inner]; omega)
      exact leads_append (firstArgument_leads run rfl) (by simp [isClose])
        (Takes.advance_eq (.closeCall (.inr rfl) isClose)) (filled (arg :: args))

/-! ### Predicates -/

theorem count_ok (room : s.terms + 1 ≤ limits.terms) :
    s.countPredicate limits = .ok { s with terms := s.terms + 1 } := by
  rw [State.countPredicate, if_neg (Nat.not_lt.mpr room)]

theorem term_step {phase : Phase} (due : s.phase = .term) (room : s.terms + 1 ≤ limits.terms)
    (begins : (Slot.left l.position).Begins l phase) :
    s.step limits l = .ok { s with terms := s.terms + 1, phase := phase } :=
  step_of_takes due rfl (.predicate due room begins)

theorem comparison_leads {left right : Operand} {op : Comparison} (due : s.phase = .term)
    (room : s.terms + 1 ≤ limits.terms)
    (fits : s.depth + max left.nesting right.nesting ≤ limits.depth)
    (spelled : ls.map Lexeme.token = left.tokens ++ .comparison op :: right.tokens) :
    Leads limits s ls
      { s with terms := s.terms + 1, phase := .complete (.comparison left op right) } := by
  obtain ⟨front, back, rfl, spelledLeft, spelled⟩ := List.map_eq_append_iff.mp spelled
  obtain ⟨sign, back, rfl, isSign, spelledRight⟩ := List.map_eq_cons_iff.mp spelled
  let counted : State := { s with terms := s.terms + 1 }
  have leftRead (position : Nat) : Starts limits counted (.left position) front
      (.operator left position) :=
    operand_starts left _ _ _ spelledLeft
      (Nat.le_trans (Nat.add_le_add_left (Nat.le_max_left ..) _) fits)
  let signed : State := { counted with phase := .operand (.right left op) }
  have rightRead : Leads limits signed back
      { counted with phase := .complete (.comparison left op right) } :=
    operand_leads (operand_starts right _ signed _ spelledRight
      (Nat.le_trans (Nat.add_le_add_left (Nat.le_max_right ..) _) fits)) rfl
  obtain ⟨l, rest, _, rfl, -, -⟩ := leftRead 0
  obtain ⟨_, _, first, same, begins, run⟩ := leftRead l.position
  obtain ⟨rfl, rfl⟩ := List.cons.inj same
  exact leads_append (leads_cons (term_step due room begins) run) (by simp [isSign])
    (Takes.advance_eq (.goes rfl (.comparison isSign))) rightRead

theorem subject_step {field : String} (due : s.phase = .term) (room : s.terms + 1 ≤ limits.terms)
    (isName : l.token = .name field) : s.step limits l =
      .ok { s with terms := s.terms + 1, phase := .name field (.left l.position) } :=
  term_step due room (.name isName)

theorem asks_step {field : String} {position : Nat} {next : Phase}
    (due : s.phase = .name field (.left position)) (asks : Asks l field next) :
    s.step limits l = .ok { s with phase := next } := by
  have settled : s.settle.phase = .operator (.field field) position := by
    rw [State.settle, due]
    rfl
  have notOpen : l.token ≠ .openParen := by
    cases asks with
    | is isWord | isIn isWord | notIn isWord | not isWord => simp [isWord]
  rw [step_eq_advance notOpen]
  exact Takes.advance_eq (.goes settled (.asks asks))

theorem null_leads {field : String} {negated : Bool} (due : s.phase = .null field negated)
    (spelled : ls.map Lexeme.token = [.null]) :
    Leads limits s ls { s with phase := .complete (.isNull field negated) } := by
  obtain ⟨l, rest, rfl, isNull, spelled⟩ := List.map_eq_cons_iff.mp spelled
  obtain rfl := List.map_eq_nil_iff.mp spelled
  exact leads_singleton (step_goes due (.null isNull)) rfl

theorem isNull_leads {field : String} {negated : Bool} (due : s.phase = .term)
    (room : s.terms + 1 ≤ limits.terms)
    (spelled : ls.map Lexeme.token = .name field :: nullWords negated) :
    Leads limits s ls { s with terms := s.terms + 1, phase := .complete (.isNull field negated) } := by
  obtain ⟨l, rest, rfl, isName, spelled⟩ := List.map_eq_cons_iff.mp spelled
  refine leads_cons (subject_step due room isName) ?_
  cases negated with
  | false =>
    obtain ⟨word, rest, rfl, isWord, spelled⟩ := List.map_eq_cons_iff.mp spelled
    exact leads_cons (asks_step rfl (.is isWord)) (null_leads rfl spelled)
  | true =>
    obtain ⟨word, rest, rfl, isWord, spelled⟩ := List.map_eq_cons_iff.mp spelled
    obtain ⟨not, rest, rfl, isNot, spelled⟩ := List.map_eq_cons_iff.mp spelled
    exact leads_cons (asks_step rfl (.is isWord))
      (leads_cons (step_goes rfl (.notNull isNot)) (null_leads rfl spelled))

theorem values_lead (list : OpenList) (known : List Literal) {value : Literal}
    {values : List Literal}
    (due : ∀ l value, l.token = .literal value → s.step limits l =
      .ok { s with phase := .afterValue list (known ++ [value]) })
    (spelled : ls.map Lexeme.token =
      separated ((value :: values).map fun value => [.literal value])) :
    Leads limits s ls { s with phase := .afterValue list (known ++ value :: values) } := by
  induction values generalizing value known ls s with
  | nil =>
    obtain ⟨l, rest, rfl, isValue, spelled⟩ := List.map_eq_cons_iff.mp spelled
    obtain rfl := List.map_eq_nil_iff.mp spelled
    exact leads_singleton (due l value isValue) rfl
  | cons next values ih =>
    rw [List.map_cons, separated_cons _ (by simp)] at spelled
    obtain ⟨l, rest, rfl, isValue, spelled⟩ := List.map_eq_cons_iff.mp spelled
    obtain ⟨comma, rest, rfl, isComma, spelled⟩ := List.map_eq_cons_iff.mp spelled
    have later := ih (s := { s with phase := .value list (known ++ [value]) }) (known ++ [value])
      (fun l next isNext => ?_) spelled
    · rw [List.append_assoc, List.singleton_append] at later
      exact leads_cons (due l value isValue)
        (leads_cons (step_goes rfl (.nextValue isComma)) later)
    · exact step_goes rfl (.value isNext)

theorem list_leads {field : String} {negated : Bool} {values : List Literal}
    (due : s.phase = .list field negated) (nonempty : values ≠ [])
    (spelled : ls.map Lexeme.token = listTokens values) :
    Leads limits s ls { s with phase := .complete (.inList field negated values) } := by
  obtain ⟨opening, rest, rfl, isOpen, spelled⟩ := List.map_eq_cons_iff.mp spelled
  obtain ⟨inside, rest, rfl, spelledInside, spelled⟩ := List.map_eq_append_iff.mp spelled
  obtain ⟨closing, rest, rfl, isClose, spelled⟩ := List.map_eq_cons_iff.mp spelled
  obtain rfl := List.map_eq_nil_iff.mp spelled
  obtain ⟨value, values, rfl⟩ := List.exists_cons_of_ne_nil nonempty
  let list : OpenList := ⟨field, negated, opening.position⟩
  have run : Leads limits { s with phase := .firstValue list } inside
      { s with phase := .afterValue list (value :: values) } :=
    values_lead list [] (fun l next isNext => step_goes rfl (.firstValue isNext)) spelledInside
  exact leads_cons (step_goes due (.list isOpen)) (leads_append run (by simp [isClose])
    (Takes.advance_eq (.goes rfl (.closeList isClose))) (leads_nil rfl))

theorem inList_leads {field : String} {negated : Bool} {words : List Token} {values : List Literal}
    (membership : MembershipWords negated words) (due : s.phase = .term)
    (room : s.terms + 1 ≤ limits.terms) (nonempty : values ≠ [])
    (spelled : ls.map Lexeme.token = .name field :: words ++ listTokens values) :
    Leads limits s ls
      { s with terms := s.terms + 1, phase := .complete (.inList field negated values) } := by
  obtain ⟨l, rest, rfl, isName, spelled⟩ := List.map_eq_cons_iff.mp spelled
  refine leads_cons (subject_step due room isName) ?_
  let asked : State := { s with terms := s.terms + 1, phase := .list field negated }
  have listed {rest : List Lexeme} (spelled : rest.map Lexeme.token = listTokens values) :
      Leads limits asked rest { asked with phase := .complete (.inList field negated values) } :=
    list_leads rfl nonempty spelled
  cases membership with
  | plain =>
    obtain ⟨word, rest, rfl, isWord, spelled⟩ := List.map_eq_cons_iff.mp spelled
    exact leads_cons (asks_step rfl (.isIn isWord)) (listed spelled)
  | symbol =>
    obtain ⟨word, rest, rfl, isWord, spelled⟩ := List.map_eq_cons_iff.mp spelled
    exact leads_cons (asks_step rfl (.notIn isWord)) (listed spelled)
  | words =>
    obtain ⟨not, rest, rfl, isNot, spelled⟩ := List.map_eq_cons_iff.mp spelled
    obtain ⟨word, rest, rfl, isWord, spelled⟩ := List.map_eq_cons_iff.mp spelled
    exact leads_cons (asks_step rfl (.not isNot))
      (leads_cons (step_goes rfl (.inWord isWord)) (listed spelled))

/-! ### Expressions -/

/-- An expression may follow the chain: an unfinished `and` waits for a term, and an unfinished
`or` for anything but another `or`. -/
def Chain.Admits (chain : Chain) (expr : Expr) : Prop :=
  (expr.isTerm = false → chain.conjunction = none) ∧ (expr.isOr → chain.disjunction = none)

theorem Chain.admits_term {term : Expr} (chain : Chain) (isTerm : term.isTerm) :
    chain.Admits term :=
  ⟨fun notTerm => by simp [isTerm] at notTerm,
    fun isOr => by simp [Expr.not_isOr_of_isTerm isTerm] at isOr⟩

theorem Chain.admits_of_not_isOr {chain : Chain} {expr : Expr} (waiting : chain.conjunction = none)
    (notOr : expr.isOr = false) : chain.Admits expr :=
  ⟨fun _ => waiting, fun isOr => by simp [notOr] at isOr⟩

/-- After the expression, `chain` waits for its last term, `term`. -/
structure Chain.Extended (base : Chain) (expr : Expr) (chain : Chain) (term : Expr) : Prop where
  close : chain.close term = base.close expr
  conjunct : expr.isOr = false →
    chain.conjunct term = base.conjunct expr ∧ chain.disjunction = base.disjunction

theorem Chain.extended_self (chain : Chain) (term : Expr) : chain.Extended term chain term :=
  ⟨rfl, fun _ => ⟨rfl, rfl⟩⟩

theorem Chain.extended_and {base first second : Chain} {left right term last : Expr}
    (admits : base.Admits (.and left right)) (notOr : left.isOr = false) (isTerm : right.isTerm)
    (extendedLeft : base.Extended left first term)
    (extendedRight : (first.followedByAnd term).Extended right second last) :
    base.Extended (.and left right) second last := by
  have waiting : base.conjunction = none := admits.1 rfl
  obtain ⟨leftConjunct, leftDisjunction⟩ := extendedLeft.conjunct notOr
  obtain ⟨rightConjunct, rightDisjunction⟩ :=
    extendedRight.conjunct (Expr.not_isOr_of_isTerm isTerm)
  have whole : second.conjunct last = base.conjunct (.and left right) := by
    rw [rightConjunct]
    simp only [followedByAnd, conjunct, waiting]
    congr 1
    simpa only [conjunct, waiting] using leftConjunct
  have before : second.disjunction = base.disjunction := rightDisjunction.trans leftDisjunction
  exact ⟨by rw [close, close, before, whole], fun _ => ⟨whole, before⟩⟩

theorem Chain.extended_or {base first second : Chain} {left right term last : Expr}
    (admits : base.Admits (.or left right)) (extendedLeft : base.Extended left first term)
    (extendedRight : (first.followedByOr term).Extended right second last) :
    base.Extended (.or left right) second last := by
  refine ⟨?_, fun notOr => by cases notOr⟩
  rw [extendedRight.close, followedByOr, extendedLeft.close]
  simp only [close, conjunct, admits.1 rfl, admits.2 rfl]

theorem group_leads {inner term : Expr} {chain : Chain} {count : Nat} {opening closing : Lexeme}
    (due : s.phase = .term) (room : s.depth + 1 ≤ limits.depth) (isOpen : opening.token = .openParen)
    (isClose : closing.token = .closeParen)
    (run : Leads limits
      { s with
        groups := ⟨s.chain, opening.position⟩ :: s.groups, chain := .empty, depth := s.depth + 1
        phase := .term } ls
      { s with
        groups := ⟨s.chain, opening.position⟩ :: s.groups, chain := chain, depth := s.depth + 1
        terms := count, phase := .complete term })
    (closed : chain.close term = inner) :
    Leads limits s (opening :: ls ++ [closing])
      { s with terms := count, phase := .complete (.group inner) } := by
  subst closed
  exact leads_cons (step_of_takes due rfl (.openGroup due isOpen room)) (leads_append run
    (by simp [isClose]) (Takes.advance_eq (.closeGroup rfl isClose rfl)) (leads_nil rfl))

/-- The lexemes are read as the expression, the last term of which is then complete. -/
def LeadsTo (limits : Limits) (s : State) (ls : List Lexeme) (expr : Expr) : Prop :=
  ∃ chain term, Leads limits s ls
      { s with chain := chain, terms := s.terms + expr.predicates, phase := .complete term } ∧
    s.chain.Extended expr chain term

/-- The right side is read behind the chain to which the left side leads. -/
theorem LeadsTo.join {follow : Chain → Expr → Chain} {left right whole : Expr}
    {front back : List Lexeme} (first : LeadsTo limits s front left)
    (notOpen : l.token ≠ .openParen)
    (step : ∀ {t : State} {term : Expr}, t.phase = .complete term →
      t.advance limits l = .ok { t with chain := follow t.chain term, phase := .term })
    (second : ∀ chain term, LeadsTo limits
      { s with chain := follow chain term, terms := s.terms + left.predicates, phase := .term }
      back right)
    (count : whole.predicates = left.predicates + right.predicates)
    (extended : ∀ {chain after term last}, s.chain.Extended left chain term →
      (follow chain term).Extended right after last → s.chain.Extended whole after last) :
    LeadsTo limits s (front ++ l :: back) whole := by
  obtain ⟨chain, term, runLeft, extendedLeft⟩ := first
  obtain ⟨after, last, runRight, extendedRight⟩ := second chain term
  refine ⟨after, last, leads_append runLeft notOpen (step rfl) ?_,
    extended extendedLeft extendedRight⟩
  rw [count, ← Nat.add_assoc]
  exact runRight

/-- A canonical expression within the limits is read to its end. -/
theorem spelling_read (limits : Limits) {tokens : List Token} {expr : Expr}
    (spelled : Spells tokens expr) :
    ∀ (s : State) (ls : List Lexeme), ls.map Lexeme.token = tokens → expr.Canonical →
      s.phase = .term → s.depth + expr.nesting ≤ limits.depth →
      s.terms + expr.predicates ≤ limits.terms → s.chain.Admits expr →
      LeadsTo limits s ls expr := by
  -- The parser does not hold a chain as a tree while it is read, so the induction is on the
  -- spelling with the chain around it as a parameter.
  induction spelled with
  | comparison left op right =>
    intro s ls same _ due fits room _
    exact ⟨s.chain, _, comparison_leads due room fits same, s.chain.extended_self _⟩
  | inList field membership values =>
    intro s ls same nonempty due _ room _
    exact ⟨s.chain, _, inList_leads membership due room nonempty same, s.chain.extended_self _⟩
  | isNull field negated =>
    intro s ls same _ due _ room _
    exact ⟨s.chain, _, isNull_leads due room same, s.chain.extended_self _⟩
  | @and _ _ left right _ _ ihLeft ihRight =>
    intro s ls same shape due fits room admits
    obtain ⟨notOr, isTerm, shapeLeft, shapeRight⟩ := shape
    simp only [Expr.nesting] at fits
    simp only [Expr.predicates] at room
    obtain ⟨front, back, rfl, sameLeft, same⟩ := List.map_eq_append_iff.mp same
    obtain ⟨word, back, rfl, isAnd, sameRight⟩ := List.map_eq_cons_iff.mp same
    have first : LeadsTo limits s front left := ihLeft s front sameLeft shapeLeft due
      (by omega) (by omega) (Chain.admits_of_not_isOr (admits.1 rfl) notOr)
    refine first.join (by simp [isAnd]) (fun due => Takes.advance_eq (.and due isAnd))
      (fun chain term => ?_) rfl (Chain.extended_and admits notOr isTerm)
    exact ihRight _ back sameRight shapeRight rfl (by dsimp only; omega) (by dsimp only; omega)
      (Chain.admits_term _ isTerm)
  | @or _ _ left right _ _ ihLeft ihRight =>
    intro s ls same shape due fits room admits
    obtain ⟨notOr, shapeLeft, shapeRight⟩ := shape
    simp only [Expr.nesting] at fits
    simp only [Expr.predicates] at room
    obtain ⟨front, back, rfl, sameLeft, same⟩ := List.map_eq_append_iff.mp same
    obtain ⟨word, back, rfl, isOr, sameRight⟩ := List.map_eq_cons_iff.mp same
    have first : LeadsTo limits s front left := ihLeft s front sameLeft shapeLeft due
      (by omega) (by omega) ⟨fun _ => admits.1 rfl, fun _ => admits.2 rfl⟩
    refine first.join (by simp [isOr]) (fun due => Takes.advance_eq (.or due isOr))
      (fun chain term => ?_) rfl (Chain.extended_or admits)
    exact ihRight _ back sameRight shapeRight rfl (by dsimp only; omega) (by dsimp only; omega)
      (Chain.admits_of_not_isOr rfl notOr)
  | @group _ inner _ ih =>
    intro s ls same shape due fits room _
    simp only [Expr.nesting] at fits
    obtain ⟨opening, rest, rfl, isOpen, same⟩ := List.map_eq_cons_iff.mp same
    obtain ⟨inside, rest, rfl, sameInside, same⟩ := List.map_eq_append_iff.mp same
    obtain ⟨closing, rest, rfl, isClose, same⟩ := List.map_eq_cons_iff.mp same
    obtain rfl := List.map_eq_nil_iff.mp same
    let opened : State := { s with
      groups := ⟨s.chain, opening.position⟩ :: s.groups, chain := .empty, depth := s.depth + 1
      phase := .term }
    obtain ⟨chain, term, run, extended⟩ := ih opened inside sameInside shape rfl
      (by dsimp only [opened]; omega) room ⟨fun _ => rfl, fun _ => rfl⟩
    exact ⟨s.chain, .group inner, group_leads due (by omega) isOpen isClose run extended.close,
      s.chain.extended_self _⟩

end QueryFilter.Parser

namespace QueryFilter

theorem spells_ne_nil {tokens : List Token} {expr : Expr} (spelled : Spells tokens expr) :
    tokens ≠ [] := by
  cases spelled <;> simp

/-- Everything that the grammar spells within the limits is accepted. -/
theorem parseLexemes_of_spells {limits : Limits} {lexemes : List Lexeme} {expr : Expr}
    (spelled : Spells (lexemes.map Lexeme.token) expr) (shape : expr.Canonical)
    (fits : expr.nesting ≤ limits.depth) (room : expr.predicates ≤ limits.terms) :
    parseLexemes limits lexemes = .ok expr := by
  obtain ⟨chain, term, ⟨after, run, settled⟩, extended⟩ :=
    Parser.spelling_read limits spelled Parser.State.initial lexemes rfl shape rfl
      (by simpa [Parser.State.initial] using fits) (by simpa [Parser.State.initial] using room)
      ⟨fun _ => rfl, fun _ => rfl⟩
  have nonempty : lexemes ≠ [] := by
    rintro rfl
    exact spells_ne_nil spelled rfl
  rw [parseLexemes, if_neg nonempty, run]
  change after.finish limits = .ok expr
  rw [← Parser.finish_settle, settled]
  exact congrArg Except.ok extended.close

end QueryFilter
