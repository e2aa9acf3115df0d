import QueryFilter.Proofs.Parsing.Lockstep

/-!
# The two parsers agree

For each rule of the grammar, what its function in the descent reads and where the machine is then.
-/

namespace QueryFilter.Descent

open QueryFilter.Parser (State Slot Phase OpenCall OpenList Chain Asks Takes misplaced
  step_of_settled step_of_takes step_of_name step_goes step_misplaced step_eq_advance finish_settle)

variable {limits : Limits} {lexemes : List Lexeme} {c : Counters} {l : Lexeme}
  {s t : State} {origin : Counters} {outcome : Except FilterError Expr} {depth predicates : Nat}
  {tokens : List Token}

/-! ### Closing a level -/

def Counters.left (c : Counters) : Counters := { c with depth := c.depth - 1 }

theorem leave_of_pos (inside : 0 < c.depth) : leave c = .ok () c.left :=
  if_neg (Nat.ne_of_gt inside)

/-- Behind a parenthesis that closes a group or a call both parsers are a level further out. -/
theorem Here.close
    (here : Here limits lexemes origin outcome (depth + 1) tokens predicates s c)
    (found : lexemes[c.position]? = some l) (isClose : l.token = .closeParen)
    (step : (c.into s).step limits l = .ok (c.next.left.into t)) :
    Here limits lexemes origin outcome depth (tokens ++ [.closeParen]) predicates t
      c.next.left := by
  have depth_eq : c.next.left.depth = depth := Nat.sub_eq_of_eq_add here.depth_eq
  rw [← isClose]
  exact here.take found rfl rfl depth_eq (Nat.le_of_succ_le here.depth_le) here.deepest_le step

/-! ### Names that no parenthesis follows -/

theorem resume_congr {position : Nat}
    (step : ∀ l, lexemes[position]? = some l → s.step limits l = t.step limits l)
    (finish : lexemes[position]? = none → s.finish limits = t.finish limits) :
    resume limits lexemes s position = resume limits lexemes t position := by
  cases found : lexemes[position]? with
  | none => rw [resume_none found, resume_none found, finish found]
  | some l => rw [resume_some found, resume_some found, step l found]

theorem resume_settle {position : Nat}
    (notOpen : ∀ l, lexemes[position]? = some l → l.token ≠ .openParen) :
    resume limits lexemes s position = resume limits lexemes s.settle position := by
  have settled : s.settle.phase.settled = s.settle.phase := Parser.settled_settled s.phase
  refine resume_congr (fun l found => ?_) fun _ => finish_settle.symm
  rw [step_eq_advance (notOpen l found), step_of_settled settled]

/-! ### Operands -/

/-- Where the machine awaits an operand for a slot, the reader reads one, and the machine fills the
slot with it. -/
def ReadsOperand (limits : Limits) (lexemes : List Lexeme) (origin : Counters)
    (outcome : Except FilterError Expr) (depth : Nat) (reader : Reader Operand) : Prop :=
  ∀ ⦃tokens : List Token⦄ ⦃predicates : Nat⦄ ⦃slot : Slot⦄ ⦃s : State⦄ ⦃c : Counters⦄,
    Here limits lexemes origin outcome depth tokens predicates { s with phase := .operand slot } c →
    Ends (fun operand c' => Here limits lexemes origin outcome depth (tokens ++ operand.tokens)
        predicates { s with phase := slot.fill operand } c')
      (Stopped limits origin outcome) (reader c)

theorem operand_tokens_ne_nil (operand : Operand) : operand.tokens ≠ [] := by
  cases operand <;> simp [Operand.tokens]

section

variable {nested : Reader Operand} {call : OpenCall} {outer slot : Slot}

/-- The arguments of a call end before its parenthesis closes, or at what is neither a comma nor a
parenthesis. -/
theorem arguments_ends
    (reads : ReadsOperand limits lexemes origin outcome depth nested) (none : call.args = [])
    (here : Here limits lexemes origin outcome depth tokens predicates
      { s with phase := .firstArgument call outer } c) :
    Ends (fun args c' => Here limits lexemes origin outcome depth
        (tokens ++ separated (args.map Operand.tokens)) predicates
        { s with phase := .afterArgument { call with args := args } outer } c' ∧
        ∀ l, lexemes[c'.position]? = some l → l.token ≠ .comma)
      (Stopped limits origin outcome) (arguments lexemes nested c) := by
  unfold arguments
  refine check_ends (fun l found isClose => .ok ⟨?_, fun other same => ?_⟩) fun notClose => ?_
  -- At the end of the call it makes no difference whether an argument came before it.
  · rw [List.map_nil, separated_nil, List.append_nil, ← none]
    refine here.restate (resume_congr (fun other same => ?_) fun atEnd => ?_)
    · obtain rfl : l = other := Option.some.inj (found.symm.trans same)
      rw [step_of_settled rfl, step_of_settled rfl]
      simp only [State.advance, Counters.into, isClose, State.unnest]
    · rw [found] at atEnd
      cases atEnd
  · obtain rfl : l = other := Option.some.inj (found.symm.trans same)
    simp [isClose]
  · have due : Here limits lexemes origin outcome depth tokens predicates
        { s with phase := .operand (.argument call outer) } c := by
      refine here.restate (resume_congr (fun l found => ?_) fun _ => rfl)
      have notClose := notClose l found
      rw [step_of_settled rfl, step_of_settled rfl]
      simp only [State.advance, Counters.into]
    refine (reads due).bind fun first c' here => ?_
    let before (args : List Operand) : State :=
      { s with phase := .operand (.argument { call with args := args } outer) }
    let after (args : List Operand) : State :=
      { s with phase := .afterArgument { call with args := args } outer }
    have comma : ∀ (args : List Operand) (c : Counters) (l : Lexeme), args ≠ [] →
        l.token = .comma → (c.into (after args)).step limits l = .ok (c.into (before args)) := by
      intro args c l _ isComma
      exact step_goes rfl (.nextArgument isComma)
    have started : Here limits lexemes origin outcome depth (tokens ++ first.tokens) predicates
        (after [first]) c' := by
      simpa only [Slot.fill, none, List.nil_append] using here
    exact (behindFirst_ends Operand.tokens operand_tokens_ne_nil (fun here => reads here) comma
      started).mono fun args c' ended => ⟨ended.1.2, ended.2⟩

/-- A call whose name is read. -/
theorem callOf_ends {name : String}
    (reads : ReadsOperand limits lexemes origin outcome (depth + 1) nested)
    (here : Here limits lexemes origin outcome depth tokens predicates
      { s with phase := .name name slot } c)
    (found : lexemes[c.position]? = some l) (isOpen : l.token = .openParen) :
    Ends (fun operand c' => ∃ args, operand = .call name args ∧
        Here limits lexemes origin outcome depth
          (tokens ++ (.openParen :: separated (args.map Operand.tokens) ++ [.closeParen]))
          predicates { s with phase := slot.fill operand } c')
      (Stopped limits origin outcome) (callOf limits lexemes nested name c) := by
  unfold callOf
  refine open_ends here { s with phase := .firstArgument ⟨name, l.position, []⟩ slot }
    found isOpen (fun full => ?_) (fun room => ?_) fun c' here => ?_
  · rw [step_of_name rfl isOpen]
    exact Takes.advance_eq (.tooDeep (.inr ⟨name, slot, rfl⟩) isOpen full)
  · rw [step_of_name rfl isOpen]
    exact Takes.advance_eq (.openCall rfl isOpen room)
  refine (arguments_ends reads rfl here).bind fun args c' ended => ?_
  obtain ⟨here, notComma⟩ := ended
  refine (closing_ends here (fun l found notClose => ?_) rfl).bind ?_
  · have notComma := notComma l found
    refine step_misplaced rfl (by rintro ⟨⟩) ?_
    cases isToken : l.token <;> first | rfl | contradiction
  · rintro - - ⟨rfl, closing, found, isClose⟩
    have inside : 0 < c'.next.depth := here.depth_eq ▸ Nat.succ_pos depth
    rw [bind_of_ok (leave_of_pos inside)]
    refine .ok ⟨args, rfl, ?_⟩
    have takes := @Takes.closeCall limits
      (c'.into { s with phase := .afterArgument ⟨name, l.position, args⟩ slot }) closing _ _
      (.inr rfl) isClose
    have closed := here.close (t := { s with phase := slot.fill (.call name args) }) found isClose
      (step_of_takes rfl rfl takes)
    simpa only [List.append_assoc, List.cons_append, List.nil_append] using closed

theorem operandOf_ends (reads : ReadsOperand limits lexemes origin outcome (depth + 1) nested) :
    ReadsOperand limits lexemes origin outcome depth (operandOf limits lexemes nested) := by
  intro tokens predicates slot s c here
  unfold operandOf
  rw [peek_bind]
  generalize next_eq : lexemes[c.position]?.map Lexeme.token = token?
  split
  · rename_i name
    obtain ⟨l, found, isName⟩ := Option.map_eq_some_iff.mp next_eq
    have named := here.read (t := { s with phase := .name name slot }) found
      (step_goes rfl (.operand (.name isName)))
    rw [isName] at named
    rw [advance_bind found]
    refine check_ends (fun l found isOpen => ?_) fun notOpen =>
      .ok (named.restate (resume_settle notOpen))
    refine (callOf_ends reads named found isOpen).mono ?_
    rintro - c' ⟨args, rfl, later⟩
    rw [Operand.tokens_call]
    simpa only [List.append_assoc, List.cons_append, List.nil_append] using later
  · rename_i other
    refine Ends.bind (literal_ends here
        (fun value => { s with phase := slot.fill (.literal value) }) (fun l value isLiteral => ?_)
        (fun l found notLiteral => ?_) rfl) fun value c' later => .ok ?_
    · exact step_goes rfl (.operand (.literal isLiteral))
    · have notName : ∀ name, l.token ≠ .name name := fun name isName =>
        other name (by rw [← next_eq, found, Option.map_some, isName])
      refine step_misplaced rfl (by rintro ⟨⟩) ?_
      cases isToken : l.token with
      | name name => exact absurd isToken (notName name)
      | literal value => exact absurd isToken (notLiteral value)
      | _ => rfl
    · rw [Operand.tokens]
      exact later

/-- Induction on the levels that are left. At the last one no parenthesis may open. -/
theorem operandWithin_ends {levels : Nat} (left : limits.depth + 1 = depth + levels) :
    ReadsOperand limits lexemes origin outcome depth (operandWithin limits lexemes levels) := by
  induction levels generalizing depth with
  | zero =>
    intro tokens predicates slot s c here
    have := here.depth_le
    omega
  | succ levels ih => exact operandOf_ends (ih (by omega))

end

/-! ### Predicates -/

/-- The machine, in state `s` but for its phase, has read the expression as a term. -/
def Read (limits : Limits) (lexemes : List Lexeme) (origin : Counters)
    (outcome : Except FilterError Expr) (depth : Nat) (tokens : List Token) (predicates : Nat)
    (s : State) (expr : Expr) (c : Counters) : Prop :=
  ∃ used, Spells used expr ∧ Here limits lexemes origin outcome depth (tokens ++ used)
    (predicates + expr.predicates) { s with phase := .complete expr } c

section

variable {left : Operand} {start : Nat}

/-- A word that only a field may stand before. -/
theorem subject_ends {β : Type} (phase : String → Phase) {f : String → Reader β}
    {returned : β → Counters → Prop} (found : lexemes[c.position]? = some l)
    (asks : ∀ field, Asks l field (phase field))
    (here : Here limits lexemes origin outcome depth (tokens ++ left.tokens) predicates
      { s with phase := .operator left start } c)
    (next : ∀ field, Here limits lexemes origin outcome depth (tokens ++ [.name field, l.token])
      predicates { s with phase := phase field } c.next →
      Ends returned (Stopped limits origin outcome) (f field c.next)) :
    Ends returned (Stopped limits origin outcome)
      ((subject left start >>= fun field => advance lexemes >>= fun _ => f field) c) := by
  cases left with
  | field field =>
    have later := here.read (t := { s with phase := phase field }) found
      (step_goes rfl (.asks (asks field)))
    rw [Operand.tokens, List.append_assoc] at later
    change Ends returned _ ((advance lexemes >>= fun _ => f field) c)
    rw [advance_bind found]
    exact next field later
  | literal value =>
    exact .refused (here.stop found (step_of_takes rfl rfl (.asksLiteral rfl (asks ""))))
  | call name args =>
    exact .refused (here.stop found (step_of_takes rfl rfl (.asksCall rfl (asks ""))))

theorem value_ends {list : OpenList} {values : List Literal}
    (here : Here limits lexemes origin outcome depth tokens predicates
      { s with phase := .value list values } c) :
    Ends (fun value c' => Here limits lexemes origin outcome depth (tokens ++ [.literal value])
        predicates { s with phase := .afterValue list (values ++ [value]) } c')
      (Stopped limits origin outcome) (literal lexemes c) := by
  refine literal_ends here (fun value => { s with phase := .afterValue list (values ++ [value]) })
    (fun l value isLiteral => ?_) (fun l _ notLiteral => ?_) rfl
  · exact step_goes rfl (.value isLiteral)
  · refine step_misplaced rfl (by rintro ⟨⟩) ?_
    cases isToken : l.token with
    | literal value => exact absurd isToken (notLiteral value)
    | _ => rfl

theorem valueList_ends {field : String} {negated : Bool}
    (here : Here limits lexemes origin outcome depth tokens predicates
      { s with phase := .list field negated } c) :
    Ends (fun values c' => Here limits lexemes origin outcome depth (tokens ++ listTokens values)
      predicates { s with phase := .complete (.inList field negated values) } c')
      (Stopped limits origin outcome) (valueList lexemes c) := by
  unfold valueList
  refine (expect_ends here (fun l =>
    { s with phase := .firstValue ⟨field, negated, l.position⟩ }) (fun l isOpen => ?_)
    (fun l _ notOpen => ?_) rfl).bind ?_
  · exact step_goes rfl (.list isOpen)
  · refine step_misplaced rfl (by rintro ⟨⟩) ?_
    cases isToken : l.token <;> first | rfl | contradiction
  rintro - c ⟨opening, rfl, here⟩
  refine check_ends (fun l found isClose => ?_) fun notClose => ?_
  · have empty := @Takes.emptyList limits (c.into
      { s with phase := .firstValue ⟨field, negated, opening.position⟩ }) l _ rfl isClose
    exact .refused (here.stop found (step_of_takes rfl rfl empty))
  let list : OpenList := ⟨field, negated, opening.position⟩
  let before (values : List Literal) : State := { s with phase := .value list values }
  let after (values : List Literal) : State := { s with phase := .afterValue list values }
  have due : Here limits lexemes origin outcome depth (tokens ++ [.openParen]) predicates
      (before []) c := by
    refine here.restate (resume_congr (fun l found => ?_) fun _ => rfl)
    have notClose := notClose l found
    rw [step_of_settled rfl, step_of_settled rfl]
    simp only [State.advance, Counters.into, before, list]
  have comma : ∀ (values : List Literal) (c : Counters) (l : Lexeme), values ≠ [] →
      l.token = .comma → (c.into (after values)).step limits l = .ok (c.into (before values)) := by
    intro values c l _ isComma
    exact step_goes rfl (.nextValue isComma)
  refine (value_ends due).bind fun first c started => ?_
  refine (behindFirst_ends (fun value => [.literal value]) (by simp) value_ends comma
    started).bind ?_
  rintro values c ⟨⟨-, here⟩, notComma⟩
  refine (closing_ends here (fun l found notClose => ?_) rfl).bind ?_
  · have notComma := notComma l found
    refine step_misplaced rfl (by rintro ⟨⟩) ?_
    cases isToken : l.token <;> first | rfl | contradiction
  · rintro - - ⟨rfl, l, found, isClose⟩
    have later := here.read (t := { s with phase := .complete (.inList field negated values) })
      found (step_goes rfl (.closeList isClose))
    rw [isClose] at later
    refine .ok ?_
    simpa only [listTokens, List.append_assoc, List.cons_append, List.nil_append] using later

theorem nullWord_ends {field : String} {negated : Bool}
    (here : Here limits lexemes origin outcome depth tokens predicates
      { s with phase := .null field negated } c)
    (once : ∀ l, lexemes[c.position]? = some l → l.token = .not → negated = true) :
    Ends (fun expr c' => expr = .isNull field negated ∧
        Here limits lexemes origin outcome depth (tokens ++ [.null]) predicates
          { s with phase := .complete expr } c') (Stopped limits origin outcome)
      ((do let _ ← expect lexemes .null; return Expr.isNull field negated) c) := by
  refine (expect_ends here (fun _ => { s with phase := .complete (.isNull field negated) })
    (fun l isNull => ?_) (fun l found notNull => ?_) rfl).bind ?_
  · exact step_goes rfl (.null isNull)
  · refine step_misplaced rfl (by rintro ⟨⟩) ?_
    cases isToken : l.token with
    | null => contradiction
    | not =>
      rw [once l found isToken]
      rfl
    | _ => rfl
  · rintro - c' ⟨-, -, later⟩
    exact .ok ⟨rfl, later⟩

variable (found : lexemes[c.position]? = some l)
  (here : Here limits lexemes origin outcome depth (tokens ++ left.tokens) (predicates + 1)
    { s with phase := .operator left start } c)
include found here

theorem nullTest_ends (isWord : l.token = .is) :
    Ends (Read limits lexemes origin outcome depth tokens predicates s)
      (Stopped limits origin outcome)
      (nullTest lexemes left start c) := by
  unfold nullTest
  refine subject_ends (fun field => .null field false) found (fun _ => .is isWord) here
    fun field here => ?_
  rw [isWord] at here
  have spelled (negated : Bool) :
      Spells (.name field :: nullWords negated) (.isNull field negated) := .isNull field negated
  refine check_bind_ends (fun l found isNot => ?_) fun notNot => ?_
  · have negated := here.read (t := { s with phase := .null field true }) found
      (step_goes rfl (.notNull isNot))
    rw [isNot] at negated
    rw [if_pos rfl, advance_bind found]
    refine (nullWord_ends negated fun _ _ _ => rfl).mono ?_
    rintro - c' ⟨rfl, later⟩
    exact ⟨_, spelled true, by simpa [nullWords, Expr.predicates] using later⟩
  · refine (nullWord_ends here fun l found isNot => absurd isNot (notNot l found)).mono ?_
    rintro - c' ⟨rfl, later⟩
    exact ⟨_, spelled false, by simpa [nullWords, Expr.predicates] using later⟩

theorem membership_ends {negated : Bool} (plainOrSymbol : MembershipWords negated [l.token]) :
    Ends (Read limits lexemes origin outcome depth tokens predicates s)
      (Stopped limits origin outcome)
      (membership lexemes left start negated c) := by
  unfold membership
  have asks (field : String) : Asks l field (.list field negated) := by
    generalize word_eq : [l.token] = word at plainOrSymbol
    cases plainOrSymbol with
    | plain => exact .isIn (List.cons.inj word_eq).1
    | symbol => exact .notIn (List.cons.inj word_eq).1
    | words => simp at word_eq
  refine subject_ends _ found asks here fun field here => (valueList_ends here).bind ?_
  intro values c' later
  refine .ok ⟨_, .inList field plainOrSymbol values, ?_⟩
  simpa only [Expr.predicates, List.append_assoc, List.cons_append, List.nil_append] using later

theorem negatedMembership_ends (isWord : l.token = .not) :
    Ends (Read limits lexemes origin outcome depth tokens predicates s)
      (Stopped limits origin outcome)
      (negatedMembership lexemes left start c) := by
  unfold negatedMembership
  refine subject_ends .inWord found (fun _ => .not isWord) here fun field here => ?_
  rw [isWord] at here
  refine (expect_ends here (fun _ => { s with phase := .list field true })
    (fun l isIn => ?_) (fun l _ notIn => ?_) rfl).bind ?_
  · exact step_goes rfl (.inWord isIn)
  · refine step_misplaced rfl (by rintro ⟨⟩) ?_
    cases isToken : l.token <;> first | rfl | contradiction
  · rintro - c' ⟨-, -, here⟩
    refine (valueList_ends here).bind fun values c' later => ?_
    refine .ok ⟨_, .inList field .words values, ?_⟩
    simpa only [Expr.predicates, List.append_assoc, List.cons_append, List.nil_append] using later

end

theorem behindSubject_ends {operand : Reader Operand} {left : Operand} {start : Nat}
    (reads : ReadsOperand limits lexemes origin outcome depth operand)
    (here : Here limits lexemes origin outcome depth (tokens ++ left.tokens) (predicates + 1)
      { s with phase := .operator left start } c) :
    Ends (Read limits lexemes origin outcome depth tokens predicates s)
      (Stopped limits origin outcome)
      (behindSubject lexemes operand left start c) := by
  unfold behindSubject
  rw [peek_bind]
  generalize next_eq : lexemes[c.position]?.map Lexeme.token = token?
  split
  · rename_i op
    obtain ⟨l, found, isWord⟩ := Option.map_eq_some_iff.mp next_eq
    have due := here.read (t := { s with phase := .operand (.right left op) }) found
      (step_goes rfl (.comparison isWord))
    rw [advance_bind found]
    refine (reads due).bind fun right c' later => ?_
    refine .ok ⟨_, .comparison left op right, ?_⟩
    simpa only [isWord, Expr.predicates, Slot.fill, List.append_assoc, List.cons_append,
      List.nil_append] using later
  · obtain ⟨l, found, isWord⟩ := Option.map_eq_some_iff.mp next_eq
    exact nullTest_ends found here isWord
  · obtain ⟨l, found, isWord⟩ := Option.map_eq_some_iff.mp next_eq
    exact membership_ends found here (isWord ▸ .plain)
  · obtain ⟨l, found, isWord⟩ := Option.map_eq_some_iff.mp next_eq
    exact negatedMembership_ends found here isWord
  · obtain ⟨l, found, isWord⟩ := Option.map_eq_some_iff.mp next_eq
    exact membership_ends found here (isWord ▸ .symbol)
  · refine unexpected_ends here (fun l found => ?_) fun _ => rfl
    rw [found, Option.map_some] at next_eq
    subst next_eq
    refine step_misplaced rfl (by rintro ⟨⟩) ?_
    cases isToken : l.token <;> first | rfl | simp_all

def Counters.counted (c : Counters) : Counters := { c with terms := c.terms + 1 }

/-- The machine counts a predicate and starts its left side with one lexeme. -/
theorem Here.count (here : Here limits lexemes origin outcome depth tokens predicates
      { s with phase := .term } c)
    (notOpen : ∀ l, lexemes[c.position]? = some l → l.token ≠ .openParen)
    (room : c.terms + 1 ≤ limits.terms) :
    Here limits lexemes origin outcome depth tokens (predicates + 1)
      { s with phase := .operand (.left ((lexemes[c.position]?.map Lexeme.position).getD 0)) }
      c.counted where
  drop_eq := here.drop_eq
  position_eq := here.position_eq
  depth_eq := here.depth_eq
  depth_le := here.depth_le
  terms_eq := congrArg (· + 1) here.terms_eq
  terms_le := room
  deepest_le := here.deepest_le
  outcome_eq := by
    have counts : ¬ c.terms + 1 > limits.terms := Nat.not_lt.mpr room
    rw [here.outcome_eq]
    refine resume_congr (fun l found => ?_) fun _ => ?_
    · have notOpen := notOpen l found
      rw [step_of_settled rfl, step_of_settled rfl, found, Option.map_some, Option.getD_some]
      simp only [State.advance, Counters.into, State.countPredicate, counts, ↓reduceIte]
      cases Parser.startOperand (.left l.position) l <;> rfl
    · simp only [State.finish, Counters.into, State.countPredicate, counts, ↓reduceIte,
        Phase.settled]
      rfl

theorem Here.too_many (here : Here limits lexemes origin outcome depth tokens predicates
      { s with phase := .term } c)
    (notOpen : ∀ l, lexemes[c.position]? = some l → l.token ≠ .openParen)
    (full : c.terms + 1 > limits.terms) :
    Stopped limits origin outcome (.tooManyTerms limits.terms) c := by
  cases found : lexemes[c.position]? with
  | none =>
    refine here.stop_end found ?_
    simp only [State.finish, Counters.into, State.countPredicate, full, ↓reduceIte, Phase.settled,
      Except.bind]
  | some l =>
    exact here.stop found (step_of_takes rfl rfl (.tooMany rfl (notOpen l found) full))

theorem predicateOf_ends {operand : Reader Operand}
    (reads : ReadsOperand limits lexemes origin outcome depth operand)
    (here : Here limits lexemes origin outcome depth tokens predicates { s with phase := .term } c)
    (notOpen : ∀ l, lexemes[c.position]? = some l → l.token ≠ .openParen) :
    Ends (Read limits lexemes origin outcome depth tokens predicates s)
      (Stopped limits origin outcome) (predicateOf limits lexemes operand c) := by
  unfold predicateOf
  by_cases room : c.terms + 1 ≤ limits.terms
  · have counted : countTerm limits c = .ok () c.counted := if_neg (Nat.not_lt.mpr room)
    rw [bind_of_ok counted, peek_bind]
    exact (reads (here.count notOpen room)).bind fun left c' later => behindSubject_ends reads later
  · have full : c.terms + 1 > limits.terms := Nat.lt_of_not_le room
    have refused : countTerm limits c = .error (.refused (.tooManyTerms limits.terms)) c.counted :=
      if_pos full
    rw [bind_of_error refused]
    exact .refused ⟨(here.too_many notOpen full).outcome_eq, here.deepest_le⟩

/-! ### Groups and terms -/

/-- Where the machine awaits a term behind a chain that is ready, the reader reads an expression,
and none of the separators follows it. -/
def ReadsExpr (limits : Limits) (lexemes : List Lexeme) (origin : Counters)
    (outcome : Except FilterError Expr) (depth : Nat) (ready : Chain → Prop)
    (separators : List Token) (reader : Reader Expr) : Prop :=
  ∀ ⦃tokens : List Token⦄ ⦃predicates : Nat⦄ ⦃s : State⦄ ⦃c : Counters⦄, ready s.chain →
    Here limits lexemes origin outcome depth tokens predicates { s with phase := .term } c →
    Ends (fun expr c' => Read limits lexemes origin outcome depth tokens predicates s expr c' ∧
      ∀ l, lexemes[c'.position]? = some l → l.token ∉ separators) (Stopped limits origin outcome)
      (reader c)

theorem groupOf_ends {inner : Reader Expr}
    (reads : ReadsExpr limits lexemes origin outcome (depth + 1) (· = .empty) [.or, .and] inner)
    (here : Here limits lexemes origin outcome depth tokens predicates { s with phase := .term } c)
    (found : lexemes[c.position]? = some l) (isOpen : l.token = .openParen) :
    Ends (Read limits lexemes origin outcome depth tokens predicates s)
      (Stopped limits origin outcome) (groupOf limits lexemes inner c) := by
  unfold groupOf
  let opened : State := { s with groups := ⟨s.chain, l.position⟩ :: s.groups, chain := .empty }
  refine open_ends here { opened with phase := .term } found isOpen
    (fun full => step_of_takes rfl rfl (.tooDeep (.inl rfl) isOpen full))
    (fun room => step_of_takes rfl rfl (.openGroup rfl isOpen room)) fun c' here => ?_
  refine (reads rfl here).bind ?_
  rintro expr c ⟨⟨used, spelled, here⟩, last⟩
  -- The descent leaves the level in front of the parenthesis and the machine with it, so that they
  -- agree again only when it is read.
  have inside : 0 < c.depth := here.depth_eq ▸ Nat.succ_pos depth
  rw [bind_of_ok (leave_of_pos inside)]
  refine check_ends (c := c.left) (fun l found isClose => ?_) fun notClose => ?_
  · rw [advance_bind found]
    have takes := @Takes.closeGroup limits (c.into { opened with phase := .complete expr }) _ _ _ _
      rfl isClose rfl
    have later := here.close (t := { s with phase := .complete (.group expr) }) found isClose
      (step_of_takes rfl rfl takes)
    have read : tokens ++ [.openParen] ++ used ++ [.closeParen] =
        tokens ++ (.openParen :: used ++ [.closeParen]) := by
      simp only [List.append_assoc, List.cons_append, List.nil_append]
    rw [read] at later
    exact .ok ⟨_, .group spelled, later⟩
  · rw [peek_bind]
    cases found : lexemes[c.left.position]? with
    | none =>
      have stopped := here.stop_end (e := .unclosedParenthesis l.position) found (by
        simp only [State.finish, Counters.into, Phase.settled, opened])
      exact .refused ⟨stopped.outcome_eq, stopped.deepest_le⟩
    | some l =>
      have stopped := here.stop (e := misplaced l) found (by
        have notClose := notClose l found
        have last := last l found
        refine step_misplaced rfl (by rintro ⟨⟩) ?_
        cases isToken : l.token <;> first | rfl | simp_all)
      dsimp only
      rw [unexpected_some found]
      exact .refused ⟨stopped.outcome_eq, stopped.deepest_le⟩

theorem termOf_ends {operand : Reader Operand} {inner : Reader Expr}
    (readsOperand : ReadsOperand limits lexemes origin outcome depth operand)
    (readsInner :
      ReadsExpr limits lexemes origin outcome (depth + 1) (· = .empty) [.or, .and] inner) :
    ReadsExpr limits lexemes origin outcome depth (fun _ => True) []
      (termOf limits lexemes operand inner) := by
  intro tokens predicates s c _ here
  unfold termOf
  have ends : Ends (Read limits lexemes origin outcome depth tokens predicates s)
      (Stopped limits origin outcome) ((do
        if ← check lexemes .openParen then groupOf limits lexemes inner
        else predicateOf limits lexemes operand) c) := check_ends
    (fun l found isOpen => groupOf_ends readsInner here found isOpen)
    fun notOpen => predicateOf_ends readsOperand here notOpen
  exact ends.mono fun expr c' read => ⟨read, fun _ _ => List.not_mem_nil⟩

/-! ### Chains -/

/-- The machine goes on in the same way if the chain comes to the same, and also before another
`and` where one follows. -/
theorem resume_complete (other : Chain) {chain : Chain} {expr term : Expr} {position : Nat}
    (close : chain.close expr = other.close term)
    (followed : ∀ l, lexemes[position]? = some l → l.token = .and →
      chain.followedByAnd expr = other.followedByAnd term) :
    resume limits lexemes { s with chain := chain, phase := .complete expr } position =
      resume limits lexemes { s with chain := other, phase := .complete term } position := by
  refine resume_congr (fun l found => ?_) fun _ => ?_
  · have followed := followed l found
    rw [step_of_settled rfl, step_of_settled rfl]
    simp only [State.advance, State.afterTerm, State.unnest, Chain.followedByOr, close]
    split
    · rename_i isAnd
      rw [followed isAnd]
    all_goals rfl
  · simp only [State.finish, Phase.settled, close]

/-- Terms or conjunctions in a row. The machine keeps those before the last separator in its chain,
where they come to the same as joined to the item behind it. -/
theorem joined_ends (around : Chain → Expr → Chain) {item : Reader Expr} {separator : Token}
    {join : Expr → Expr → Expr} {ready itemReady : Chain → Prop} {separators : List Token}
    (reads : ReadsExpr limits lexemes origin outcome depth itemReady separators item)
    (spells : ∀ {first second : List Token} {left right : Expr}, Spells first left →
      Spells second right → Spells (first ++ separator :: second) (join left right))
    (counts : ∀ left right, (join left right).predicates = left.predicates + right.predicates)
    (first : ∀ chain, ready chain → itemReady chain)
    (later : ∀ chain expr, ready chain → itemReady (around chain expr))
    (step : ∀ (s : State) (expr : Expr) (l : Lexeme), l.token = separator →
      Takes limits { s with phase := .complete expr } l
        (.ok { s with chain := around s.chain expr, phase := .term }))
    (folds : ∀ (s : State) (left right : Expr) (position : Nat), ready s.chain →
      (∀ l, lexemes[position]? = some l → l.token ∉ separators) →
      resume limits lexemes { s with chain := around s.chain left, phase := .complete right }
        position =
      resume limits lexemes { s with phase := .complete (join left right) } position) :
    ReadsExpr limits lexemes origin outcome depth ready (separator :: separators)
      (do let first ← item; behindFirst lexemes separator item join first) := by
  intro tokens predicates s c isReady here
  refine (reads (first s.chain isReady) here).bind fun expr c started => ?_
  -- Before each round the machine stands behind a single term, with the chain that it had at the
  -- start.
  refine (loop_ends (fun joined c =>
    Read limits lexemes origin outcome depth tokens predicates s joined c ∧
      ∀ l, lexemes[c.position]? = some l → l.token ∉ separators) ?_ (by omega) started).mono ?_
  · rintro left c l ⟨⟨used, spelledLeft, here⟩, -⟩ found isSeparator
    have due := here.read
      (t := { s with chain := around s.chain left, phase := .term }) found
      (step_of_takes rfl rfl (step (c.into s) left l isSeparator))
    rw [isSeparator] at due
    refine (reads (s := { s with chain := around s.chain left }) (later s.chain left isReady)
      due).mono ?_
    rintro right c' ⟨⟨more, spelledRight, here⟩, last⟩
    have progress := due.further here (spells_ne_nil spelledRight)
    refine ⟨⟨⟨_, spells spelledLeft spelledRight, ?_⟩, last⟩, Nat.lt_of_succ_lt progress⟩
    rw [counts, ← Nat.add_assoc, List.append_cons, ← List.append_assoc, ← List.append_assoc]
    exact here.restate (folds (c'.into s) left right c'.position isReady last)
  · rintro joined c ⟨⟨read, last⟩, separated⟩
    refine ⟨read, fun l found member => ?_⟩
    rcases List.mem_cons.mp member with isSeparator | member
    · exact separated l found isSeparator
    · exact last l found member

theorem conjunctionOf_ends {term : Reader Expr}
    (reads : ReadsExpr limits lexemes origin outcome depth (fun _ => True) [] term) :
    ReadsExpr limits lexemes origin outcome depth (fun chain => chain.conjunction = none) [.and]
      (conjunctionOf lexemes term) := by
  refine joined_ends Chain.followedByAnd reads .and (fun _ _ => rfl)
    (fun _ _ => trivial) (fun _ _ _ => trivial) (fun s expr l isAnd => .and rfl isAnd)
    fun s left right position ready _ => ?_
  have conjunct : (s.chain.followedByAnd left).conjunct right =
      s.chain.conjunct (.and left right) := by
    simp only [Chain.followedByAnd, Chain.conjunct, ready]
  refine resume_complete s.chain ?_ fun _ _ _ => ?_
  · rw [Chain.close, Chain.close, conjunct]
    rfl
  · rw [Chain.followedByAnd, conjunct]
    rfl

theorem disjunctionOf_ends {conjunction : Reader Expr}
    (reads : ReadsExpr limits lexemes origin outcome depth (fun chain => chain.conjunction = none)
      [.and] conjunction) :
    ReadsExpr limits lexemes origin outcome depth (· = .empty) [.or, .and]
      (disjunctionOf lexemes conjunction) := by
  refine joined_ends Chain.followedByOr reads .or (fun _ _ => rfl) ?_
    (fun _ _ _ => rfl) (fun s expr l isOr => .or rfl isOr)
    fun s left right position ready last => ?_
  · rintro _ rfl
    rfl
  · refine resume_complete s.chain ?_ fun l found isAnd => ?_
    · rw [ready]
      rfl
    · exact absurd (isAnd ▸ List.mem_singleton_self _) (last l found)

/-- Induction on the levels that are left, as for operands. -/
theorem expressionWithin_ends {levels : Nat} (left : limits.depth + 1 = depth + levels) :
    ReadsExpr limits lexemes origin outcome depth (· = .empty) [.or, .and]
      (expressionWithin limits lexemes levels) := by
  induction levels generalizing depth with
  | zero =>
    intro tokens predicates s c _ here
    have := here.depth_le
    omega
  | succ levels ih =>
    exact disjunctionOf_ends (conjunctionOf_ends
      (termOf_ends (operandWithin_ends left) (ih (by omega))))

/-! ### The parser -/

/-- Both parsers may start at any counters within the limits. -/
theorem Here.start (lexemes : List Lexeme) (s : State) (fits : c.depth ≤ limits.depth)
    (room : c.terms ≤ limits.terms) :
    Here limits lexemes c (resume limits lexemes (c.into s) c.position) c.depth [] 0 s
      c where
  drop_eq := rfl
  position_eq := rfl
  depth_eq := rfl
  depth_le := fits
  terms_eq := rfl
  terms_le := room
  deepest_le := Nat.le_max_left ..
  outcome_eq := rfl

/-- The descent comes to the answer of the parser that reads one lexeme at a time. -/
theorem parse_ends (limits : Limits) (lexemes : List Lexeme) :
    Ends (fun expr c => parseLexemes limits lexemes = .ok expr ∧ c.deepest ≤ limits.depth + 1)
      (fun e c => parseLexemes limits lexemes = .error e ∧ c.deepest ≤ limits.depth + 1)
      (parse limits lexemes .initial) := by
  have deepest (c : Counters)
      (bound : c.deepest ≤ max Counters.initial.deepest (limits.depth + 1)) :
      c.deepest ≤ limits.depth + 1 :=
    Nat.le_trans bound (Nat.max_le.mpr ⟨Nat.zero_le _, Nat.le_refl _⟩)
  have ends : Ends
      (fun expr c => parseLexemes limits lexemes = .ok expr ∧ c.deepest ≤ limits.depth + 1)
      (Stopped limits .initial (parseLexemes limits lexemes)) (parse limits lexemes .initial) := by
    unfold parse
    by_cases empty : lexemes = []
    · rw [if_pos empty]
      exact .refused ⟨by rw [parseLexemes, if_pos empty], Nat.le_max_left ..⟩
    · have outcome_eq : parseLexemes limits lexemes =
          resume limits lexemes (Counters.initial.into .initial) Counters.initial.position := by
        rw [parseLexemes, if_neg empty]
        rfl
      rw [if_neg empty, outcome_eq]
      have fits : Counters.initial.depth ≤ limits.depth := Nat.zero_le _
      refine (expressionWithin_ends (Counters.levels_eq fits) (s := .initial) rfl
        (Here.start lexemes .initial fits (Nat.zero_le _))).bind ?_
      rintro expr c ⟨⟨used, spelled, here⟩, last⟩
      rw [peek_bind]
      cases found : lexemes[c.position]? with
      | none =>
        refine .ok ⟨?_, deepest c here.deepest_le⟩
        rw [here.outcome_eq, resume_none found]
        rfl
      | some l =>
        have last := last l found
        refine .refused (here.stop found ?_)
        by_cases isClose : l.token = .closeParen
        · exact step_of_takes rfl rfl (.unopened rfl isClose rfl)
        · refine step_misplaced rfl (by rintro ⟨⟩) ?_
          cases isToken : l.token <;> first | rfl | simp_all
  exact ends.mono_refused fun e c stopped =>
    ⟨stopped.outcome_eq, deepest c stopped.deepest_le⟩

end QueryFilter.Descent
