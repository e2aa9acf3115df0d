import QueryFilter.Proofs.Parsing.Consumed

/-!
# The lexemes that are quoted

A state keeps where the left side of its term starts, and a word that asks for a field there may
find a literal or a call instead. So a quoted error is about the lexeme that was read last, or about
the one that started the term: `parseLexemes_quotes`.
-/

namespace QueryFilter

/-- A term may start behind the token. -/
def Token.leadsTerm : Token → Bool
  | .and | .or | .openParen => true
  | _ => false

/-- The token says something about a field in front of it. -/
def Token.asksField : Token → Bool
  | .is | .isIn | .notIn | .not => true
  | _ => false

/-- Nothing but a term may start behind the lexemes, or the first item of a call or a list. -/
def TermMayStart (ls : List Lexeme) : Prop := ∀ last ∈ ls.getLast?, last.token.leadsTerm

theorem termMayStart_concat {ls : List Lexeme} {l : Lexeme} :
    TermMayStart (ls ++ [l]) ↔ l.token.leadsTerm := by
  simp [TermMayStart]

/-- The lexeme between the others is a literal with which a term starts, and the word behind it asks
for a field. -/
structure LiteralSubject (before : List Lexeme) (l : Lexeme) (after : List Lexeme)
    (value : Literal) : Prop where
  isLiteral : l.token = .literal value
  starts : TermMayStart before
  asked : ∃ next ∈ after.head?, next.token.asksField

/-- What an error says of the lexeme between the others: its text, or its name, or the text of its
value. -/
inductive Quotes (before : List Lexeme) (l : Lexeme) (after : List Lexeme) : String → Prop where
  | text (noSubject : ∀ value, ¬ LiteralSubject before l after value) :
    Quotes before l after l.text
  | name {name : String} (isName : l.token = .name name) : Quotes before l after name
  | value {value : Literal} (subject : LiteralSubject before l after value) :
    Quotes before l after value.text

/-- The token with which an operand starts. -/
def Operand.head : Operand → Token
  | .field name => .name name
  | .literal value => .literal value
  | .call name _ => .name name

namespace Parser

variable {limits : Limits} {s t : State} {l : Lexeme} {ls more : List Lexeme}

/-! ### The left side of a term -/

/-- Where the outermost call on a left side starts, and its name. -/
def Slot.leftCall? : Slot → Option (Nat × Token)
  | .argument call (.left position) => some (position, .name call.name)
  | .argument _ outer => outer.leftCall?
  | _ => none

/-- Where a left side starts and with which token, if an operand that starts with `token` fills the
slot. -/
def Slot.leftSide? (token : Token) : Slot → Option (Nat × Token)
  | .left position => some (position, token)
  | slot => slot.leftCall?

/-- Where the left side of a term starts and with which token, until its operator is read. -/
def Phase.leftSide? : Phase → Option (Nat × Token)
  | .operand slot => slot.leftCall?
  | .name text slot => slot.leftSide? (.name text)
  | .firstArgument call outer | .afterArgument call outer => outer.leftSide? (.name call.name)
  | .operator left position => some (position, left.head)
  | _ => none

/-- A literal may come next, and nothing came before in the term, the call or the list. -/
def Phase.opens : Phase → Bool
  | .term | .firstArgument .. | .firstValue .. => true
  | _ => false

theorem leftCall_argument (call : OpenCall) (outer : Slot) :
    (Slot.argument call outer).leftCall? = outer.leftSide? (.name call.name) := by
  cases outer <;> rfl

theorem leftCall_noLiteral {slot : Slot} {side : Nat × Token} (isSide : side ∈ slot.leftCall?)
    (value : Literal) : side.2 ≠ .literal value := by
  induction slot with
  | left | right => cases isSide
  | argument call outer ih =>
    cases outer with
    | left position =>
      cases isSide
      simp
    | right | argument => exact ih isSide

theorem leftSide_noLiteral {slot : Slot} {name : String} {side : Nat × Token}
    (isSide : side ∈ slot.leftSide? (.name name)) (value : Literal) : side.2 ≠ .literal value := by
  rw [← leftCall_argument ⟨name, 0, []⟩ slot] at isSide
  exact leftCall_noLiteral isSide value

section

variable (slot : Slot) (operand : Operand)

theorem leftSide_fill : (slot.fill operand).leftSide? = slot.leftSide? operand.head := by
  cases slot with
  | left | right => rfl
  | argument call outer => exact (leftCall_argument call outer).symm

theorem opens_fill : (slot.fill operand).opens = false := by
  cases slot <;> rfl

theorem fill_ne_operand (other : Slot) : slot.fill operand ≠ .operand other := by
  cases slot <;> simp [Slot.fill]

end

theorem leftSide_settled (phase : Phase) : phase.settled.leftSide? = phase.leftSide? := by
  cases phase with
  | name text slot => exact leftSide_fill slot (.field text)
  | _ => rfl

theorem opens_settled (phase : Phase) : phase.settled.opens = phase.opens := by
  cases phase with
  | name text slot => exact opens_fill slot (.field text)
  | _ => rfl

/-- Only a name settles, and never as the start of a term. -/
theorem eq_term_of_settled {phase : Phase} (due : phase.settled = .term) : phase = .term := by
  cases phase with
  | name text slot => cases slot <;> cases due
  | _ => exact due

theorem settled_ne_operand {phase : Phase} {slot : Slot} (other : phase ≠ .operand slot) :
    phase.settled ≠ .operand slot := by
  cases phase with
  | name text outer => exact fill_ne_operand outer (.field text) slot
  | _ => exact other

/-! ### Steps -/

/-- What reading a lexeme can lead to: the left side starts with it or is kept, or an error quotes
the lexeme or what the left side starts with. -/
inductive Tracks (s : State) (l : Lexeme) : Except FilterError State → Prop where
  | ok {t : State} (opens : t.phase.opens = l.token.leadsTerm)
    (operand : ∀ position, t.phase ≠ .operand (.left position))
    (side : ∀ side ∈ t.phase.leftSide?, s.phase = .term ∧ side = (l.position, l.token) ∨
      side ∈ s.phase.leftSide? ∧ ∀ value, side.2 ≠ .literal value) : Tracks s l (.ok t)
  | misplaced (noLiteral : s.phase.opens → ∀ value, l.token ≠ .literal value) :
    Tracks s l (.error (misplaced l))
  | value {value : Literal} {p : Nat} (side : (p, .literal value) ∈ s.phase.leftSide?)
    (asks : l.token.asksField) : Tracks s l (.error (.unexpectedToken value.text p))
  | name {name : String} {p : Nat} (side : (p, .name name) ∈ s.phase.leftSide?) :
    Tracks s l (.error (.unexpectedToken name p))
  | unquoted {e : FilterError} (unquoted : ∀ text p, e ≠ .unexpectedToken text p) :
    Tracks s l (.error e)

/-- No term is on its left side behind the lexeme. -/
theorem tracks_none (opens : t.phase.opens = l.token.leadsTerm) (none : t.phase.leftSide? = none)
    (operand : ∀ position, t.phase ≠ .operand (.left position)) : Tracks s l (.ok t) := by
  refine .ok opens operand ?_
  rw [none]
  simp

/-- The left side goes on, behind a name. -/
theorem tracks_kept (opens : t.phase.opens = l.token.leadsTerm) {slot : Slot} {name : String}
    (after : t.phase.leftSide? = slot.leftSide? (.name name))
    (before : s.phase.leftSide? = slot.leftSide? (.name name))
    (operand : ∀ position, t.phase ≠ .operand (.left position)) : Tracks s l (.ok t) := by
  refine .ok opens operand ?_
  rw [after, before]
  exact fun side isSide => .inr ⟨isSide, leftSide_noLiteral isSide⟩

/-- An operand starts, as the left side or inside it. -/
theorem begins_tracks {slot : Slot} {next : Phase} (begins : slot.Begins l next)
    (side : ∀ side ∈ slot.leftSide? l.token, s.phase = .term ∧ side = (l.position, l.token) ∨
      side ∈ s.phase.leftSide? ∧ ∀ value, side.2 ≠ .literal value) :
    Tracks s l (.ok { t with phase := next }) := by
  cases begins with
  | name isName =>
    refine .ok (by rw [isName]; rfl) (by simp) ?_
    rw [Phase.leftSide?, ← isName]
    exact side
  | literal isLiteral =>
    refine .ok ?_ (fun position => fill_ne_operand _ _ _) ?_
    · rw [isLiteral, opens_fill]
      rfl
    · rw [leftSide_fill, Operand.head, ← isLiteral]
      exact side

theorem argument_tracks {call : OpenCall} {outer : Slot} {next : Phase}
    (begins : (Slot.argument call outer).Begins l next)
    (before : s.phase.leftSide? = outer.leftSide? (.name call.name)) :
    Tracks s l (.ok { s with phase := next }) := by
  refine begins_tracks begins fun side isSide => ?_
  replace isSide : side ∈ (Slot.argument call outer).leftCall? := isSide
  rw [leftCall_argument] at isSide
  exact .inr ⟨before ▸ isSide, leftSide_noLiteral isSide⟩

theorem asks_asksField {field : String} {next : Phase} (asks : Asks l field next) :
    l.token.asksField := by
  cases asks with
  | is isWord | isIn isWord | notIn isWord | not isWord =>
    rw [isWord]
    rfl

theorem asks_tracks {field : String} {next : Phase} (asks : Asks l field next) :
    Tracks s l (.ok { t with phase := next }) := by
  cases asks with
  | is isWord | isIn isWord | notIn isWord | not isWord =>
    exact tracks_none (by rw [isWord]; rfl) rfl (by simp)

theorem goes_tracks {current next : Phase} (due : s.phase = current)
    (operand : ∀ position, s.phase ≠ .operand (.left position)) (goes : current.Goes l next) :
    Tracks s l (.ok { s with phase := next }) := by
  cases goes with
  | @operand slot _ begins =>
    cases slot with
    | left position => exact absurd due (operand position)
    | right left op => exact begins_tracks begins (by simp [Slot.leftSide?, Slot.leftCall?])
    | argument call outer =>
      exact argument_tracks begins (by rw [due]; exact leftCall_argument call outer)
  | firstArgument begins => exact argument_tracks begins (by rw [due]; rfl)
  | @nextArgument call outer isComma =>
    exact tracks_kept (by rw [isComma]; rfl) (leftCall_argument call outer) (by rw [due]; rfl)
      (by simp)
  | asks asks => exact asks_tracks asks
  -- The left side is over.
  | comparison isToken | null isToken | notNull isToken | inWord isToken | list isToken
  | firstValue isToken | value isToken | nextValue isToken | closeList isToken =>
    exact tracks_none (by rw [isToken]; rfl) rfl (by simp)

theorem unexpected_noLiteral {phase : Phase} {token : Token}
    (unexpected : phase.expects token = false) (opens : phase.opens) (value : Literal) :
    token ≠ .literal value := by
  rintro rfl
  cases phase with
  | term | firstArgument | firstValue => cases unexpected
  | _ => cases opens

theorem advance_tracks (s : State) (l : Lexeme)
    (operand : ∀ position, s.phase ≠ .operand (.left position)) :
    Tracks s l (s.advance limits l) := by
  have takes : Takes limits s l (s.advance limits l) := advance_takes limits s l
  generalize s.advance limits l = outcome at takes
  cases takes with
  | goes due goes => exact goes_tracks due operand goes
  | predicate due _ begins =>
    refine begins_tracks (t := { s with terms := s.terms + 1 }) begins ?_
    rintro side ⟨⟩
    exact .inl ⟨due, rfl⟩
  | openCall due isOpen => exact tracks_kept (by rw [isOpen]; rfl) rfl (by rw [due]; rfl) (by simp)
  | @closeCall call outer due isClose =>
    have before : s.phase.leftSide? = outer.leftSide? (.name call.name) := by
      rcases due with due | due <;> rw [due] <;> rfl
    refine tracks_kept ?_ (leftSide_fill _ _) before fun position => fill_ne_operand _ _ _
    dsimp only
    rw [isClose, opens_fill]
    rfl
  | openGroup _ isToken | and _ isToken | or _ isToken | closeGroup _ isToken =>
    exact tracks_none (by rw [isToken]; rfl) rfl (by simp)
  | misplaced unexpected => exact .misplaced (unexpected_noLiteral unexpected)
  | unopened due => exact .misplaced (by simp [due, Phase.opens])
  | asksLiteral due asks => exact .value (by rw [due]; rfl) (asks_asksField asks)
  | asksCall due => exact .name (by rw [due]; rfl)
  | tooDeep | tooMany | emptyList => exact .unquoted (by simp)

theorem step_tracks (s : State) (l : Lexeme)
    (operand : ∀ position, s.phase ≠ .operand (.left position)) :
    Tracks s l (s.step limits l) := by
  unfold State.step
  split
  · exact advance_tracks s l operand
  · have settled : Tracks s.settle l (s.settle.advance limits l) :=
      advance_tracks s.settle l fun position => settled_ne_operand (operand position)
    change Tracks s l (s.settle.advance limits l)
    have side : s.settle.phase.leftSide? = s.phase.leftSide? := leftSide_settled s.phase
    have opens : s.settle.phase.opens = s.phase.opens := opens_settled s.phase
    generalize s.settle.advance limits l = outcome at settled
    cases settled with
    | ok opensNext operandNext sideNext =>
      refine .ok opensNext operandNext fun next isSide => ?_
      rcases sideNext next isSide with ⟨due, same⟩ | ⟨isSide, noLiteral⟩
      · exact .inl ⟨eq_term_of_settled due, same⟩
      · exact .inr ⟨side ▸ isSide, noLiteral⟩
    | misplaced noLiteral => exact .misplaced (opens ▸ noLiteral)
    | value isSide asks => exact .value (side ▸ isSide) asks
    | name isSide => exact .name (side ▸ isSide)
    | unquoted unquoted => exact .unquoted unquoted

/-! ### Runs -/

/-- What the state keeps of the left side is a lexeme with which a term starts. A literal there is
the last that was read. -/
structure State.Begun (ls : List Lexeme) (s : State) : Prop where
  opens : s.phase.opens ↔ TermMayStart ls
  operand : ∀ position, s.phase ≠ .operand (.left position)
  side : ∀ side ∈ s.phase.leftSide?, ∃ before l more, ls = before ++ l :: more ∧
    TermMayStart before ∧ side = (l.position, l.token) ∧
    ∀ value, l.token = .literal value → more = []

theorem initial_begun : State.Begun [] State.initial where
  opens := by simp [State.initial, Phase.opens, TermMayStart]
  operand := by simp [State.initial]
  side := by simp [State.initial, Phase.leftSide?]

theorem step_begun (begun : s.Begun ls) (step : s.step limits l = .ok t) :
    t.Begun (ls ++ [l]) := by
  have tracks : Tracks s l (s.step limits l) := step_tracks s l begun.operand
  rw [step] at tracks
  cases tracks with
  | ok opens operand side =>
    refine ⟨by rw [opens, termMayStart_concat], operand, fun next isSide => ?_⟩
    rcases side next isSide with ⟨due, rfl⟩ | ⟨isSide, noLiteral⟩
    · exact ⟨ls, l, [], rfl, begun.opens.mp (by rw [due]; rfl), rfl, fun _ _ => rfl⟩
    · obtain ⟨before, first, more, rfl, starts, rfl, -⟩ := begun.side next isSide
      exact ⟨before, first, more ++ [l], by simp, starts, rfl,
        fun value isLiteral => absurd isLiteral (noLiteral value)⟩

theorem step_quotes (begun : s.Begun ls) {quoted : String} {p : Nat}
    (step : s.step limits l = .error (.unexpectedToken quoted p)) (rest : List Lexeme) :
    ∃ before m after, ls ++ l :: rest = before ++ m :: after ∧ m.position = p ∧
      Quotes before m after quoted := by
  have tracks : Tracks s l (s.step limits l) := step_tracks s l begun.operand
  rw [step] at tracks
  cases tracks with
  | misplaced noLiteral =>
    refine ⟨ls, l, rest, rfl, rfl, .text ?_⟩
    rintro value ⟨isLiteral, starts, -⟩
    exact noLiteral (begun.opens.mpr starts) value isLiteral
  | value isSide asks =>
    obtain ⟨before, m, more, rfl, starts, same, last⟩ := begun.side _ isSide
    obtain ⟨rfl, isLiteral⟩ := Prod.mk.inj same
    obtain rfl := last _ isLiteral.symm
    exact ⟨before, m, l :: rest, by simp, rfl, .value ⟨isLiteral.symm, starts, l, rfl, asks⟩⟩
  | name isSide =>
    obtain ⟨before, m, more, rfl, starts, same, -⟩ := begun.side _ isSide
    obtain ⟨rfl, isName⟩ := Prod.mk.inj same
    exact ⟨before, m, more ++ l :: rest, by simp, rfl, .name isName.symm⟩
  | unquoted unquoted => exact absurd rfl (unquoted _ _)

theorem run_quotes {quoted : String} {p : Nat} (begun : s.Begun ls)
    (run : more.foldlM (State.step limits) s = .error (.unexpectedToken quoted p)) :
    ∃ before m after, ls ++ more = before ++ m :: after ∧ m.position = p ∧
      Quotes before m after quoted := by
  induction more generalizing s ls with
  | nil => cases run
  | cons l more ih =>
    rw [List.foldlM_cons] at run
    rcases bind_error_iff.mp run with step | ⟨middle, step, rest⟩
    · exact step_quotes begun step more
    · simpa using ih (step_begun begun step) rest

theorem finish_unquoted {quoted : String} {p : Nat} :
    s.finish limits ≠ .error (.unexpectedToken quoted p) := by
  intro finish
  unfold State.finish at finish
  split at finish
  · unfold State.countPredicate at finish
    split at finish <;> cases finish
  · cases finish
  · cases finish
  · split at finish <;> cases finish
  · cases finish

end Parser

/-- An error that quotes a token is about a lexeme at the place that it names. -/
theorem parseLexemes_quotes {limits : Limits} {lexemes : List Lexeme} {quoted : String} {p : Nat}
    (rejected : parseLexemes limits lexemes = .error (.unexpectedToken quoted p)) :
    ∃ before l after, lexemes = before ++ l :: after ∧ l.position = p ∧
      Quotes before l after quoted := by
  unfold parseLexemes at rejected
  split at rejected
  · cases rejected
  · rcases bind_error_iff.mp rejected with run | ⟨s, -, finish⟩
    · exact Parser.run_quotes Parser.initial_begun run
    · exact absurd finish Parser.finish_unquoted

end QueryFilter
