import QueryFilter.Proofs.Lexing.Escapes
import QueryFilter.Proofs.Parsing.Consumed

/-!
# Parentheses and places

The groups, calls and lists that a state has open are those whose parentheses have no partner in
what was read, and the place that it keeps of the left side of a term is that of a lexeme. So an
error of the parser has the place of the lexeme that it is about: `parseLexemes_blames`.
-/

namespace QueryFilter

/-- The place that an error tells. -/
def FilterError.position? : FilterError → Option Nat
  | .unexpectedCharacter _ position | .unterminatedString position | .invalidNumber _ position
  | .unexpectedToken _ position | .unclosedParenthesis position | .emptyList position =>
    some position
  | _ => none

/-! ### Partners -/

def Token.isParenthesis : Token → Bool
  | .openParen | .closeParen => true
  | _ => false

/-- Every parenthesis in the tokens has its partner there. -/
inductive Balanced : List Token → Prop where
  | nil : Balanced []
  | plain {token : Token} {tokens : List Token} (noParenthesis : token.isParenthesis = false)
    (more : Balanced tokens) : Balanced (token :: tokens)
  | group {inside rest : List Token} (inner : Balanced inside) (more : Balanced rest) :
    Balanced (.openParen :: inside ++ .closeParen :: rest)

/-- An opening parenthesis in front of the tokens has its partner among them. -/
def HasPartner (tokens : List Token) : Prop :=
  ∃ inside rest, tokens = inside ++ .closeParen :: rest ∧ Balanced inside

/-- How deep the parentheses are nested behind the tokens, if no closing one is too many. -/
def depthBehind : Nat → List Token → Option Nat
  | depth, [] => some depth
  | depth, .openParen :: tokens => depthBehind (depth + 1) tokens
  | 0, .closeParen :: _ => none
  | depth + 1, .closeParen :: tokens => depthBehind depth tokens
  | depth, _ :: tokens => depthBehind depth tokens

namespace Balanced

variable {tokens front back : List Token}

theorem append (first : Balanced front) (second : Balanced back) : Balanced (front ++ back) := by
  induction first with
  | nil => exact second
  | plain noParenthesis _ ih => exact .plain noParenthesis ih
  | group inner _ _ ih =>
    rw [List.append_assoc, List.cons_append]
    exact .group inner ih

theorem depthBehind_append (balanced : Balanced tokens) (depth : Nat) (rest : List Token) :
    depthBehind depth (tokens ++ rest) = depthBehind depth rest := by
  induction balanced generalizing depth rest with
  | nil => rfl
  | @plain token tokens noParenthesis _ ih =>
    rw [List.cons_append, ← ih depth rest]
    cases token with
    | openParen | closeParen => cases noParenthesis
    | _ => rw [depthBehind] <;> simp
  | group _ _ ihInner ihMore =>
    rw [List.append_assoc, List.cons_append, depthBehind, ihInner, List.cons_append, depthBehind,
      ihMore]

/-- Behind balanced tokens a closing parenthesis is too many, so none of them has a partner in front
of them. -/
theorem not_hasPartner (balanced : Balanced tokens) : ¬ HasPartner tokens := by
  rintro ⟨inside, rest, rfl, inner⟩
  have whole := balanced.depthBehind_append 0 []
  rw [List.append_assoc, inner.depthBehind_append] at whole
  cases whole

theorem hasPartner (balanced : Balanced tokens) {before after : List Token}
    (here : tokens = before ++ .openParen :: after) : HasPartner after := by
  induction balanced generalizing before after with
  | nil => simp at here
  | plain noParenthesis _ ih =>
    cases before with
    | nil =>
      rw [(List.cons.inj here).1] at noParenthesis
      cases noParenthesis
    | cons _ before => exact ih (List.cons.inj here).2
  | @group inside rest inner _ ihInner ihMore =>
    cases before with
    | nil => exact ⟨inside, rest, (List.cons.inj here).2.symm, inner⟩
    | cons _ before =>
      -- The parenthesis stands inside the group or behind it.
      rcases append_eq_append_cons (List.cons.inj here).2 with
        ⟨more, inside_eq, rfl⟩ | ⟨behind, -, rest_eq⟩
      · obtain ⟨front, back, rfl, balanced⟩ := ihInner inside_eq
        exact ⟨front, back ++ .closeParen :: rest, by simp, balanced⟩
      · cases behind with
        | nil => cases (List.cons.inj rest_eq).1
        | cons _ behind => exact ihMore (List.cons.inj rest_eq).2

end Balanced

/-! ### Open parentheses -/

/-- The positions of the opening parentheses that have no partner in the lexemes, from the last on.
No closing one is without a partner. -/
inductive OpenAt : List Lexeme → List Nat → Prop where
  | nil {ls : List Lexeme} (balanced : Balanced (ls.map Lexeme.token)) : OpenAt ls []
  | cons {front inside : List Lexeme} {l : Lexeme} {positions : List Nat}
    (outer : OpenAt front positions) (isOpen : l.token = .openParen)
    (balanced : Balanced (inside.map Lexeme.token)) :
    OpenAt (front ++ l :: inside) (l.position :: positions)

/-- What a lexeme does to the positions of the open parentheses. -/
inductive Nests (l : Lexeme) : List Nat → List Nat → Prop where
  | plain {positions : List Nat} (noParenthesis : l.token.isParenthesis = false) :
    Nests l positions positions
  | opens {positions : List Nat} (isOpen : l.token = .openParen) :
    Nests l positions (l.position :: positions)
  | closes {position : Nat} {positions : List Nat} (isClose : l.token = .closeParen) :
    Nests l (position :: positions) positions

namespace OpenAt

variable {ls more : List Lexeme} {l : Lexeme} {positions later : List Nat}

theorem append (opened : OpenAt ls positions) (balanced : Balanced (more.map Lexeme.token)) :
    OpenAt (ls ++ more) positions := by
  cases opened with
  | nil first =>
    refine .nil ?_
    rw [List.map_append]
    exact first.append balanced
  | cons outer isOpen first =>
    rw [List.append_assoc, List.cons_append]
    refine .cons outer isOpen ?_
    rw [List.map_append]
    exact first.append balanced

theorem read (opened : OpenAt ls positions) (nests : Nests l positions later) :
    OpenAt (ls ++ [l]) later := by
  cases nests with
  | plain noParenthesis => exact opened.append (.plain noParenthesis .nil)
  | opens isOpen => exact .cons opened isOpen .nil
  | closes isClose =>
    cases opened with
    | @cons front inside first _ outer isOpen balanced =>
      rw [List.append_assoc]
      apply outer.append
      have group := Balanced.group balanced .nil
      simpa [isOpen, isClose] using group

end OpenAt

namespace Parser

variable {limits : Limits} {s t u : State} {l : Lexeme} {ls : List Lexeme}

/-! ### What a state has open -/

def Slot.unclosed : Slot → List Nat
  | .argument call outer => call.position :: outer.unclosed
  | _ => []

/-- The positions of the calls or the list that are open, from the innermost. -/
def Phase.unclosed : Phase → List Nat
  | .operand slot | .name _ slot => slot.unclosed
  | .firstArgument call outer | .afterArgument call outer => call.position :: outer.unclosed
  | .firstValue opened | .value opened _ | .afterValue opened _ => [opened.position]
  | _ => []

def State.unclosed (s : State) : List Nat := s.phase.unclosed ++ s.groups.map OpenGroup.position

def Slot.start? : Slot → Option Nat
  | .left position => some position
  | .right .. => none
  | .argument _ outer => outer.start?

/-- Where the left side of a term starts, while it is read and until its operator. -/
def Phase.start? : Phase → Option Nat
  | .operand slot | .name _ slot => slot.start?
  | .firstArgument _ outer | .afterArgument _ outer => outer.start?
  | .operator _ position => some position
  | _ => none

/-- Which lexemes lead to a list and into it. -/
def Phase.Enters (before : Phase) (l : Lexeme) : Phase → Prop
  | .list .. => l.token = .isIn ∨ l.token = .notIn
  | .firstValue opened => l.token = .openParen ∧ opened.position = l.position ∧
    ∃ field negated, before = .list field negated
  | _ => True

section

variable (slot : Slot) (operand : Operand)

theorem unclosed_fill : (slot.fill operand).unclosed = slot.unclosed := by
  cases slot <;> rfl

theorem start_fill : (slot.fill operand).start? = slot.start? := by
  cases slot <;> rfl

theorem enters_fill (before : Phase) : before.Enters l (slot.fill operand) := by
  cases slot <;> trivial

end

theorem unclosed_settled (phase : Phase) : phase.settled.unclosed = phase.unclosed := by
  cases phase with
  | name text slot => exact unclosed_fill slot (.field text)
  | _ => rfl

theorem unclosed_settle (s : State) : s.settle.unclosed = s.unclosed := by
  rw [State.unclosed, State.settle, unclosed_settled]
  rfl

theorem start_settled (phase : Phase) : phase.settled.start? = phase.start? := by
  cases phase with
  | name text slot => exact start_fill slot (.field text)
  | _ => rfl

/-- Only a name settles, and never as a list. -/
theorem eq_of_settled {phase other : Phase} (same : phase.settled = other)
    (unfilled : ∀ slot operand, Slot.fill operand slot ≠ other) : phase = other := by
  cases phase with
  | name text slot => exact absurd same (unfilled slot _)
  | _ => exact same

theorem enters_of_settled {phase next : Phase} (enters : phase.settled.Enters l next) :
    phase.Enters l next := by
  cases next with
  | firstValue list =>
    obtain ⟨isOpen, position_eq, field, negated, due⟩ := enters
    refine ⟨isOpen, position_eq, field, negated, eq_of_settled due ?_⟩
    rintro (_ | _ | _) operand <;> simp [Slot.fill]
  | _ => exact enters

/-! ### Steps -/

/-- What reading a lexeme can lead to: the parentheses and the place are kept up, or an error blames
the lexeme, the left side of the term or the list. -/
inductive Passes (s : State) (l : Lexeme) : Except FilterError State → Prop where
  | ok {t : State} (nests : Nests l s.unclosed t.unclosed)
    (start : ∀ p ∈ t.phase.start?, p = l.position ∨ p ∈ s.phase.start?)
    (enters : s.phase.Enters l t.phase) : Passes s l (.ok t)
  | misplaced : Passes s l (.error (misplaced l))
  | subject (text : String) {p : Nat} (start : p ∈ s.phase.start?) :
    Passes s l (.error (.unexpectedToken text p))
  | emptyList {list : OpenList} (due : s.phase = .firstValue list)
    (isClose : l.token = .closeParen) : Passes s l (.error (.emptyList list.position))
  | full {e : FilterError} (unplaced : e.position? = none) : Passes s l (.error e)

/-- What going on within a predicate does to parentheses and places. -/
structure Keeps (l : Lexeme) (before after : Phase) : Prop where
  nests : Nests l before.unclosed after.unclosed
  start : ∀ p ∈ after.start?, p = l.position ∨ p ∈ before.start?
  enters : before.Enters l after

/-- Within a term the groups stay as they are. -/
theorem passes_within (groups : t.groups = s.groups) (keeps : Keeps l s.phase t.phase) :
    Passes s l (.ok t) := by
  obtain ⟨nests, start, enters⟩ := keeps
  refine .ok ?_ start enters
  unfold State.unclosed
  rw [groups]
  generalize s.phase.unclosed = before at nests
  generalize t.phase.unclosed = after at nests
  cases nests with
  | plain noParenthesis => exact .plain noParenthesis
  | opens isOpen => exact .opens isOpen
  | closes isClose => exact .closes isClose

/-- A lexeme that is no parenthesis leaves open what is open. -/
theorem keeps_plain {token : Token} {before after : Phase} (isToken : l.token = token)
    (noParenthesis : token.isParenthesis = false) (unclosed : after.unclosed = before.unclosed)
    (start : ∀ p ∈ after.start?, p = l.position ∨ p ∈ before.start?)
    (enters : before.Enters l after) : Keeps l before after := by
  subst isToken
  refine ⟨?_, start, enters⟩
  rw [unclosed]
  exact .plain noParenthesis

theorem begins_keeps {slot : Slot} {before next : Phase} (begins : slot.Begins l next)
    (unclosed : slot.unclosed = before.unclosed)
    (start : ∀ p ∈ slot.start?, p = l.position ∨ p ∈ before.start?) : Keeps l before next := by
  cases begins with
  | name isName => exact keeps_plain isName rfl unclosed start trivial
  | literal isLiteral =>
    refine keeps_plain isLiteral rfl ((unclosed_fill slot _).trans unclosed) ?_ (enters_fill _ _ _)
    rw [start_fill]
    exact start

theorem asks_keeps {field : String} {position : Nat} {next : Phase} (asks : Asks l field next) :
    Keeps l (.operator (.field field) position) next := by
  cases asks with
  | is isWord => exact keeps_plain isWord rfl rfl (by simp [Phase.start?]) trivial
  | isIn isWord => exact keeps_plain isWord rfl rfl (by simp [Phase.start?]) (.inl isWord)
  | notIn isWord => exact keeps_plain isWord rfl rfl (by simp [Phase.start?]) (.inr isWord)
  | not isWord => exact keeps_plain isWord rfl rfl (by simp [Phase.start?]) trivial

theorem goes_keeps {phase next : Phase} (goes : phase.Goes l next) : Keeps l phase next := by
  -- The parenthesis of a list is the only one that is read here.
  cases goes with
  | operand begins => exact begins_keeps begins rfl fun p started => .inr started
  | firstArgument begins => exact begins_keeps begins rfl fun p started => .inr started
  | nextArgument isComma =>
    exact keeps_plain isComma rfl rfl (fun p started => .inr started) trivial
  | comparison isOp => exact keeps_plain isOp rfl rfl (by simp [Phase.start?, Slot.start?]) trivial
  | asks asks => exact asks_keeps asks
  | null isToken | notNull isToken | nextValue isToken =>
    exact keeps_plain isToken rfl rfl (by simp [Phase.start?]) trivial
  | firstValue isToken | value isToken =>
    exact keeps_plain isToken rfl rfl (by simp [Phase.start?]) trivial
  | inWord isIn => exact keeps_plain isIn rfl rfl (by simp [Phase.start?]) (.inl isIn)
  | list isOpen => exact ⟨.opens isOpen, by simp [Phase.start?], isOpen, rfl, _, _, rfl⟩
  | closeList isClose => exact ⟨.closes isClose, by simp [Phase.start?], trivial⟩

theorem closeCall_keeps {call : OpenCall} {outer : Slot} {before : Phase} (operand : Operand)
    (due : before = .firstArgument call outer ∨ before = .afterArgument call outer)
    (isClose : l.token = .closeParen) : Keeps l before (outer.fill operand) := by
  have unclosed : before.unclosed = call.position :: outer.unclosed := by
    rcases due with rfl | rfl <;> rfl
  have start : before.start? = outer.start? := by rcases due with rfl | rfl <;> rfl
  refine ⟨?_, ?_, enters_fill _ _ _⟩
  · rw [unclosed_fill, unclosed]
    exact .closes isClose
  · rw [start_fill, start]
    exact fun p started => .inr started

/-- A joiner, and the parenthesis of a group, are read where nothing but groups is open. -/
theorem passes_between (nothing : s.phase.unclosed = []) (due : t.phase.unclosed = [])
    (nests : Nests l (s.groups.map OpenGroup.position) (t.groups.map OpenGroup.position))
    (start : t.phase.start? = none) (enters : s.phase.Enters l t.phase) : Passes s l (.ok t) := by
  refine .ok ?_ (by simp [start]) enters
  rw [State.unclosed, State.unclosed, nothing, due]
  exact nests

theorem advance_passes (s : State) (l : Lexeme) : Passes s l (s.advance limits l) := by
  have takes : Takes limits s l (s.advance limits l) := advance_takes limits s l
  generalize s.advance limits l = outcome at takes
  cases takes with
  | goes due goes => exact passes_within rfl (due ▸ goes_keeps goes)
  | predicate due _ begins =>
    have nothing : (Slot.left l.position).unclosed = Phase.term.unclosed := rfl
    have keeps := begins_keeps begins nothing (by rintro p ⟨⟩; exact .inl rfl)
    exact passes_within rfl (due ▸ keeps)
  | openGroup due isOpen =>
    exact passes_between (by rw [due]; rfl) rfl (.opens isOpen) rfl trivial
  | @openCall name slot due isOpen =>
    have keeps : Keeps l (.name name slot) (.firstArgument ⟨name, l.position, []⟩ slot) :=
      ⟨.opens isOpen, fun p started => .inr started, trivial⟩
    exact passes_within rfl (due ▸ keeps)
  | closeCall due isClose => exact passes_within rfl (closeCall_keeps _ due isClose)
  | and due isAnd =>
    exact passes_between (by rw [due]; rfl) rfl (.plain (by rw [isAnd]; rfl)) rfl trivial
  | or due isOr =>
    exact passes_between (by rw [due]; rfl) rfl (.plain (by rw [isOr]; rfl)) rfl trivial
  | closeGroup due isClose innermost =>
    refine passes_between (by rw [due]; rfl) rfl ?_ rfl trivial
    rw [innermost]
    exact .closes isClose
  | tooDeep | tooMany => exact .full rfl
  | misplaced | unopened => exact .misplaced
  | asksLiteral due | asksCall due => exact .subject _ (by rw [due]; rfl)
  | emptyList due isClose => exact .emptyList due isClose

theorem step_passes (s : State) (l : Lexeme) : Passes s l (s.step limits l) := by
  unfold State.step
  split
  · exact advance_passes s l
  · -- A name that turns out to be a field has nothing open of its own.
    have settled : Passes s.settle l (s.settle.advance limits l) := advance_passes s.settle l
    change Passes s l (s.settle.advance limits l)
    have start : s.settle.phase.start? = s.phase.start? := start_settled s.phase
    generalize s.settle.advance limits l = outcome at settled
    cases settled with
    | ok nests started enters =>
      rw [unclosed_settle] at nests
      rw [start] at started
      exact .ok nests started (enters_of_settled enters)
    | misplaced => exact .misplaced
    | subject text place => exact .subject text (start ▸ place)
    | emptyList due isClose =>
      refine .emptyList (eq_of_settled due ?_) isClose
      rintro (_ | _ | _) operand <;> simp [Slot.fill]
    | full unplaced => exact .full unplaced

/-! ### Runs -/

/-- The lexemes end with a word that a list follows, and with the parenthesis of the list if that
was read. -/
def Phase.Behind (ls : List Lexeme) : Phase → Prop
  | .list .. => ∃ front word, ls = front ++ [word] ∧ (word.token = .isIn ∨ word.token = .notIn)
  | .firstValue opened => ∃ front word opening, ls = front ++ [word, opening] ∧
    (word.token = .isIn ∨ word.token = .notIn) ∧ opening.token = .openParen ∧
    opening.position = opened.position
  | _ => True

/-- What the state keeps of places are the places of the lexemes. -/
structure State.Placed (ls : List Lexeme) (s : State) : Prop where
  unclosed : OpenAt ls s.unclosed
  start : ∀ p ∈ s.phase.start?, ∃ l ∈ ls, l.position = p
  behind : s.phase.Behind ls

/-- The error is about a lexeme, or about the parenthesis of an empty list. -/
inductive Blames (ls : List Lexeme) : FilterError → Prop where
  | lexeme {l : Lexeme} (text : String) (member : l ∈ ls) :
    Blames ls (.unexpectedToken text l.position)
  | emptyList (front back : List Lexeme) {word opening closing : Lexeme}
    (parts : ls = front ++ word :: opening :: closing :: back)
    (isWord : word.token = .isIn ∨ word.token = .notIn) (isOpen : opening.token = .openParen)
    (isClose : closing.token = .closeParen) : Blames ls (.emptyList opening.position)
  | unplaced {e : FilterError} (unplaced : e.position? = none) : Blames ls e

theorem Blames.append {e : FilterError} (blames : Blames ls e) (more : List Lexeme) :
    Blames (ls ++ more) e := by
  cases blames with
  | lexeme text member => exact .lexeme text (List.mem_append_left more member)
  | @emptyList front back word opening closing parts isWord isOpen isClose =>
    exact .emptyList front (back ++ more) (by simp [parts]) isWord isOpen isClose
  | unplaced unplaced => exact .unplaced unplaced

theorem initial_placed : State.Placed [] State.initial where
  unclosed := .nil .nil
  start := by simp [State.initial, Phase.start?]
  behind := trivial

theorem step_placed (placed : s.Placed ls) (step : s.step limits l = .ok t) :
    t.Placed (ls ++ [l]) := by
  have passes : Passes s l (s.step limits l) := step_passes s l
  rw [step] at passes
  cases passes with
  | ok nests start enters =>
    refine ⟨placed.unclosed.read nests, ?_, ?_⟩
    · intro p started
      rcases start p started with rfl | earlier
      · exact ⟨l, by simp, rfl⟩
      · obtain ⟨m, member, same⟩ := placed.start p earlier
        exact ⟨m, List.mem_append_left _ member, same⟩
    · generalize t.phase = next at enters
      cases next with
      | list field negated => exact ⟨ls, l, rfl, enters⟩
      | firstValue opened =>
        obtain ⟨isOpen, same, field, negated, due⟩ := enters
        have behind := placed.behind
        rw [due] at behind
        obtain ⟨front, word, rfl, isWord⟩ := behind
        exact ⟨front, word, l, by simp, isWord, isOpen, same.symm⟩
      | _ => trivial

theorem step_blames (placed : s.Placed ls) {e : FilterError} (step : s.step limits l = .error e) :
    Blames (ls ++ [l]) e := by
  have passes : Passes s l (s.step limits l) := step_passes s l
  rw [step] at passes
  cases passes with
  | misplaced => exact .lexeme l.text (by simp)
  | subject text start =>
    obtain ⟨m, member, rfl⟩ := placed.start _ start
    exact .lexeme text (List.mem_append_left _ member)
  | emptyList due isClose =>
    have behind := placed.behind
    rw [due] at behind
    obtain ⟨front, word, opening, rfl, isWord, isOpen, same⟩ := behind
    rw [← same]
    exact .emptyList front [] (by simp) isWord isOpen isClose
  | full unplaced => exact .unplaced unplaced

theorem run_placed {more : List Lexeme} (placed : s.Placed ls)
    (run : more.foldlM (State.step limits) s = .ok t) : t.Placed (ls ++ more) := by
  induction more generalizing s ls with
  | nil =>
    cases run
    simpa using placed
  | cons l more ih =>
    rw [List.foldlM_cons] at run
    obtain ⟨middle, step, rest⟩ := bind_ok run
    simpa using ih (step_placed placed step) rest

theorem run_blames {more : List Lexeme} (placed : s.Placed ls) {e : FilterError}
    (run : more.foldlM (State.step limits) s = .error e) : Blames (ls ++ more) e := by
  induction more generalizing s ls with
  | nil => cases run
  | cons l more ih =>
    rw [List.foldlM_cons] at run
    rcases bind_error_iff.mp run with step | ⟨middle, step, rest⟩
    · simpa using (step_blames placed step).append more
    · simpa using ih (step_placed placed step) rest

/-- At the end only the innermost parenthesis that is open is blamed. -/
theorem finish_blames {e : FilterError} (finish : s.finish limits = .error e) :
    e.position? = none ∨ ∃ p outer, s.unclosed = p :: outer ∧ e = .unclosedParenthesis p := by
  rw [← finish_settle] at finish
  rw [← unclosed_settle]
  unfold State.finish at finish
  rw [show s.settle.phase.settled = s.settle.phase from settled_settled _] at finish
  split at finish
  · unfold State.countPredicate at finish
    split at finish <;> cases finish <;> exact .inl rfl
  · rename_i call outer due
    cases finish
    exact .inr ⟨_, _, by rw [State.unclosed, due]; rfl, rfl⟩
  · rename_i list values due
    cases finish
    exact .inr ⟨_, _, by rw [State.unclosed, due]; rfl, rfl⟩
  · rename_i term due
    split at finish
    · cases finish
    · rename_i group groups inner
      cases finish
      exact .inr ⟨_, _, by rw [State.unclosed, due, inner]; rfl, rfl⟩
  · cases finish
    exact .inl rfl

end Parser

/-- An error of the parser with a place is about a lexeme at that place. -/
theorem parseLexemes_blames {limits : Limits} {lexemes : List Lexeme} {e : FilterError}
    (rejected : parseLexemes limits lexemes = .error e) :
    Parser.Blames lexemes e ∨
      ∃ p outer, e = .unclosedParenthesis p ∧ OpenAt lexemes (p :: outer) := by
  unfold parseLexemes at rejected
  split at rejected
  · cases rejected
    exact .inl (.unplaced rfl)
  · rcases bind_error_iff.mp rejected with run | ⟨s, run, finish⟩
    · exact .inl (Parser.run_blames Parser.initial_placed run)
    · have placed := Parser.run_placed Parser.initial_placed run
      rw [List.nil_append] at placed
      rcases Parser.finish_blames finish with unplaced | ⟨p, outer, same, rfl⟩
      · exact .inl (.unplaced unplaced)
      · exact .inr ⟨p, outer, rfl, same ▸ placed.unclosed⟩

end QueryFilter
