import QueryFilter.Proofs.Outcome
import QueryFilter.Proofs.Parsing.Descent

/-!
# The two parsers in lockstep

The parser that reads one lexeme at a time, called the machine here, is run beside the descent. What
is kept is that the machine comes to the same outcome from where the descent stands: so a state may
be exchanged for one that the next lexeme treats alike, and the machine need not look ahead. Every
result says how a run of the descent ends, by a value or by an error that is the machine's.
-/

namespace QueryFilter.Descent

open QueryFilter.Parser (State misplaced)

/-! ### Runs -/

/-- A run gives a value or is refused with an error. It does not end with an underflow. -/
inductive Ends {α : Type} (returned : α → Counters → Prop)
    (refused : FilterError → Counters → Prop) : EStateM.Result Halt Counters α → Prop where
  | ok {a : α} {c : Counters} (holds : returned a c) : Ends returned refused (.ok a c)
  | refused {e : FilterError} {c : Counters} (holds : refused e c) :
    Ends returned refused (.error (.refused e) c)

variable {α β : Type} {limits : Limits} {lexemes : List Lexeme} {c : Counters} {l : Lexeme}
  {s t : State} {e : FilterError}

theorem Ends.bind {x : Reader α} {f : α → Reader β} {returned : α → Counters → Prop}
    {after : β → Counters → Prop} {refused : FilterError → Counters → Prop}
    (first : Ends returned refused (x c))
    (next : ∀ a c', returned a c' → Ends after refused (f a c')) :
    Ends after refused ((x >>= f) c) := by
  change Ends after refused (EStateM.bind x f c)
  unfold EStateM.bind
  generalize x c = result at first ⊢
  cases first with
  | ok holds => exact next _ _ holds
  | refused holds => exact .refused holds

theorem Ends.mono {returned after : α → Counters → Prop} {refused : FilterError → Counters → Prop}
    {result : EStateM.Result Halt Counters α} (ends : Ends returned refused result)
    (next : ∀ a c', returned a c' → after a c') : Ends after refused result := by
  cases ends with
  | ok holds => exact .ok (next _ _ holds)
  | refused holds => exact .refused holds

theorem Ends.mono_refused {returned : α → Counters → Prop}
    {refused after : FilterError → Counters → Prop} {result : EStateM.Result Halt Counters α}
    (ends : Ends returned refused result) (next : ∀ e c', refused e c' → after e c') :
    Ends returned after result := by
  cases ends with
  | ok holds => exact .ok holds
  | refused holds => exact .refused (next _ _ holds)

theorem bind_of_ok {x : Reader α} {a : α} {c' : Counters} (first : x c = .ok a c')
    (f : α → Reader β) : (x >>= f) c = f a c' := by
  change EStateM.bind x f c = _
  rw [EStateM.bind, first]

theorem bind_of_error {x : Reader α} {h : Halt} {c' : Counters} (first : x c = .error h c')
    (f : α → Reader β) : (x >>= f) c = .error h c' := by
  change EStateM.bind x f c = _
  rw [EStateM.bind, first]

def Counters.next (c : Counters) : Counters := { c with position := c.position + 1 }

theorem peek_bind (f : Option Lexeme → Reader α) :
    (peek lexemes >>= f) c = f lexemes[c.position]? c := rfl

theorem check_bind (token : Token) (f : Bool → Reader α) : (check lexemes token >>= f) c =
    f (decide (lexemes[c.position]?.map Lexeme.token = some token)) c := rfl

theorem advance_eq (found : lexemes[c.position]? = some l) : advance lexemes c = .ok () c.next := by
  have inside : c.position < lexemes.length := (List.getElem?_eq_some_iff.mp found).1
  rw [advance, if_pos inside]
  rfl

theorem advance_bind (found : lexemes[c.position]? = some l) (f : Unit → Reader α) :
    (advance lexemes >>= f) c = f () c.next :=
  bind_of_ok (advance_eq found) f

theorem unexpected_some (found : lexemes[c.position]? = some l) :
    (unexpected lexemes : Reader α) c = .error (.refused (misplaced l)) c := by
  unfold unexpected
  rw [peek_bind, found]
  rfl

theorem unexpected_none (atEnd : lexemes[c.position]? = none) :
    (unexpected lexemes : Reader α) c = .error (.refused .unexpectedEnd) c := by
  unfold unexpected
  rw [peek_bind, atEnd]
  rfl

theorem expect_eq {token : Token} (found : lexemes[c.position]? = some l)
    (isToken : l.token = token) : expect lexemes token c = .ok l.position c.next := by
  unfold expect
  rw [peek_bind, found]
  dsimp only
  rw [if_pos isToken, advance_bind found]
  rfl

theorem expect_other {token : Token}
    (other : ∀ l, lexemes[c.position]? = some l → l.token ≠ token) :
    expect lexemes token c = unexpected lexemes c := by
  unfold expect
  rw [peek_bind]
  cases found : lexemes[c.position]? with
  | none => rfl
  | some l =>
    dsimp only
    rw [if_neg (other l found)]

def Counters.entered (c : Counters) : Counters :=
  { c with depth := c.depth + 1, deepest := max c.deepest (c.depth + 1) }

theorem enter_of_le (room : c.depth + 1 ≤ limits.depth) : enter limits c = .ok () c.entered :=
  if_neg (Nat.not_lt.mpr room)

theorem enter_of_lt (full : limits.depth < c.depth + 1) :
    enter limits c = .error (.refused (.nestedTooDeep limits.depth)) c.entered :=
  if_pos full

/-! ### The machine from a place on -/

/-- What the parser that reads one lexeme at a time makes of the lexemes from a position on. -/
def resume (limits : Limits) (lexemes : List Lexeme) (s : State) (position : Nat) :
    Except FilterError Expr :=
  (lexemes.drop position).foldlM (State.step limits) s >>= State.finish limits

section

variable {position : Nat}

theorem resume_none (atEnd : lexemes[position]? = none) :
    resume limits lexemes s position = s.finish limits := by
  rw [resume, List.drop_eq_nil_iff.mpr (List.getElem?_eq_none_iff.mp atEnd)]
  rfl

theorem resume_some (found : lexemes[position]? = some l) :
    resume limits lexemes s position =
      s.step limits l >>= fun t => resume limits lexemes t (position + 1) := by
  obtain ⟨inside, rfl⟩ := List.getElem?_eq_some_iff.mp found
  rw [resume, List.drop_eq_getElem_cons inside, List.foldlM_cons, bind_assoc]
  rfl

end

/-! ### Both parsers at one place -/

def Counters.into (c : Counters) (s : State) : State :=
  { s with depth := c.depth, terms := c.terms }

/-- The descent stands behind the tokens that it has read since `origin`, with as many predicates
counted and at the given depth. The machine, in state `s` but with the counters of the descent, goes
on to the outcome. -/
structure Here (limits : Limits) (lexemes : List Lexeme) (origin : Counters)
    (outcome : Except FilterError Expr) (depth : Nat) (tokens : List Token) (predicates : Nat)
    (s : State) (c : Counters) : Prop where
  drop_eq : (lexemes.map Lexeme.token).drop origin.position =
    tokens ++ (lexemes.map Lexeme.token).drop c.position
  position_eq : c.position = origin.position + tokens.length
  depth_eq : c.depth = depth
  depth_le : depth ≤ limits.depth
  terms_eq : c.terms = origin.terms + predicates
  terms_le : c.terms ≤ limits.terms
  deepest_le : c.deepest ≤ max origin.deepest (limits.depth + 1)
  outcome_eq : outcome = resume limits lexemes (c.into s) c.position

/-- The descent is refused with the error that the machine comes to. -/
structure Stopped (limits : Limits) (origin : Counters) (outcome : Except FilterError Expr)
    (e : FilterError) (c : Counters) : Prop where
  outcome_eq : outcome = .error e
  deepest_le : c.deepest ≤ max origin.deepest (limits.depth + 1)

variable {origin : Counters} {outcome : Except FilterError Expr} {depth predicates : Nat}
  {tokens : List Token}

namespace Here

variable (here : Here limits lexemes origin outcome depth tokens predicates s c)
include here

theorem restate (same : resume limits lexemes (c.into s) c.position =
    resume limits lexemes (c.into t) c.position) :
    Here limits lexemes origin outcome depth tokens predicates t c :=
  { here with outcome_eq := here.outcome_eq.trans same }

/-- Both parsers take a lexeme, which may open or close a level. -/
theorem take {c' : Counters} {level : Nat} (found : lexemes[c.position]? = some l)
    (position_eq : c'.position = c.position + 1) (terms_eq : c'.terms = c.terms)
    (depth_eq : c'.depth = level) (depth_le : level ≤ limits.depth)
    (deepest_le : c'.deepest ≤ max origin.deepest (limits.depth + 1))
    (step : (c.into s).step limits l = .ok (c'.into t)) :
    Here limits lexemes origin outcome level (tokens ++ [l.token]) predicates t c' where
  drop_eq := by
    have inside : (lexemes.map Lexeme.token)[c.position]? = some l.token := by
      rw [List.getElem?_map, found]
      rfl
    obtain ⟨within, token_eq⟩ := List.getElem?_eq_some_iff.mp inside
    rw [here.drop_eq, List.drop_eq_getElem_cons within, token_eq, position_eq, List.append_assoc]
    rfl
  position_eq := by
    rw [position_eq, here.position_eq, List.length_append, List.length_singleton, Nat.add_assoc]
  depth_eq := depth_eq
  depth_le := depth_le
  terms_eq := terms_eq.trans here.terms_eq
  terms_le := terms_eq ▸ here.terms_le
  deepest_le := deepest_le
  outcome_eq := by
    rw [here.outcome_eq, resume_some found, step, position_eq]
    rfl

theorem read (found : lexemes[c.position]? = some l)
    (step : (c.into s).step limits l = .ok (c.into t)) :
    Here limits lexemes origin outcome depth (tokens ++ [l.token]) predicates t c.next :=
  here.take found rfl rfl here.depth_eq here.depth_le here.deepest_le step

theorem stop (found : lexemes[c.position]? = some l) (step : (c.into s).step limits l = .error e) :
    Stopped limits origin outcome e c where
  outcome_eq := by
    rw [here.outcome_eq, resume_some found, step]
    rfl
  deepest_le := here.deepest_le

theorem stop_end (atEnd : lexemes[c.position]? = none)
    (finish : (c.into s).finish limits = .error e) : Stopped limits origin outcome e c where
  outcome_eq := by rw [here.outcome_eq, resume_none atEnd, finish]
  deepest_le := here.deepest_le

end Here

/-! ### Lexemes -/

theorem next_cases (lexemes : List Lexeme) (c : Counters) (token : Token) :
    (∃ l, lexemes[c.position]? = some l ∧ l.token = token) ∨
      ∀ l, lexemes[c.position]? = some l → l.token ≠ token := by
  by_cases isNext : ∃ l, lexemes[c.position]? = some l ∧ l.token = token
  · exact .inl isNext
  · exact .inr fun l found isToken => isNext ⟨l, found, isToken⟩

theorem check_bind_ends {token : Token} {f : Bool → Reader α} {returned : α → Counters → Prop}
    {refused : FilterError → Counters → Prop}
    (isNext : ∀ l, lexemes[c.position]? = some l → l.token = token →
      Ends returned refused (f true c))
    (other : (∀ l, lexemes[c.position]? = some l → l.token ≠ token) →
      Ends returned refused (f false c)) :
    Ends returned refused ((check lexemes token >>= f) c) := by
  rw [check_bind]
  rcases next_cases lexemes c token with ⟨l, found, isToken⟩ | notNext
  · rw [found, Option.map_some, isToken, decide_eq_true rfl]
    exact isNext l found isToken
  · have differs : lexemes[c.position]?.map Lexeme.token ≠ some token := by
      intro same
      obtain ⟨l, found, isToken⟩ := Option.map_eq_some_iff.mp same
      exact notNext l found isToken
    rw [decide_eq_false differs]
    exact other notNext

theorem check_ends {token : Token} {yes no : Reader α} {returned : α → Counters → Prop}
    {refused : FilterError → Counters → Prop}
    (isNext : ∀ l, lexemes[c.position]? = some l → l.token = token → Ends returned refused (yes c))
    (other : (∀ l, lexemes[c.position]? = some l → l.token ≠ token) →
      Ends returned refused (no c)) :
    Ends returned refused ((check lexemes token >>= fun found => if found then yes else no) c) :=
  check_bind_ends isNext other

section

variable (here : Here limits lexemes origin outcome depth tokens predicates s c)
include here

theorem unexpected_ends {returned : α → Counters → Prop}
    (step : ∀ l, lexemes[c.position]? = some l → (c.into s).step limits l = .error (misplaced l))
    (finish : lexemes[c.position]? = none → (c.into s).finish limits = .error .unexpectedEnd) :
    Ends returned (Stopped limits origin outcome) (unexpected lexemes c) := by
  cases found : lexemes[c.position]? with
  | none =>
    rw [unexpected_none found]
    exact .refused (here.stop_end found (finish found))
  | some l =>
    rw [unexpected_some found]
    exact .refused (here.stop found (step l found))

theorem expect_ends {token : Token} (next : Lexeme → State)
    (read : ∀ l, l.token = token → (c.into s).step limits l = .ok (c.into (next l)))
    (step : ∀ l, lexemes[c.position]? = some l → l.token ≠ token →
      (c.into s).step limits l = .error (misplaced l))
    (finish : (c.into s).finish limits = .error .unexpectedEnd) :
    Ends (fun position c' => ∃ l, position = l.position ∧ Here limits lexemes origin outcome depth
        (tokens ++ [token]) predicates (next l) c') (Stopped limits origin outcome)
      (expect lexemes token c) := by
  rcases next_cases lexemes c token with ⟨l, found, rfl⟩ | other
  · rw [expect_eq found rfl]
    exact .ok ⟨l, rfl, here.read found (read l rfl)⟩
  · rw [expect_other other]
    exact unexpected_ends here (fun l found => step l found (other l found)) fun _ => finish

end

/-! ### Loops -/

/-- What holds before a loop and is kept by each round holds behind it, where no separator is. -/
theorem loop_ends {separator : Token} {item : Reader α} {join : β → α → β}
    (holds : β → Counters → Prop) {refused : FilterError → Counters → Prop}
    (round : ∀ joined c l, holds joined c → lexemes[c.position]? = some l → l.token = separator →
      Ends (fun a c' => holds (join joined a) c' ∧ c.position < c'.position) refused (item c.next))
    {bound : Nat} {joined : β} {c : Counters} (room : lexemes.length ≤ c.position + bound)
    (start : holds joined c) :
    Ends (fun joined' c' => holds joined' c' ∧
      ∀ l, lexemes[c'.position]? = some l → l.token ≠ separator) refused
      (loop lexemes separator item join bound joined c) := by
  induction bound generalizing joined c with
  | zero =>
    refine .ok ⟨start, fun l found => ?_⟩
    have inside := (List.getElem?_eq_some_iff.mp found).1
    omega
  | succ bound ih =>
    unfold loop
    refine check_ends (fun l found isSeparator => ?_) fun other => .ok ⟨start, other⟩
    rw [advance_bind found]
    refine (round joined c l start found isSeparator).bind ?_
    rintro a c' ⟨kept, further⟩
    exact ih (by omega) kept

theorem Here.further {more : List Token} {t : State} {c' : Counters} {count : Nat}
    (here : Here limits lexemes origin outcome depth tokens predicates s c)
    (later : Here limits lexemes origin outcome depth (tokens ++ more) count t c')
    (nonempty : more ≠ []) : c.position < c'.position := by
  have some := List.length_pos_iff.mpr nonempty
  rw [here.position_eq, later.position_eq, List.length_append]
  omega

/-- A list with commas, of which the first item is read. -/
theorem behindFirst_ends {item : Reader α} (spelled : α → List Token)
    {after before : List α → State} (nonempty : ∀ a, spelled a ≠ [])
    (reads : ∀ {tokens items c},
      Here limits lexemes origin outcome depth tokens predicates (before items) c →
      Ends (fun a c' => Here limits lexemes origin outcome depth (tokens ++ spelled a) predicates
        (after (items ++ [a])) c') (Stopped limits origin outcome) (item c))
    (comma : ∀ (items : List α) (c : Counters) (l : Lexeme), items ≠ [] → l.token = .comma →
      (c.into (after items)).step limits l = .ok (c.into (before items)))
    {first : α} (here : Here limits lexemes origin outcome depth (tokens ++ spelled first)
      predicates (after [first]) c) :
    Ends (fun items c' => (items ≠ [] ∧ Here limits lexemes origin outcome depth
        (tokens ++ separated (items.map spelled)) predicates (after items) c') ∧
      ∀ l, lexemes[c'.position]? = some l → l.token ≠ .comma) (Stopped limits origin outcome)
      (behindFirst lexemes .comma item (fun items a => items ++ [a]) [first] c) := by
  refine loop_ends (fun items c => items ≠ [] ∧ Here limits lexemes origin outcome depth
    (tokens ++ separated (items.map spelled)) predicates (after items) c) ?_ (by omega)
    ⟨by simp, by simpa using here⟩
  rintro items c l ⟨some, here⟩ found isComma
  have next := here.read found (comma items c l some isComma)
  have ended : tokens ++ separated (items.map spelled) ++ [l.token] =
      tokens ++ terminated (items.map spelled) := by
    rw [isComma, List.append_assoc, separated_append_comma (by simpa using some)]
  rw [ended] at next
  refine (reads next).mono ?_
  intro a c' later
  have progress := next.further later (nonempty a)
  have joined : tokens ++ terminated (items.map spelled) ++ spelled a =
      tokens ++ separated ((items ++ [a]).map spelled) := by
    rw [List.map_append, List.map_singleton, separated_append_singleton, List.append_assoc]
  rw [joined] at later
  exact ⟨⟨by simp, later⟩, Nat.lt_of_succ_lt progress⟩

/-! ### Operands -/

section

variable (here : Here limits lexemes origin outcome depth tokens predicates s c)
include here

theorem literal_ends (next : Literal → State)
    (read : ∀ l value, l.token = .literal value →
      (c.into s).step limits l = .ok (c.into (next value)))
    (step : ∀ l, lexemes[c.position]? = some l → (∀ value, l.token ≠ .literal value) →
      (c.into s).step limits l = .error (misplaced l))
    (finish : (c.into s).finish limits = .error .unexpectedEnd) :
    Ends (fun value c' => Here limits lexemes origin outcome depth (tokens ++ [.literal value])
      predicates (next value) c') (Stopped limits origin outcome) (literal lexemes c) := by
  unfold literal
  rw [peek_bind]
  generalize next_eq : lexemes[c.position]?.map Lexeme.token = token?
  split
  · rename_i value
    obtain ⟨l, found, isLiteral⟩ := Option.map_eq_some_iff.mp next_eq
    have later := here.read found (read l value isLiteral)
    rw [isLiteral] at later
    rw [advance_bind found]
    exact .ok later
  · rename_i other
    refine unexpected_ends here (fun l found => step l found fun value isLiteral => ?_)
      fun _ => finish
    exact other value (by rw [← next_eq, found, Option.map_some, isLiteral])

/-- A parenthesis that opens a group or a call. -/
theorem open_ends (next : State) {f : Nat → Reader α} {returned : α → Counters → Prop}
    (found : lexemes[c.position]? = some l) (isOpen : l.token = .openParen)
    (full : limits.depth < c.depth + 1 →
      (c.into s).step limits l = .error (.nestedTooDeep limits.depth))
    (read : c.depth + 1 ≤ limits.depth →
      (c.into s).step limits l = .ok (c.next.entered.into next))
    (inner : ∀ c', Here limits lexemes origin outcome (depth + 1) (tokens ++ [.openParen])
      predicates next c' → Ends returned (Stopped limits origin outcome) (f l.position c')) :
    Ends returned (Stopped limits origin outcome)
      ((expect lexemes .openParen >>= fun opening => enter limits >>= fun _ => f opening) c) := by
  have depth_eq := here.depth_eq
  have depth_le := here.depth_le
  have deepest : c.next.entered.deepest ≤ max origin.deepest (limits.depth + 1) :=
    Nat.max_le.mpr ⟨here.deepest_le, by change c.depth + 1 ≤ _; omega⟩
  rw [bind_of_ok (expect_eq found isOpen)]
  by_cases room : c.depth + 1 ≤ limits.depth
  · rw [bind_of_ok (enter_of_le (c := c.next) room)]
    refine inner _ ?_
    rw [← isOpen]
    exact here.take found rfl rfl (congrArg (· + 1) depth_eq) (depth_eq ▸ room) deepest (read room)
  · rw [bind_of_error (enter_of_lt (c := c.next) (Nat.lt_of_not_le room))]
    exact .refused ⟨(here.stop found (full (Nat.lt_of_not_le room))).outcome_eq, deepest⟩

theorem closing_ends {opening : Nat}
    (step : ∀ l, lexemes[c.position]? = some l → l.token ≠ .closeParen →
      (c.into s).step limits l = .error (misplaced l))
    (finish : (c.into s).finish limits = .error (.unclosedParenthesis opening)) :
    Ends (fun _ c' => c' = c.next ∧ ∃ l, lexemes[c.position]? = some l ∧ l.token = .closeParen)
      (Stopped limits origin outcome) (closing lexemes opening c) := by
  unfold closing
  rw [peek_bind]
  cases found : lexemes[c.position]? with
  | none => exact .refused (here.stop_end found finish)
  | some l =>
    dsimp only
    by_cases isClose : l.token = .closeParen
    · rw [bind_of_ok (expect_eq found isClose)]
      exact .ok ⟨rfl, l, rfl, isClose⟩
    · have refused : expect lexemes .closeParen c = .error (.refused (misplaced l)) c := by
        rw [expect_other fun other same => ?_, unexpected_some found]
        obtain rfl : l = other := Option.some.inj (found.symm.trans same)
        exact isClose
      rw [bind_of_error refused]
      exact .refused (here.stop found (step l found isClose))

end

end QueryFilter.Descent
