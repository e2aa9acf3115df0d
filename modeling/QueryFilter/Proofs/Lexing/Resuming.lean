import QueryFilter.Proofs.Lexing.Blanks

/-!
# The lexer goes on from the rest

What a call of the lexer gives depends on the unread rest alone, and its place only moves the places
that it tells. That holds behind errors as well, which leave the lexer behind a number, at the end
of the text or where it was: `afterCalls_resumes`.
-/

namespace QueryFilter

namespace Lexer

variable {l : Lexer}

/-! ### One call -/

/-- All that one call can do to the unread rest. -/
inductive Leaves (l : Lexer) : Except FilterError (Option Lexeme) → Lexer → Prop where
  | token {lexeme : Lexeme} {after : Lexer} (shorter : after.rest.length < l.rest.length) :
    Leaves l (.ok (some lexeme)) after
  | ended {position : Nat} : Leaves l (.ok none) ⟨position, []⟩
  | unterminated {p position : Nat} : Leaves l (.error (.unterminatedString p)) ⟨position, []⟩
  | invalidNumber {literal : String} {p : Nat} {after : Lexer}
    (shorter : after.rest.length < l.rest.length) :
    Leaves l (.error (.invalidNumber literal p)) after
  | unexpected {c : Char} {p : Nat} {after : Lexer}
    (again : after.next = (.error (.unexpectedCharacter c p), after)) :
    Leaves l (.error (.unexpectedCharacter c p)) after

theorem next_leaves (l : Lexer) : Leaves l l.next.1 l.next.2 := by
  cases outcome : l.next.1 with
  | ok result =>
    cases result with
    | some lexeme => exact .token (next_shorter (Prod.ext outcome rfl))
    | none =>
      rw [next_end (next_none (Prod.ext outcome rfl))]
      exact .ended
  | error e =>
    rcases l.blanks_split with blank | ⟨blanks, c, cs, blank, visible, same⟩
    · rw [next_end blank] at outcome
      cases outcome
    · rw [same, next_blanks blank] at outcome ⊢
      generalize l.position + utf8Width blanks = position at outcome ⊢
      have described := cut_of position c cs
      have next := @next_visible position c cs visible
      generalize cut position c cs = front at described next
      rw [next] at outcome ⊢
      cases described with
      | string | number | word | symbol => cases outcome
      | unterminated =>
        cases outcome
        exact .unterminated
      | @invalidNumber numeral rest unquoted read =>
        cases outcome
        have shorter := length_numeral read
        have whole : (c :: cs).length ≤ (blanks ++ c :: cs).length := by simp
        exact .invalidNumber (Nat.lt_of_lt_of_le shorter whole)
      | unexpected =>
        cases outcome
        exact .unexpected next

/-- An outcome of a lexer that stands `offset` bytes farther on. -/
def shiftedOutcome (offset : Nat) (outcome : Except FilterError (Option Lexeme)) :
    Except FilterError (Option Lexeme) :=
  (outcome.map (Option.map (Lexeme.shifted offset))).mapError (FilterError.shifted offset)

/-- A call depends on the unread text alone, which a new lexer may read as well. -/
theorem next_fresh (l : Lexer) :
    l.next = (shiftedOutcome l.position (ofText (String.ofList l.rest)).next.1,
      (ofText (String.ofList l.rest)).next.2.shifted l.position) := by
  have moved : (ofText (String.ofList l.rest)).shifted l.position = l := by
    simp [ofText, shifted]
  calc l.next = ((ofText (String.ofList l.rest)).shifted l.position).next := by rw [moved]
    _ = _ := next_shifted l.position _

/-! ### Calls in a row -/

/-- The lexer after a number of calls. -/
def later (l : Lexer) (calls : Nat) : Lexer := (fun m : Lexer => m.next.2)^[calls] l

theorem later_succ (l : Lexer) (calls : Nat) : l.later (calls + 1) = l.next.2.later calls :=
  Function.iterate_succ_apply _ calls l

theorem later_add (l : Lexer) (calls more : Nat) :
    l.later (calls + more) = (l.later calls).later more := by
  rw [Nat.add_comm]
  exact Function.iterate_add_apply _ more calls l

theorem later_of_stuck (stuck : l.next.2 = l) (calls : Nat) : l.later calls = l :=
  Function.iterate_fixed stuck calls

/-- At the end of the text nothing else comes any more. -/
theorem next_after_end (position calls : Nat) :
    ((⟨position, []⟩ : Lexer).later calls).next.1 = .ok none := by
  rw [later_of_stuck rfl]
  rfl

/-- The lexemes of a text are what the calls give, up to the first one that gives none. -/
theorem lexemes_calls (l : Lexer) : ∃ ls : List Lexeme, ls.length ≤ l.rest.length ∧
    (∀ i (within : i < ls.length), (l.later i).next.1 = .ok (some ls[i])) ∧
    ((l.later ls.length).next.1 = .ok none ∧ l.lexemes = .ok ls ∨
      ∃ e, (l.later ls.length).next.1 = .error e ∧ l.lexemes = .error e) := by
  fun_induction lexemes l with
  | case1 l cause behind next =>
    exact ⟨[], Nat.zero_le _, by simp, .inr ⟨cause, congrArg Prod.fst next, rfl⟩⟩
  | case2 l behind next =>
    exact ⟨[], Nat.zero_le _, by simp, .inl ⟨congrArg Prod.fst next, rfl⟩⟩
  | case3 l lexeme behind next ih =>
    obtain ⟨ls, bound, calls, last⟩ := ih
    have shorter := next_shorter next
    have moved (i : Nat) : l.later (i + 1) = behind.later i := by rw [later_succ, next]
    refine ⟨lexeme :: ls, by simp only [List.length_cons]; omega, ?_, ?_⟩
    · intro i within
      cases i with
      | zero => exact congrArg Prod.fst next
      | succ i =>
        rw [moved]
        exact calls i (Nat.lt_of_succ_lt_succ within)
    · rw [List.length_cons, moved]
      rcases last with ⟨ended, read⟩ | ⟨e, failed, rejected⟩
      · exact .inl ⟨ended, by rw [read]; rfl⟩
      · exact .inr ⟨e, failed, by rw [rejected]; rfl⟩

end Lexer

/-- What one call of the lexer of a text gives, after some calls, and what that means for all calls
behind it. -/
structure Resumes (text : String) (calls : Nat) (l : Lexer) : Prop where
  /-- The unread text is a suffix of the text, and the place is its byte offset. -/
  suffix : ∃ before : String, text = before ++ String.ofList l.rest ∧
    before.utf8ByteSize = l.position
  /-- A new lexer for the suffix gives the same, with places that are farther in front. -/
  fresh : l.next = (Lexer.shiftedOutcome l.position (Lexer.ofText (String.ofList l.rest)).next.1,
    (Lexer.ofText (String.ofList l.rest)).next.2.shifted l.position)
  /-- A lexeme and a number that is refused take at least one character. -/
  takes : ((∃ lexeme, l.next.1 = .ok (some lexeme)) ∨
      ∃ literal p, l.next.1 = .error (.invalidNumber literal p)) →
    l.next.2.rest.length < l.rest.length
  ended : (l.next.1 = .ok none ∨ ∃ p, l.next.1 = .error (.unterminatedString p)) →
    ∀ more, (Lexer.afterCalls text (calls + 1 + more)).next.1 = .ok none
  stuck : ∀ c p, l.next.1 = .error (.unexpectedCharacter c p) →
    ∀ more, (Lexer.afterCalls text (calls + 1 + more)).next.1 = .error (.unexpectedCharacter c p)

/-- Whatever came before, a lexer goes on as a new one for the unread text would. The calls up to
the first one that gives no lexeme make up the lexemes of the text, and there are at most as many of
them as the text has characters. -/
theorem afterCalls_resumes (text : String) :
    (∀ calls, Resumes text calls (Lexer.afterCalls text calls)) ∧
    ∃ lexemes : List Lexeme, lexemes.length ≤ text.length ∧
      (∀ i (within : i < lexemes.length),
        (Lexer.afterCalls text i).next.1 = .ok (some lexemes[i])) ∧
      ((Lexer.afterCalls text lexemes.length).next.1 = .ok none ∧ tokenize text = .ok lexemes ∨
        ∃ e, (Lexer.afterCalls text lexemes.length).next.1 = .error e ∧
          tokenize text = .error e) := by
  refine ⟨fun calls => ?_, (Lexer.ofText text).lexemes_calls⟩
  have leaves := (Lexer.afterCalls text calls).next_leaves
  have behind (more : Nat) : Lexer.afterCalls text (calls + 1 + more) =
      (Lexer.afterCalls text calls).next.2.later more := by
    rw [← Lexer.later_succ, Nat.add_assoc, Nat.add_comm 1]
    exact (Lexer.ofText text).later_add calls (more + 1)
  refine ⟨?_, Lexer.next_fresh _, ?_, ?_, ?_⟩
  · obtain ⟨before, split, place⟩ := Lexer.afterCalls_standsIn text calls
    refine ⟨String.ofList before, ?_, ?_⟩
    · apply String.toList_inj.mp
      simp [split]
    · rw [← utf8Width_toList, String.toList_ofList, place]
  · rintro (⟨lexeme, outcome⟩ | ⟨literal, p, outcome⟩)
    · rw [outcome] at leaves
      cases leaves with
      | token shorter => exact shorter
    · rw [outcome] at leaves
      cases leaves with
      | invalidNumber shorter => exact shorter
  · intro outcome more
    rw [behind]
    generalize (Lexer.afterCalls text calls).next.2 = next at leaves
    rcases outcome with outcome | ⟨p, outcome⟩
    · rw [outcome] at leaves
      cases leaves
      exact Lexer.next_after_end _ _
    · rw [outcome] at leaves
      cases leaves
      exact Lexer.next_after_end _ _
  · intro c p outcome more
    rw [behind]
    generalize (Lexer.afterCalls text calls).next.2 = next at leaves
    rw [outcome] at leaves
    cases leaves with
    | unexpected again =>
      have stays : next.next.2 = next := congrArg Prod.snd again
      rw [Lexer.later_of_stuck stays, again]

/-- Behind a number that is refused the lexer reads on, and in front of a character that starts no
lexeme it stays. -/
example : (List.range 4).map (fun calls =>
      (Lexer.afterCalls "99999999999999999999y #" calls).next.1) =
    [.error (.invalidNumber "99999999999999999999" 0), .ok (some ⟨.name "y", "y", 20⟩),
      .error (.unexpectedCharacter '#' 22), .error (.unexpectedCharacter '#' 22)] := by
  decide +kernel

end QueryFilter
