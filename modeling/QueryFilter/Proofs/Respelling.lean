import QueryFilter.Proofs.Compilation
import QueryFilter.Proofs.Lexing.Rereading
import QueryFilter.Proofs.Parsing.Joining

/-!
# Spellings

Words and symbols, upper and lower case letters, blanks and places are ways to spell the same
tokens, and two expressions with the same tokens mean the same: `clause_respelled`. Tokens of floats
are the same if the bits are: the texts of `0.0` and `-0.0` are different patterns.
-/

namespace QueryFilter

/-! ### Operators -/

/-- The word of an operator, if it is one word. -/
def Token.word? : Token → Option String
  | .comparison op => some op.word
  | .isIn => some "in"
  | .not => some "not"
  | .and => some "and"
  | .or => some "or"
  | .is => some "is"
  | .null => some "null"
  | _ => none

/-- The symbols that mean the same as the word of a comparison. -/
def Comparison.aliases : Comparison → List String
  | .equal => ["="]
  | .notEqual => ["!=", "<>"]
  | .greater => [">"]
  | .greaterOrEqual => [">="]
  | .less => ["<"]
  | .lessOrEqual => ["<="]
  | .contains => ["*="]
  | .startsWith => ["^="]
  | .endsWith => ["$="]

/-- The symbols of an operator. -/
def Token.aliases : Token → List String
  | .comparison op => op.aliases
  | .isIn => ["=[]"]
  | .notIn => ["!=[]"]
  | .and => ["&&"]
  | .or => ["||"]
  | _ => []

/-- The text spells the operator in front of the given rest: it is its word in any mix of upper and
lower case letters, or one of its symbols, and the rest does not go on with it. -/
inductive Token.SpelledBefore (token : Token) (rest : List Char) : String → Prop where
  | word {word text : String} (isWord : token.word? = some word)
    (letters : text.toList.map Char.toLower = word.toList)
    (ends : ∀ c ∈ rest.head?, isWordPart c = false) : SpelledBefore token rest text
  | symbol {text : String} (known : text ∈ token.aliases)
    (ends : ∀ c ∈ rest.head?, continuesSymbol c = false) : SpelledBefore token rest text

variable {token : Token}

theorem lookup_of_word {word : String} (isWord : token.word? = some word) :
    keywords.lookup word = some token ∧ word ≠ "" ∧ word.toList.all Char.isAlpha := by
  cases token with
  | comparison op =>
    obtain rfl := Option.some.inj isWord
    cases op <;> decide
  | isIn | not | is | null | and | or =>
    obtain rfl := Option.some.inj isWord
    decide
  | _ => cases isWord

theorem isAlpha_of_toLower {c : Char} (letter : c.toLower.isAlpha) : c.isAlpha := by
  by_cases upper : c.val ≥ 0x41 ∧ c.val ≤ 0x5A
  · exact isAlpha_iff.mpr (.inl upper)
  · have unchanged : c.toLower = c := dif_neg upper
    rwa [unchanged] at letter

/-- The word of an operator is that operator for the lexer, in any mix of upper and lower case. -/
theorem wordToken_of_word {word : String} (isWord : token.word? = some word) {cs : List Char}
    (letters : cs.map Char.toLower = word.toList) :
    wordToken cs = token ∧ cs ≠ [] ∧ ∀ c ∈ cs, c.isAlpha := by
  obtain ⟨listed, nonempty, areLetters⟩ := lookup_of_word isWord
  refine ⟨?_, ?_, ?_⟩
  · rw [wordToken, letters, String.ofList_toList, listed, Option.getD_some]
  · rintro rfl
    exact nonempty (String.toList_eq_nil_iff.mp letters.symm)
  · intro c member
    have lower : c.toLower ∈ word.toList := by
      rw [← letters]
      exact List.mem_map_of_mem member
    exact isAlpha_of_toLower (List.all_eq_true.mp areLetters _ lower)

theorem symbol_of_alias {text : String} (known : text ∈ token.aliases) :
    (text.toList, token) ∈ symbols := by
  cases token with
  | comparison op =>
    revert text
    cases op <;> decide
  | name | literal => cases known
  | _ =>
    revert text
    decide

/-- Whatever its spelling, an operator is read as its token. -/
theorem next_of_spelled {rest : List Char} {text : String} (spelled : token.SpelledBefore rest text)
    (position : Nat) : (⟨position, text.toList ++ rest⟩ : Lexer).next =
      (.ok (some ⟨token, text, position⟩), ⟨position + utf8Width text.toList, rest⟩) := by
  have same : String.ofList text.toList = text := String.ofList_toList
  cases spelled with
  | word isWord letters ends =>
    obtain ⟨isToken, nonempty, areLetters⟩ := wordToken_of_word isWord letters
    obtain ⟨c, more, text_eq⟩ := List.exists_cons_of_ne_nil nonempty
    rw [text_eq] at isToken areLetters same ⊢
    obtain ⟨letter, moreLetters⟩ := List.forall_mem_cons.mp areLetters
    have start : isWordStart c := by simp [isWordStart, letter]
    have inside : ∀ d ∈ more, isWordPart d := by
      intro d member
      simp [isWordPart, Char.isAlphanum, moreLetters d member]
    have visible := isBlank_of_isWordPart (isWordPart_of_isWordStart start)
    rw [List.cons_append, Lexer.next_of_cut visible (cut_word start inside ends), isToken, same]
  | symbol known ends =>
    have listed := symbol_of_alias known
    have nonempty : ∀ entry ∈ symbols, entry.1 ≠ [] := by decide
    have text_ne : text.toList ≠ [] := nonempty _ listed
    obtain ⟨c, more, text_eq⟩ := List.exists_cons_of_ne_nil text_ne
    rw [text_eq] at listed same ⊢
    rw [List.cons_append, Lexer.next_of_cut (isBlank_of_symbol listed) (cut_symbol listed ends),
      same]

/-! ### Expressions -/

/-- Two expressions with the same tokens, where `not in` is one token, become the same clause or are
rejected for the same cause, and every spelling of an operator is one token, the same for all. -/
theorem clause_respelled (filter : Filter) :
    (∀ {text other : String} {lexemes others : List Lexeme}, tokenize text = .ok lexemes →
      tokenize other = .ok others →
      joinNotIn (lexemes.map Lexeme.token) = joinNotIn (others.map Lexeme.token) →
      (∃ clause, filter.clause text = .ok clause ∧ filter.clause other = .ok clause) ∨
        ∃ cause otherCause, filter.clause text = .error cause ∧
          filter.clause other = .error otherCause ∧ SameCause cause otherCause) ∧
    ∀ {token : Token} {rest : List Char} {text : String}, token.SpelledBefore rest text →
      ∀ position, (⟨position, text.toList ++ rest⟩ : Lexer).next =
        (.ok (some ⟨token, text, position⟩), ⟨position + utf8Width text.toList, rest⟩) := by
  refine ⟨?_, next_of_spelled⟩
  intro text other lexemes others tokenized otherTokenized alike
  have agree : Agrees Eq (filter.clause text) (filter.clause other) := by
    rw [clause_of_tokens tokenized, clause_of_tokens otherTokenized]
    refine (parseLexemes_respelled filter.limits alike).bind ?_
    rintro expr _ rfl
    exact .of_eq rfl
  generalize accepted : filter.clause text = outcome at agree
  generalize otherAccepted : filter.clause other = otherOutcome at agree
  cases agree with
  | ok same =>
    subst same
    exact .inl ⟨_, rfl, rfl⟩
  | error same => exact .inr ⟨_, _, rfl, rfl, same⟩

/-- A negated list and a comparison, in words and in symbols. -/
theorem clause_respelled_in_symbols :
    ((⟨"t", .any, {}⟩ : Filter).clause "a NoT  iN (1) or b ne 2" = .ok (.nested [
        (.and, .inList (.column "t" "a") [.integer 1] true),
        (.or, .compare (.column "t" "b") .notEqual (.value (.integer 2)))]) ∧
      (⟨"t", .any, {}⟩ : Filter).clause "a!=[](1)||b<>2" =
        (⟨"t", .any, {}⟩ : Filter).clause "a NoT  iN (1) or b ne 2") ∧
      (⟨5, "iN (1)".toList⟩ : Lexer).next =
        (.ok (some ⟨.isIn, "iN", 5⟩), ⟨7, " (1)".toList⟩) := by
  have words : tokenize "a NoT  iN (1) or b ne 2" = .ok [⟨.name "a", "a", 0⟩, ⟨.not, "NoT", 2⟩,
      ⟨.isIn, "iN", 7⟩, ⟨.openParen, "(", 10⟩, ⟨.literal (.integer 1), "1", 11⟩,
      ⟨.closeParen, ")", 12⟩, ⟨.or, "or", 14⟩, ⟨.name "b", "b", 17⟩,
      ⟨.comparison .notEqual, "ne", 19⟩, ⟨.literal (.integer 2), "2", 22⟩] := by decide +kernel
  have symbols : tokenize "a!=[](1)||b<>2" = .ok [⟨.name "a", "a", 0⟩, ⟨.notIn, "!=[]", 1⟩,
      ⟨.openParen, "(", 5⟩, ⟨.literal (.integer 1), "1", 6⟩, ⟨.closeParen, ")", 7⟩, ⟨.or, "||", 8⟩,
      ⟨.name "b", "b", 10⟩, ⟨.comparison .notEqual, "<>", 11⟩,
      ⟨.literal (.integer 2), "2", 13⟩] := by decide +kernel
  have accepted : (⟨"t", .any, {}⟩ : Filter).clause "a NoT  iN (1) or b ne 2" = .ok (.nested [
      (.and, .inList (.column "t" "a") [.integer 1] true),
      (.or, .compare (.column "t" "b") .notEqual (.value (.integer 2)))]) :=
    (clause_of_tokens words).trans rfl
  obtain ⟨alike, spelled⟩ := clause_respelled ⟨"t", .any, {}⟩
  refine ⟨⟨accepted, ?_⟩, ?_⟩
  · rcases alike words symbols rfl with ⟨clause, first, second⟩ | ⟨cause, _, rejected, -⟩
    · rw [first, second]
    · rw [accepted] at rejected
      cases rejected
  · have word : Token.SpelledBefore .isIn " (1)".toList "iN" :=
      .word rfl (by decide) (by rintro c ⟨⟩; rfl)
    exact spelled word 5

end QueryFilter
