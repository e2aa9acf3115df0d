import QueryFilter.Proofs.Binary64.Overflow
import QueryFilter.Proofs.Lexing.Rereading
import QueryFilter.Proofs.Source

/-!
# Null among the bindings

An integer that does not fit its type is refused, but a decimal that no finite number is near enough
to is read, as an infinite number, for which a query binds null. `null_mem_bindings_iff` says which
literals that happens to: the text of such a decimal as a pattern to look for is bound as a text.
-/

namespace QueryFilter

/-- The text is that of a decimal which is rounded to no finite number. -/
def Overflows (text : String) : Prop :=
  ∃ n : Numeral, n.Proper ∧ n.fraction ≠ [] ∧ text.toList = n.text ∧
    Binary64.overflowBound * 10 ^ n.fraction.length ≤ Nat.ofDigitChars 10 (n.digits ++ n.fraction) 0

/-! ### Decimals -/

theorem Numeral.literal_float_iff {n : Numeral} {x : Binary64} :
    n.literal? = some (.float x) ↔ n.fraction ≠ [] ∧ Binary64.ofDecimal n.negative
      (Nat.ofDigitChars 10 (n.digits ++ n.fraction) 0) n.fraction.length = x := by
  unfold Numeral.literal?
  split
  · split <;> simp_all
  · simp_all

theorem wordToken_not_literal (word : List Char) (value : Literal) :
    wordToken word ≠ .literal value := by
  unfold wordToken
  cases found : keywords.lookup (String.ofList (word.map Char.toLower)) with
  | none => simp
  | some token =>
    obtain ⟨before, after, same, -⟩ := List.lookup_eq_some_iff.mp found
    have noLiteral : ∀ entry ∈ keywords, entry.2.literal? = none := by decide
    rintro rfl
    rw [same] at noLiteral
    cases noLiteral _ (List.mem_append_right _ List.mem_cons_self)

theorem symbol_not_literal {symbol : List Char} {token : Token} (listed : (symbol, token) ∈ symbols)
    (value : Literal) : token ≠ .literal value := by
  have noLiteral : ∀ entry ∈ symbols, entry.2.literal? = none := by decide
  rintro rfl
  cases noLiteral _ listed

/-- Only a sign or a digit starts a numeral. -/
theorem numeral_start {c : Char} {cs : List Char} {result : Numeral × List Char}
    (read : numeral? (c :: cs) = some result) :
    Text.isBlank c = false ∧ ¬(c = '"' ∨ c = '\x27') := by
  have start : c = '-' ∨ c.isDigit := by
    by_contra neither
    obtain ⟨noSign, noDigit⟩ := not_or.mp neither
    rw [numeral_none noSign (Bool.eq_false_of_not_eq_true noDigit)] at read
    cases read
  rcases start with rfl | digit
  · decide
  · refine ⟨isBlank_of_isDigit digit, ?_⟩
    rintro (rfl | rfl) <;> cases digit

/-- The text of a numeral is read as that numeral, and starts no lexeme of another kind. -/
theorem numeral_alone {n : Numeral} (proper : n.Proper) : ∃ c cs, n.text = c :: cs ∧
    Text.isBlank c = false ∧ ¬(c = '"' ∨ c = '\x27') ∧ numeral? (c :: cs) = some (n, []) := by
  have number := numeral_text proper (n.endsAt_of_boundary boundary_nil)
  obtain ⟨c, cs, text_cons⟩ := List.exists_cons_of_ne_nil (Numeral.text_ne_nil proper)
  rw [text_cons, List.append_nil] at number
  obtain ⟨visible, unquoted⟩ := numeral_start number
  exact ⟨c, cs, text_cons, visible, unquoted, number⟩

namespace Lexer

variable {l after : Lexer} {lexeme : Lexeme}

/-- A float is read off a numeral. -/
theorem next_float (read : l.next = (.ok (some lexeme), after)) {x : Binary64}
    (isFloat : lexeme.token = .literal (.float x)) :
    ∃ n : Numeral, n.Proper ∧ lexeme.text.toList = n.text ∧ n.literal? = some (.float x) := by
  obtain ⟨position, c, cs, text, rest, text_eq, described⟩ := next_cut read
  rw [isFloat] at described
  rw [text_eq, String.toList_ofList]
  generalize cut_eq : Cut.mk (.ok (.literal (.float x))) text rest = front at described
  cases described with
  | string | unterminated | invalidNumber | unexpected => cases cut_eq
  | word => exact absurd (Except.ok.inj (Cut.mk.inj cut_eq).1).symm (wordToken_not_literal _ _)
  | symbol _ _ _ found =>
    cases cut_eq
    exact absurd rfl (symbol_not_literal (symbol_ok found).1 _)
  | number _ number fits =>
    cases cut_eq
    exact ⟨_, (numeral_ok number).1, rfl, fits⟩

/-- A lexeme with the text of a numeral is the literal of that numeral. -/
theorem next_numeral (read : l.next = (.ok (some lexeme), after)) {n : Numeral}
    (proper : n.Proper) (text_eq : lexeme.text.toList = n.text) :
    ∃ value, n.literal? = some value ∧ lexeme.token = .literal value := by
  have again := (next_ok read).again 0 [] boundary_nil
  obtain ⟨c, cs, text_cons, visible, unquoted, number⟩ := numeral_alone proper
  rw [text_eq, text_cons, List.append_nil, next_visible visible] at again
  cases fits : n.literal? with
  | none =>
    rw [(Cut.Of.invalidNumber unquoted number fits).eq] at again
    cases again
  | some value =>
    rw [(Cut.Of.number unquoted number fits).eq] at again
    obtain ⟨token, isToken, same⟩ := map_ok (Prod.mk.inj again).1
    cases isToken
    exact ⟨value, rfl, (congrArg Lexeme.token (Option.some.inj same)).symm⟩

theorem next_infinite_iff (read : l.next = (.ok (some lexeme), after)) {x : Binary64}
    (isFloat : lexeme.token = .literal (.float x)) :
    x.isFinite = false ↔ Overflows lexeme.text := by
  constructor
  · intro infinite
    obtain ⟨n, proper, text_eq, literal⟩ := next_float read isFloat
    obtain ⟨point, rfl⟩ := Numeral.literal_float_iff.mp literal
    exact ⟨n, proper, point, text_eq, (Binary64.isFinite_ofDecimal _ _ _).mp infinite⟩
  · rintro ⟨n, proper, point, text_eq, beyond⟩
    obtain ⟨value, literal, isValue⟩ := next_numeral read proper text_eq
    obtain rfl := Token.literal.inj (isFloat.symm.trans isValue)
    obtain ⟨-, rfl⟩ := Numeral.literal_float_iff.mp literal
    exact (Binary64.isFinite_ofDecimal _ _ _).mpr beyond

theorem next_overflows (read : l.next = (.ok (some lexeme), after))
    (overflows : Overflows lexeme.text) :
    ∃ x : Binary64, lexeme.token = .literal (.float x) ∧ x.isFinite = false := by
  obtain ⟨n, proper, point, text_eq, -⟩ := id overflows
  obtain ⟨value, literal, isValue⟩ := next_numeral read proper text_eq
  obtain rfl := Option.some.inj (literal.symm.trans (Numeral.literal_float_iff.mpr ⟨point, rfl⟩))
  exact ⟨_, isValue, (next_infinite_iff read isValue).mpr overflows⟩

end Lexer

theorem toJson_null_iff {value : Literal} :
    value.toJson = .null ↔ ∃ x : Binary64, value = .float x ∧ x.isFinite = false := by
  cases value with
  | integer n => simp [Literal.toJson]
  | float x => cases h : x.isFinite <;> simp [Literal.toJson, h]
  | string s => simp [Literal.toJson]

/-! ### Literals that are bound as they are -/

/-- An operator that looks for its right side as a text. -/
def Token.seeks : Token → Bool
  | .comparison op => op.relation.2.isSome
  | _ => false

/-- The literals with no operator that seeks them directly in front, where `sought` says if there is
one in front of the tokens. -/
def plainLiterals (sought : Bool) : List Token → List Literal
  | [] => []
  | token :: tokens =>
    (if sought then [] else token.literal?.toList) ++ plainLiterals token.seeks tokens

theorem literal_eq_some_iff {token : Token} {value : Literal} :
    token.literal? = some value ↔ token = .literal value := by
  cases token <;> simp [Token.literal?]

theorem mem_plainLiterals_iff {value : Literal} {tokens : List Token} {sought : Bool} :
    value ∈ plainLiterals sought tokens ↔ ∃ before after : List Token,
      tokens = before ++ .literal value :: after ∧
        (before.getLast?.map Token.seeks).getD sought = false := by
  induction tokens generalizing sought with
  | nil => simp [plainLiterals]
  | cons token tokens ih =>
    have last (before : List Token) : (((token :: before).getLast?.map Token.seeks).getD sought) =
        (before.getLast?.map Token.seeks).getD token.seeks := by
      cases h : before.getLast? <;> simp [List.getLast?_cons, h]
    have first : value ∈ (if sought then [] else token.literal?.toList) ↔
        sought = false ∧ token = .literal value := by
      cases sought <;> simp [literal_eq_some_iff]
    rw [plainLiterals, List.mem_append, first, ih]
    constructor
    · rintro (⟨unsought, rfl⟩ | ⟨before, after, rfl, unsought⟩)
      · exact ⟨[], tokens, rfl, unsought⟩
      · exact ⟨token :: before, after, rfl, (last before).trans unsought⟩
    · rintro ⟨before, after, same, unsought⟩
      cases before with
      | nil => exact .inl ⟨unsought, (List.cons.inj same).1⟩
      | cons other before =>
        obtain ⟨rfl, rest⟩ := List.cons.inj same
        exact .inr ⟨before, after, rest, (last before).symm.trans unsought⟩

theorem plainLiterals_append {front : List Token} (uncompared : Uncompared front)
    (rest : List Token) :
    plainLiterals false (front ++ rest) =
      front.filterMap Token.literal? ++ plainLiterals false rest := by
  induction front with
  | nil => rfl
  | cons token front ih =>
    have uncomparedRest : Uncompared front :=
      fun op member => uncompared op (List.mem_cons_of_mem _ member)
    have noOperator : token.seeks = false := by
      cases token with
      | comparison op => exact absurd List.mem_cons_self (uncompared op)
      | _ => rfl
    rw [List.cons_append, plainLiterals, noOperator, ih uncomparedRest, List.filterMap_cons]
    cases token.literal? <;> rfl

/-- The literal that is bound as it is. -/
def Bound.plain? : Bound → Option Literal
  | .literal value => some value
  | .sought op value => if op.relation.2.isSome then none else some value
  | .percent => none

theorem Bound.value_null_iff (bound : Bound) : bound.value.toJson = .null ↔
    ∃ value, bound.plain? = some value ∧ value.toJson = .null := by
  cases bound with
  | literal value => simp [Bound.value, Bound.plain?]
  | percent => simp [Bound.value, Bound.plain?, Literal.toJson]
  | sought op value =>
    cases op <;> simp [Bound.value, Bound.plain?, Comparison.relation, Literal.toJson]

theorem plain_literalBounds (tokens : List Token) :
    (literalBounds tokens).filterMap Bound.plain? = tokens.filterMap Token.literal? :=
  filterMap_literalBounds (fun _ => rfl) tokens

theorem plainLiterals_right (op : Comparison) (operand : Operand) (rest : List Token) :
    plainLiterals op.relation.2.isSome (operand.tokens ++ rest) =
      (rightBounds op operand.tokens).filterMap Bound.plain? ++ plainLiterals false rest := by
  have around (bounds : List Bound) :
      (Bound.around op bounds).filterMap Bound.plain? = bounds.filterMap Bound.plain? := by
    cases op <;> simp [Bound.around, Bound.plain?, List.filterMap_cons]
  -- A name stands between the operator and the literals of a call.
  have named (name : String) (tokens : List Token) : plainLiterals op.relation.2.isSome
      (.name name :: tokens) = plainLiterals false (.name name :: tokens) := by
    cases op <;> rfl
  cases operand with
  | literal value => cases op <;> rfl
  | field name =>
    rw [rightBounds_computed (by simp), around, plain_literalBounds,
      ← plainLiterals_append (uncompared_operand (.field name))]
    exact named name rest
  | call name args =>
    rw [rightBounds_computed (by simp), around, plain_literalBounds,
      ← plainLiterals_append (uncompared_operand (.call name args))]
    exact named name _

theorem plainLiterals_spells {tokens : List Token} {expr : Expr} (spelled : Spells tokens expr)
    (rest : List Token) : plainLiterals false (tokens ++ rest) =
      expr.bounds.filterMap Bound.plain? ++ plainLiterals false rest := by
  induction spelled generalizing rest with
  | comparison left op right =>
    have behind := plainLiterals_right op right rest
    rw [List.append_assoc, plainLiterals_append (uncompared_operand left), ← plain_literalBounds,
      Expr.bounds, List.filterMap_append, List.append_assoc, ← behind]
    rfl
  | inList field membership values =>
    have listed := plainLiterals_append (uncompared_listTokens values) rest
    rw [← plain_literalBounds, literalBounds_listTokens] at listed
    cases membership with
    | _ => simpa [plainLiterals, Token.seeks, Token.literal?, Expr.bounds] using listed
  | isNull field negated => cases negated <;> rfl
  | and _ _ ihLeft ihRight =>
    rw [List.append_assoc, ihLeft, Expr.bounds, List.filterMap_append, List.append_assoc, ← ihRight]
    rfl
  | or _ _ ihLeft ihRight =>
    rw [List.append_assoc, ihLeft, Expr.bounds, List.filterMap_append, List.append_assoc, ← ihRight]
    rfl
  | group _ ih =>
    have inside := ih (.closeParen :: rest)
    rw [List.append_assoc]
    exact inside

/-- In tokens that spell an expression the values that become null are plain literals. -/
theorem null_bound_iff {tokens : List Token} {expr : Expr} (spelled : Spells tokens expr) :
    (∃ bound ∈ expr.bounds, bound.value.toJson = .null) ↔
      ∃ (before : List Token) (value : Literal) (after : List Token),
      tokens = before ++ .literal value :: after ∧ value.toJson = .null ∧
        ∀ token ∈ before.getLast?, token.seeks = false := by
  have plain := plainLiterals_spells spelled []
  rw [List.append_nil, plainLiterals, List.append_nil] at plain
  have last (before : List Token) : (before.getLast?.map Token.seeks).getD false = false ↔
      ∀ token ∈ before.getLast?, token.seeks = false := by
    cases before.getLast? <;> simp
  calc (∃ bound ∈ expr.bounds, bound.value.toJson = .null)
      ↔ ∃ value ∈ expr.bounds.filterMap Bound.plain?, value.toJson = .null := by
        simp only [Bound.value_null_iff, List.mem_filterMap]
        tauto
    _ ↔ _ := by
        rw [← plain]
        simp only [mem_plainLiterals_iff, last]
        tauto

/-- Read off lexemes instead of their tokens, these literals are the decimals that overflow. -/
theorem null_lexeme_iff {lexemes : List Lexeme}
    (reads : ∀ l ∈ lexemes, ∃ start stop : Lexer, start.next = (.ok (some l), stop)) :
    (∃ (before : List Token) (value : Literal) (after : List Token),
      lexemes.map Lexeme.token = before ++ .literal value :: after ∧
      value.toJson = .null ∧ ∀ token ∈ before.getLast?, token.seeks = false) ↔
    ∃ (before : List Lexeme) (l : Lexeme) (after : List Lexeme), lexemes = before ++ l :: after ∧
      Overflows l.text ∧ ∀ previous ∈ before.getLast?, previous.token.seeks = false := by
  constructor
  · rintro ⟨before, value, after, same, isNull, unsought⟩
    obtain ⟨front, rest, rfl, rfl, behind⟩ := List.map_eq_append_iff.mp same
    obtain ⟨l, back, rfl, isValue, rfl⟩ := List.map_eq_cons_iff.mp behind
    obtain ⟨x, rfl, infinite⟩ := toJson_null_iff.mp isNull
    obtain ⟨start, stop, read⟩ := reads l (by simp)
    refine ⟨front, l, back, rfl, (Lexer.next_infinite_iff read isValue).mp infinite, ?_⟩
    simpa using unsought
  · rintro ⟨front, l, back, rfl, overflows, unsought⟩
    obtain ⟨start, stop, read⟩ := reads l (by simp)
    obtain ⟨x, isFloat, infinite⟩ := Lexer.next_overflows read overflows
    refine ⟨front.map Lexeme.token, .float x, back.map Lexeme.token, by simp [isFloat],
      toJson_null_iff.mpr ⟨x, rfl, infinite⟩, ?_⟩
    simpa using unsought

/-! ### Queries -/

/-- A decimal is read as a number that is not finite exactly if it overflows, and for it null is
bound exactly if no `ct`, `sw` or `ew` stands directly in front of it. For no other literal is null
bound. -/
theorem null_mem_bindings_iff {text : String} {lexemes : List Lexeme}
    (tokenized : tokenize text = .ok lexemes) :
    (∀ l ∈ lexemes, ∀ x : Binary64, l.token = .literal (.float x) →
      x.isNaN = false ∧ (x.isFinite = false ↔ Overflows l.text)) ∧
    ∀ (filter : Filter) (table : String) (dialect : Dialect) (query : Query),
      filter.addTo text (⟨table, dialect, []⟩ : Query) = (.ok (), query) →
        (.null ∈ query.bindings ↔ ∃ (before : List Lexeme) (l : Lexeme) (after : List Lexeme),
          lexemes = before ++ l :: after ∧ Overflows l.text ∧
            ∀ previous ∈ before.getLast?, previous.token.seeks = false) := by
  have reads := Lexer.next_of_mem tokenized
  constructor
  · intro l member x isFloat
    obtain ⟨start, stop, read⟩ := reads l member
    obtain ⟨n, -, -, literal⟩ := Lexer.next_float read isFloat
    obtain ⟨-, rfl⟩ := Numeral.literal_float_iff.mp literal
    exact ⟨Binary64.isNaN_ofDecimal _ _ _, Lexer.next_infinite_iff read isFloat⟩
  · intro filter table dialect query added
    cases accepted : filter.clause text with
    | error e =>
      rw [Filter.addTo, accepted] at added
      cases added
    | ok clause =>
      obtain ⟨expr, allowed, compiled⟩ := clause_ok_iff.mp accepted
      obtain ⟨read, isRead, parsed⟩ := bind_ok (expr_ok_iff.mp allowed).1
      obtain rfl := Except.ok.inj (tokenized.symm.trans isRead)
      obtain rfl := (Prod.mk.inj ((addTo_ok accepted _).symm.trans added)).2
      have bindings := bindings_one_clause table dialect clause
      rw [toClause_values compiled, List.map_map] at bindings
      rw [← null_lexeme_iff reads, ← null_bound_iff (spells_of_parseLexemes parsed).1]
      exact (iff_of_eq (congrArg (Json.null ∈ ·) bindings)).trans List.mem_map

/-- A one with 309 zeros behind it, as a decimal. -/
def tenTo309 : List Char := '1' :: List.replicate 309 '0' ++ ['.', '0']

theorem overflows_tenTo309 : Overflows (String.ofList tenTo309) := by
  have zeros : ∀ c ∈ List.replicate 309 '0', c.isDigit := by
    intro c member
    rw [List.eq_of_mem_replicate member]
    rfl
  have proper : (⟨false, '1' :: List.replicate 309 '0', ['0']⟩ : Numeral).Proper :=
    ⟨List.cons_ne_nil _ _, List.forall_mem_cons.mpr ⟨rfl, zeros⟩, List.forall_mem_singleton.mpr rfl⟩
  refine ⟨_, proper, List.cons_ne_nil _ _, String.toList_ofList, ?_⟩
  decide +kernel

theorem null_mem_bindings_iff_in_list :
    tokenize ("x in (" ++ String.ofList tenTo309 ++ ")") = .ok [⟨.name "x", "x", 0⟩,
        ⟨.isIn, "in", 2⟩, ⟨.openParen, "(", 5⟩,
        ⟨.literal (.float ⟨0x7FF0000000000000⟩), String.ofList tenTo309, 6⟩,
        ⟨.closeParen, ")", 318⟩] ∧
      ∃ query : Query, (⟨"t", .any, {}⟩ : Filter).addTo ("x in (" ++ String.ofList tenTo309 ++ ")")
        (⟨"t", .mysql, []⟩ : Query) = (.ok (), query) ∧ .null ∈ query.bindings := by
  have chars : ("x in (" ++ String.ofList tenTo309 ++ ")").toList =
      "x in (".toList ++ tenTo309 ++ [')'] := by simp
  have tokenized : tokenize ("x in (" ++ String.ofList tenTo309 ++ ")") = .ok [⟨.name "x", "x", 0⟩,
      ⟨.isIn, "in", 2⟩, ⟨.openParen, "(", 5⟩,
      ⟨.literal (.float ⟨0x7FF0000000000000⟩), String.ofList tenTo309, 6⟩,
      ⟨.closeParen, ")", 318⟩] := by
    rw [tokenize, Lexer.ofText, chars]
    decide +kernel
  have accepted : (⟨"t", .any, {}⟩ : Filter).clause ("x in (" ++ String.ofList tenTo309 ++ ")") =
      .ok (.inList (.column "t" "x") [.float ⟨0x7FF0000000000000⟩] false) :=
    (clause_of_tokens tokenized).trans rfl
  have added := addTo_ok accepted (⟨"t", .mysql, []⟩ : Query)
  refine ⟨tokenized, _, added, ?_⟩
  refine ((null_mem_bindings_iff tokenized).2 _ _ _ _ added).mpr
    ⟨[_, _, _], _, [_], rfl, overflows_tenTo309, ?_⟩
  rintro previous ⟨⟩
  rfl

/-- A decimal that does not fit its type is no error: the query that it is for binds null. -/
theorem null_bound_for_decimal : ∃ query : Query,
    (⟨"t", .any, {}⟩ : Filter).addTo ("x eq " ++ String.ofList tenTo309)
      (⟨"t", .postgres, []⟩ : Query) = (.ok (), query) ∧ query.bindings = [.null] := by
  have chars : ("x eq " ++ String.ofList tenTo309).toList = "x eq ".toList ++ tenTo309 := by simp
  have tokenized : tokenize ("x eq " ++ String.ofList tenTo309) = .ok [⟨.name "x", "x", 0⟩,
      ⟨.comparison .equal, "eq", 2⟩,
      ⟨.literal (.float ⟨0x7FF0000000000000⟩), String.ofList tenTo309, 5⟩] := by
    rw [tokenize, Lexer.ofText, chars]
    decide +kernel
  have accepted : (⟨"t", .any, {}⟩ : Filter).clause ("x eq " ++ String.ofList tenTo309) =
      .ok (.compare (.column "t" "x") .equal (.value (.float ⟨0x7FF0000000000000⟩))) :=
    (clause_of_tokens tokenized).trans rfl
  have infinite : (⟨0x7FF0000000000000⟩ : Binary64).isFinite = false := by decide +kernel
  refine ⟨_, addTo_ok accepted _, ?_⟩
  calc (⟨"t", .postgres, [_]⟩ : Query).bindings
      = [(Literal.float ⟨0x7FF0000000000000⟩).toJson] := bindings_one_clause "t" .postgres _
    _ = [.null] := congrArg (List.cons · []) (toJson_null_iff.mpr ⟨_, rfl, infinite⟩)

end QueryFilter
