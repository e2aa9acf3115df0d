import QueryFilter.Proofs.Parsing
import QueryFilter.Proofs.Sql.Rendering

/-!
# From the source to the query

The columns and the bindings of a query can be read off the tokens of its filter, without a parser:
`addTo_source`.
-/

namespace QueryFilter

/-! ### Reading tokens -/

/-- The names that no parenthesis follows. -/
def sourceFields : List Token → List String
  | [] => []
  | .name _ :: .openParen :: tokens => sourceFields tokens
  | .name field :: tokens => field :: sourceFields tokens
  | _ :: tokens => sourceFields tokens

def Token.literal? : Token → Option Literal
  | .literal value => some value
  | _ => none

/-- A value to bind and its origin in the source: a literal, a literal that is the whole right side
of a comparison, or the percent sign of a pattern that the query puts together. -/
inductive Bound where
  | literal (value : Literal)
  | sought (op : Comparison) (value : Literal)
  | percent

namespace Bound

def source? : Bound → Option Literal
  | .literal value => some value
  | .sought _ value => some value
  | .percent => none

def value : Bound → Literal
  | .literal value => value
  | .sought .contains value => .string ("%" ++ value.text ++ "%")
  | .sought .startsWith value => .string (value.text ++ "%")
  | .sought .endsWith value => .string ("%" ++ value.text)
  | .sought _ value => value
  | .percent => .string "%"

/-- The values of a comparison's right side, given those of the literals in it. -/
def around (op : Comparison) (bounds : List Bound) : List Bound :=
  match op with
  | .contains => .percent :: bounds ++ [.percent]
  | .startsWith => bounds ++ [.percent]
  | .endsWith => .percent :: bounds
  | _ => bounds

end Bound

def literalBounds (tokens : List Token) : List Bound := (tokens.filterMap Token.literal?).map .literal

def rightBounds (op : Comparison) : List Token → List Bound
  | [.literal value] => [.sought op value]
  | tokens => Bound.around op (literalBounds tokens)

/-- The tokens before the next connective or unmatched closing parenthesis, and those from there
on. -/
def splitOperand : Nat → List Token → List Token × List Token
  | _, [] => ([], [])
  | _, .and :: tokens => ([], .and :: tokens)
  | _, .or :: tokens => ([], .or :: tokens)
  | 0, .closeParen :: tokens => ([], .closeParen :: tokens)
  | depth + 1, .closeParen :: tokens =>
    (.closeParen :: (splitOperand depth tokens).1, (splitOperand depth tokens).2)
  | depth, .openParen :: tokens =>
    (.openParen :: (splitOperand (depth + 1) tokens).1, (splitOperand (depth + 1) tokens).2)
  | depth, token :: tokens =>
    (token :: (splitOperand depth tokens).1, (splitOperand depth tokens).2)

theorem splitOperand_parts (depth : Nat) (tokens : List Token) :
    (splitOperand depth tokens).1 ++ (splitOperand depth tokens).2 = tokens := by
  fun_induction splitOperand depth tokens with
  | case1 | case2 | case3 | case4 => rfl
  | case5 depth tokens ih | case6 depth tokens ih => rw [List.cons_append, ih]
  | case7 depth token tokens _ _ _ _ _ ih => rw [List.cons_append, ih]

theorem length_splitOperand (depth : Nat) (tokens : List Token) :
    (splitOperand depth tokens).2.length ≤ tokens.length := by
  have parts := congrArg List.length (splitOperand_parts depth tokens)
  rw [List.length_append] at parts
  omega

/-- The values to bind for an expression, in source order. -/
def sourceBounds : List Token → List Bound
  | [] => []
  | .literal value :: tokens => .literal value :: sourceBounds tokens
  | .comparison op :: tokens =>
    rightBounds op (splitOperand 0 tokens).1 ++ sourceBounds (splitOperand 0 tokens).2
  | _ :: tokens => sourceBounds tokens
termination_by tokens => tokens.length
decreasing_by
  · exact Nat.lt_add_one _
  · exact Nat.lt_succ_of_le (length_splitOperand 0 tokens)
  · exact Nat.lt_add_one _

/-! ### One value for each literal -/

theorem filterMap_literalBounds {f : Bound → Option Literal}
    (each : ∀ value, f (.literal value) = some value) (tokens : List Token) :
    (literalBounds tokens).filterMap f = tokens.filterMap Token.literal? := by
  have composed : f ∘ Bound.literal = some := funext each
  rw [literalBounds, List.filterMap_map, composed, List.filterMap_some]

theorem sources_rightBounds (op : Comparison) (tokens : List Token) :
    (rightBounds op tokens).filterMap Bound.source? = tokens.filterMap Token.literal? := by
  unfold rightBounds
  split
  · rfl
  · have each (value : Literal) : (Bound.literal value).source? = some value := rfl
    rw [← filterMap_literalBounds each]
    cases op <;> simp [Bound.around, Bound.source?, List.filterMap_cons]

/-- Without the percent signs the values to bind are the literals of the source, one for each, in
order. -/
theorem sources_sourceBounds (tokens : List Token) :
    (sourceBounds tokens).filterMap Bound.source? = tokens.filterMap Token.literal? := by
  fun_induction sourceBounds tokens with
  | case1 => rfl
  | case2 value tokens ih => simp [Bound.source?, Token.literal?, ih]
  | case3 op tokens ih =>
    have parts := splitOperand_parts 0 tokens
    rw [List.filterMap_append, sources_rightBounds, ih, ← List.filterMap_append, parts]
    rfl
  | case4 token tokens notLiteral notComparison ih =>
    cases token with
    | literal value => exact absurd rfl (notLiteral value)
    | _ => exact ih

/-! ### Operands -/

/-- Where an operand may end: at the end, at a connective or at a parenthesis that closes a group. -/
inductive StopsOperand : List Token → Prop where
  | nil : StopsOperand []
  | and (tokens : List Token) : StopsOperand (.and :: tokens)
  | or (tokens : List Token) : StopsOperand (.or :: tokens)
  | closeParen (tokens : List Token) : StopsOperand (.closeParen :: tokens)

theorem StopsOperand.split {rest : List Token} (ends : StopsOperand rest) :
    splitOperand 0 rest = ([], rest) := by
  cases ends <;> rfl

theorem StopsOperand.not_openParen {rest : List Token} (ends : StopsOperand rest) :
    rest.head? ≠ some .openParen := by
  cases ends <;> simp

/-- An operand that starts with the tokens goes on behind them. -/
def Unsplit (tokens : List Token) : Prop :=
  ∀ (depth : Nat) (rest : List Token), splitOperand depth (tokens ++ rest) =
    (tokens ++ (splitOperand depth rest).1, (splitOperand depth rest).2)

theorem Unsplit.append {front back : List Token} (first : Unsplit front) (second : Unsplit back) :
    Unsplit (front ++ back) := by
  intro depth rest
  rw [List.append_assoc, first, second, List.append_assoc]

theorem Unsplit.parens {tokens : List Token} (inside : Unsplit tokens) :
    Unsplit (.openParen :: tokens ++ [.closeParen]) := by
  intro depth rest
  have closed : splitOperand (depth + 1) (.closeParen :: rest) =
      (.closeParen :: (splitOperand depth rest).1, (splitOperand depth rest).2) := rfl
  rw [List.cons_append, List.cons_append, List.append_assoc, List.singleton_append, splitOperand,
    inside, closed]
  simp

theorem unsplit_operand (operand : Operand) : Unsplit operand.tokens := by
  induction operand using Operand.induction with
  | field name => exact fun _ _ => rfl
  | literal value => exact fun _ _ => rfl
  | call name args ih =>
    have called : Unsplit [.name name] := fun _ _ => rfl
    have inside : Unsplit (separated (args.map Operand.tokens)) := by
      apply separated_induction (fun _ _ => rfl) (fun _ _ => rfl) Unsplit.append
      intro item member
      obtain ⟨arg, present, rfl⟩ := List.mem_map.mp member
      exact ih arg present
    rw [Operand.tokens_call]
    exact called.append inside.parens

theorem splitOperand_right (operand : Operand) {rest : List Token} (ends : StopsOperand rest) :
    splitOperand 0 (operand.tokens ++ rest) = (operand.tokens, rest) := by
  rw [unsplit_operand operand, ends.split, List.append_nil]

/-- No comparison stands in the tokens, so every literal in them is bound as it is. -/
def Uncompared (tokens : List Token) : Prop := ∀ op, .comparison op ∉ tokens

theorem Uncompared.append {front back : List Token} (first : Uncompared front)
    (second : Uncompared back) : Uncompared (front ++ back) := by
  intro op member
  rcases List.mem_append.mp member with early | late
  · exact first op early
  · exact second op late

theorem uncompared_separated {items : List (List Token)}
    (uncompared : ∀ item ∈ items, Uncompared item) : Uncompared (separated items) := by
  have nil : Uncompared [] := by simp [Uncompared]
  have comma : Uncompared [.comma] := by simp [Uncompared]
  exact separated_induction nil comma Uncompared.append uncompared

theorem Uncompared.parens {tokens : List Token} (inside : Uncompared tokens) :
    Uncompared (.openParen :: tokens ++ [.closeParen]) := by
  have opened : Uncompared [.openParen] := by simp [Uncompared]
  have closed : Uncompared [.closeParen] := by simp [Uncompared]
  exact (opened.append inside).append closed

theorem uncompared_operand (operand : Operand) : Uncompared operand.tokens := by
  induction operand using Operand.induction with
  | field name => simp [Uncompared, Operand.tokens]
  | literal value => simp [Uncompared, Operand.tokens]
  | call name args ih =>
    have called : Uncompared [.name name] := by simp [Uncompared]
    have inside : Uncompared (separated (args.map Operand.tokens)) := by
      apply uncompared_separated
      intro item member
      obtain ⟨arg, present, rfl⟩ := List.mem_map.mp member
      exact ih arg present
    rw [Operand.tokens_call]
    exact called.append inside.parens

theorem uncompared_listTokens (values : List Literal) : Uncompared (listTokens values) := by
  apply Uncompared.parens
  apply uncompared_separated
  intro item member
  obtain ⟨value, -, rfl⟩ := List.mem_map.mp member
  simp [Uncompared]

theorem sourceBounds_append {front : List Token} (uncompared : Uncompared front)
    (rest : List Token) :
    sourceBounds (front ++ rest) = literalBounds front ++ sourceBounds rest := by
  induction front with
  | nil => rfl
  | cons token front ih =>
    have uncomparedRest : Uncompared front :=
      fun op member => uncompared op (List.mem_cons_of_mem _ member)
    cases token with
    | comparison op => exact absurd List.mem_cons_self (uncompared op)
    | literal value =>
      rw [List.cons_append, sourceBounds, ih uncomparedRest]
      rfl
    | _ =>
      rw [List.cons_append, sourceBounds, ih uncomparedRest]
      · rfl
      all_goals simp

/-! ### Expressions -/

def Expr.bounds : Expr → List Bound
  | .comparison left op right => literalBounds left.tokens ++ rightBounds op right.tokens
  | .inList _ _ values => values.map .literal
  | .isNull .. => []
  | .and left right => left.bounds ++ right.bounds
  | .or left right => left.bounds ++ right.bounds
  | .group inner => inner.bounds

theorem literalBounds_listTokens (values : List Literal) :
    literalBounds (listTokens values) = values.map .literal := by
  have inside : (separated (values.map fun value => [.literal value])).filterMap Token.literal? =
      values := by
    rw [filterMap_separated rfl, List.flatMap_map]
    exact List.flatMap_singleton' values
  rw [literalBounds, listTokens, List.cons_append, List.filterMap_cons, List.filterMap_append, inside]
  simp [Token.literal?]

-- Something may follow the expression, so that the induction passes through joiners and groups.
theorem sourceBounds_spells {tokens : List Token} {expr : Expr} (spelled : Spells tokens expr)
    {rest : List Token} (ends : StopsOperand rest) :
    sourceBounds (tokens ++ rest) = expr.bounds ++ sourceBounds rest := by
  induction spelled generalizing rest with
  | comparison left op right =>
    rw [List.append_assoc, List.cons_append,
      sourceBounds_append (uncompared_operand left), sourceBounds, splitOperand_right right ends,
      Expr.bounds, List.append_assoc]
  | inList field membership values =>
    have listed := sourceBounds_append (uncompared_listTokens values) rest
    rw [literalBounds_listTokens] at listed
    cases membership with
    | _ => simpa [sourceBounds, Expr.bounds] using listed
  | isNull field negated =>
    cases negated <;> simp [nullWords, sourceBounds, Expr.bounds]
  | and _ _ ihLeft ihRight =>
    rw [List.append_assoc, List.cons_append, ihLeft (.and _), sourceBounds, ihRight ends,
      Expr.bounds, List.append_assoc]
    all_goals simp
  | or _ _ ihLeft ihRight =>
    rw [List.append_assoc, List.cons_append, ihLeft (.or _), sourceBounds, ihRight ends,
      Expr.bounds, List.append_assoc]
    all_goals simp
  | group _ ih =>
    rw [List.cons_append, List.cons_append, List.append_assoc, List.singleton_append, sourceBounds,
      ih (.closeParen _), sourceBounds, Expr.bounds]
    all_goals simp

/-! ### Fields -/

theorem sourceFields_name (name : String) {rest : List Token}
    (apart : rest.head? ≠ some .openParen) :
    sourceFields (.name name :: rest) = name :: sourceFields rest := by
  rw [sourceFields]
  intro tokens same
  rw [same] at apart
  exact apart rfl

theorem sourceFields_args {args : List Operand}
    (each : ∀ arg ∈ args, ∀ rest : List Token, rest.head? ≠ some .openParen →
      sourceFields (arg.tokens ++ rest) = arg.fields ++ sourceFields rest) (rest : List Token) :
    sourceFields (separated (args.map Operand.tokens) ++ .closeParen :: rest) =
      args.flatMap Operand.fields ++ sourceFields rest := by
  induction args with
  | nil => simp [sourceFields]
  | cons arg args ih =>
    have first := each arg List.mem_cons_self
    have others := ih fun other member => each other (List.mem_cons_of_mem _ member)
    by_cases last : args = []
    · subst last
      rw [List.map_singleton, separated_singleton, first _ (by simp), sourceFields]
      all_goals simp
    · rw [List.map_cons, separated_cons _ (by simpa using last), List.append_assoc,
        List.cons_append, first _ (by simp), sourceFields, others, List.flatMap_cons,
        List.append_assoc]
      all_goals simp

theorem sourceFields_operand (operand : Operand) {rest : List Token}
    (apart : rest.head? ≠ some .openParen) :
    sourceFields (operand.tokens ++ rest) = operand.fields ++ sourceFields rest := by
  induction operand using Operand.induction generalizing rest with
  | field name => exact sourceFields_name name apart
  | literal value => rfl
  | call name args ih =>
    have inside := sourceFields_args (fun arg present more => ih arg present) rest
    rw [Operand.tokens_call, Operand.fields_call, ← inside]
    simp [sourceFields]

theorem sourceFields_listTokens (values : List Literal) (rest : List Token) :
    sourceFields (listTokens values ++ rest) = sourceFields rest := by
  have inside : sourceFields (separated ((values.map Operand.literal).map Operand.tokens) ++
      .closeParen :: rest) = (values.map Operand.literal).flatMap Operand.fields ++
        sourceFields rest :=
    sourceFields_args (fun arg _ more => sourceFields_operand arg) rest
  have noFields : (values.map Operand.literal).flatMap Operand.fields = [] := by
    simp [List.flatMap_eq_nil_iff, Operand.fields]
  have same : (values.map Operand.literal).map Operand.tokens =
      values.map fun value => [.literal value] := List.map_map
  rw [noFields, same] at inside
  simpa [listTokens, sourceFields] using inside

theorem sourceFields_spells {tokens : List Token} {expr : Expr} (spelled : Spells tokens expr)
    {rest : List Token} (ends : StopsOperand rest) :
    sourceFields (tokens ++ rest) = expr.fields ++ sourceFields rest := by
  induction spelled generalizing rest with
  | comparison left op right =>
    rw [List.append_assoc, List.cons_append, sourceFields_operand left (by simp), sourceFields,
      sourceFields_operand right ends.not_openParen, Expr.fields, List.append_assoc]
    all_goals simp
  | inList field membership values =>
    have listed := sourceFields_listTokens values rest
    cases membership with
    | _ => simpa [sourceFields, Expr.fields] using listed
  | isNull field negated =>
    cases negated <;> simp [nullWords, sourceFields, Expr.fields]
  | and _ _ ihLeft ihRight =>
    rw [List.append_assoc, List.cons_append, ihLeft (.and _), sourceFields, ihRight ends,
      Expr.fields, List.append_assoc]
    all_goals simp
  | or _ _ ihLeft ihRight =>
    rw [List.append_assoc, List.cons_append, ihLeft (.or _), sourceFields, ihRight ends,
      Expr.fields, List.append_assoc]
    all_goals simp
  | group _ ih =>
    rw [List.cons_append, List.cons_append, List.append_assoc, List.singleton_append, sourceFields,
      ih (.closeParen _), sourceFields, Expr.fields]
    all_goals simp

/-! ### Values -/

section

variable {table : String}

theorem toScalar_values {operand : Operand} {scalar : Scalar}
    (compiled : operand.toScalar table = .ok scalar) :
    scalar.values = operand.tokens.filterMap Token.literal? := by
  induction operand using Operand.induction generalizing scalar with
  | field name =>
    cases compiled
    rfl
  | literal value =>
    cases compiled
    rfl
  | call name args ih =>
    obtain ⟨f, scalars, compiledArgs, rfl⟩ := toScalar_call_ok compiled
    have inside : (separated (args.map Operand.tokens)).filterMap Token.literal? =
        args.flatMap fun arg => arg.tokens.filterMap Token.literal? := by
      rw [filterMap_separated rfl, List.flatMap_map]
    rw [Scalar.values_function, flatMap_of_forall₂ compiledArgs fun arg member scalar h =>
      ih arg member h, ← inside, Operand.tokens_call]
    simp [Token.literal?, List.filterMap_cons]

theorem values_literalBounds (tokens : List Token) :
    (literalBounds tokens).map Bound.value = tokens.filterMap Token.literal? := by
  have each : Bound.value ∘ Bound.literal = id := rfl
  rw [literalBounds, List.map_map, each, List.map_id]

theorem rightBounds_computed {operand : Operand} (computed : ∀ value, operand ≠ .literal value)
    (op : Comparison) :
    rightBounds op operand.tokens = Bound.around op (literalBounds operand.tokens) := by
  cases operand with
  | field name => rfl
  | literal value => exact absurd rfl (computed value)
  | call name args => rfl

theorem rightBounds_plain {op : Comparison} (plain : op.relation.2 = none) (tokens : List Token) :
    (rightBounds op tokens).map Bound.value = tokens.filterMap Token.literal? := by
  unfold rightBounds
  split
  · cases op <;> first | rfl | cases plain
  · rw [← values_literalBounds]
    cases op <;> first | rfl | cases plain

theorem toRightSide_values {operand : Operand} {op : Comparison} {scalar : Scalar}
    (compiled : operand.toRightSide table op = .ok scalar) :
    scalar.values = (rightBounds op operand.tokens).map Bound.value := by
  rcases toRightSide_ok compiled with ⟨plain, compiled⟩ | ⟨pattern, isPattern, matching⟩
  · rw [rightBounds_plain plain, toScalar_values compiled]
  · rcases toPattern_ok matching with ⟨value, rfl, rfl⟩ | ⟨computed, sought, compiledSought, rfl⟩
    · cases op <;> cases isPattern <;> rfl
    · have inside := toScalar_values compiledSought
      rw [← values_literalBounds] at inside
      rw [rightBounds_computed computed, Scalar.values_function]
      cases op <;> cases isPattern <;>
        simp [Pattern.parts, Scalar.values, Bound.around, Bound.value, Pattern.any, inside]

theorem comparisonClause_values {left right : Operand} {op : Comparison} {clause : Clause}
    (compiled : comparisonClause table left op right = .ok clause) :
    clause.values = (Expr.comparison left op right).bounds.map Bound.value := by
  obtain ⟨first, second, compiledLeft, compiledRight, rfl⟩ := comparisonClause_ok compiled
  rw [Clause.values, toScalar_values compiledLeft, toRightSide_values compiledRight, Expr.bounds,
    List.map_append, values_literalBounds]

theorem toClause_values {expr : Expr} {clause : Clause}
    (compiled : expr.toClause table = .ok clause) :
    clause.values = expr.bounds.map Bound.value := by
  have listed : ∀ values : List Literal, (values.map Bound.literal).map Bound.value = values := by
    intro values
    have each : Bound.value ∘ Bound.literal = id := rfl
    rw [List.map_map, each, List.map_id]
  have agree : WalksAgree table Clause.values fun expr => expr.bounds.map Bound.value := {
    nested := Clause.values_nested
    and := fun _ _ => List.map_append
    or := fun _ _ => List.map_append
    group := fun _ => rfl
    comparison := comparisonClause_values
    inList := fun _ _ values => (listed values).symm
    isNull := fun _ _ => rfl }
  exact agree.toClause compiled

end

/-! ### Queries -/

theorem addTo_ok {σ : Type} [ClauseSink σ] {filter : Filter} {text : String} {clause : Clause}
    (accepted : filter.clause text = .ok clause) (sink : σ) :
    filter.addTo text sink = (.ok (), ClauseSink.push sink clause) := by
  rw [Filter.addTo, accepted]

section

variable (table : String) (dialect : Dialect) (clause : Clause)

theorem pieces_one_clause :
    (⟨table, dialect, [clause]⟩ : Query).pieces =
      [.text "select * from ", .identifier table, .text " where "] ++ clause.pieces := by
  simp [Query.pieces, Query.wherePieces]

theorem sql_one_clause :
    (⟨table, dialect, [clause]⟩ : Query).sql = String.ofList ("select * from ".toList ++
      dialect.quote table ++ " where ".toList ++ dialect.spell 0 clause.pieces) := by
  rw [Query.sql, pieces_one_clause]
  simp [Dialect.spell]

theorem bindings_one_clause :
    (⟨table, dialect, [clause]⟩ : Query).bindings = clause.values.map Literal.toJson := by
  rw [Query.bindings, pieces_one_clause, ← values_pieces]
  rfl

end

/-- The columns in the text of a query and its bindings are those that the tokens of its filter
call for, in the same order. -/
theorem addTo_source {filter : Filter} {text : String} {clause : Clause}
    (accepted : filter.clause text = .ok clause) (table : String) (dialect : Dialect) :
    ∃ (lexemes : List Lexeme) (tokens : List Token) (expr : Expr) (query : Query)
      (conditions : List Char),
      tokenize text = .ok lexemes ∧ tokens = lexemes.map Lexeme.token ∧
      filter.expr text = .ok expr ∧
      filter.addTo text (⟨table, dialect, []⟩ : Query) = (.ok (), query) ∧
      query.sql = String.ofList ("select * from ".toList ++ dialect.quote table ++
        " where ".toList ++ conditions) ∧
      qualified (scan dialect.mark conditions) = (sourceFields tokens).map (filter.scope, ·) ∧
      expr.fields = sourceFields tokens ∧
      query.bindings = (sourceBounds tokens).map (·.value.toJson) ∧
      (sourceBounds tokens).filterMap Bound.source? = tokens.filterMap Token.literal? := by
  obtain ⟨expr, allowed, compiled⟩ := clause_ok_iff.mp accepted
  obtain ⟨lexemes, tokenized, parsed⟩ := bind_ok (expr_ok_iff.mp allowed).1
  have spelled : Spells (lexemes.map Lexeme.token) expr := (spells_of_parseLexemes parsed).1
  have fields : expr.fields = sourceFields (lexemes.map Lexeme.token) := by
    have read := sourceFields_spells spelled .nil
    rw [List.append_nil] at read
    simpa [sourceFields] using read.symm
  have bounds : expr.bounds = sourceBounds (lexemes.map Lexeme.token) := by
    have read := sourceBounds_spells spelled .nil
    rw [List.append_nil] at read
    simpa [sourceBounds] using read.symm
  refine ⟨lexemes, _, expr, _, dialect.spell 0 clause.pieces, tokenized, rfl, allowed,
    addTo_ok accepted _, sql_one_clause table dialect clause, ?_, fields, ?_,
    sources_sourceBounds _⟩
  · rw [scan_clause (toClause_known compiled), toClause_columns compiled, fields]
  · have bindings := bindings_one_clause table dialect clause
    rw [toClause_values compiled, bounds, List.map_map] at bindings
    exact bindings

theorem addTo_source_patterns :
    ∃ query : Query,
      (⟨"t", .any, {}⟩ : Filter).addTo "a ct concat(b, 'x') and c sw 'y'"
        (⟨"t", .postgres, []⟩ : Query) = (.ok (), query) ∧
      query.bindings = [.string "%", .string "x", .string "%", .string "y%"] := by
  have tokenized : tokenize "a ct concat(b, 'x') and c sw 'y'" = .ok [⟨.name "a", "a", 0⟩,
      ⟨.comparison .contains, "ct", 2⟩, ⟨.name "concat", "concat", 5⟩, ⟨.openParen, "(", 11⟩,
      ⟨.name "b", "b", 12⟩, ⟨.comma, ",", 13⟩, ⟨.literal (.string "x"), "'x'", 15⟩,
      ⟨.closeParen, ")", 18⟩, ⟨.and, "and", 20⟩, ⟨.name "c", "c", 24⟩,
      ⟨.comparison .startsWith, "sw", 26⟩, ⟨.literal (.string "y"), "'y'", 29⟩] := by
    decide +kernel
  have accepted : (⟨"t", .any, {}⟩ : Filter).clause "a ct concat(b, 'x') and c sw 'y'" =
      .ok (.nested [
        (.and, .compare (.column "t" "a") .like (.function "CONCAT" [.value (.string "%"),
          .function "CONCAT" [.column "t" "b", .value (.string "x")], .value (.string "%")])),
        (.and, .compare (.column "t" "c") .like (.value (.string "y%")))]) :=
    (clause_of_tokens tokenized).trans rfl
  obtain ⟨lexemes, _, expr, query, conditions, read, rfl, -, built, -, -, -, bindings, -⟩ :=
    addTo_source accepted "t" .postgres
  obtain rfl := Except.ok.inj (tokenized.symm.trans read)
  refine ⟨query, built, bindings.trans ?_⟩
  simp only [List.map_cons, List.map_nil, sourceBounds, splitOperand, rightBounds]
  rfl

end QueryFilter
