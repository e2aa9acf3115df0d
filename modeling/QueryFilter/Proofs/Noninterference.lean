import QueryFilter.Proofs.Parsing.Recasting
import QueryFilter.Proofs.Sql.Rendering
import QueryFilter.Proofs.Source

/-!
# Literals stay out of the text

Two expressions that differ only in their literals are both rejected, for the same cause, or become
queries with the same text and equally many bindings: `addTo_literals`.
-/

namespace QueryFilter

/-! ### Shapes -/

/-- The piece, with nothing left of a value but its place. -/
def Piece.blank : Piece → Piece
  | .value _ => .value (.string "")
  | piece => piece

def Scalar.shape (scalar : Scalar) : List Piece := scalar.pieces.map Piece.blank

def Clause.shape (clause : Clause) : List Piece := clause.pieces.map Piece.blank

theorem spell_blank (dialect : Dialect) (bound : Nat) (pieces : List Piece) :
    dialect.spell bound (pieces.map Piece.blank) = dialect.spell bound pieces := by
  induction pieces generalizing bound with
  | nil => rfl
  | cons piece pieces ih =>
    cases piece with
    | text text => exact congrArg (text.toList ++ ·) (ih bound)
    | identifier name => exact congrArg (dialect.quote name ++ ·) (ih bound)
    | value literal => exact congrArg (dialect.placeholder (bound + 1) ++ ·) (ih (bound + 1))

theorem length_values_blank (pieces : List Piece) :
    ((pieces.map Piece.blank).filterMap Piece.value?).length =
      (pieces.filterMap Piece.value?).length := by
  induction pieces with
  | nil => rfl
  | cons piece pieces ih =>
    cases piece with
    | text text => exact ih
    | identifier name => exact ih
    | value literal => exact congrArg Nat.succ ih

theorem blank_intercalate (separator : String) (items : List (List Piece)) :
    ([.text separator].intercalate items).map Piece.blank =
      [.text separator].intercalate (items.map (List.map Piece.blank)) := by
  induction items with
  | nil => rfl
  | cons item items ih =>
    by_cases last : items = []
    · rw [last, List.intercalate_singleton, List.map_singleton, List.intercalate_singleton]
    · have more : items.map (List.map Piece.blank) ≠ [] := by simpa using last
      rw [List.intercalate_cons_of_ne_nil last, List.map_cons,
        List.intercalate_cons_of_ne_nil more, List.map_append, List.map_append, ih]
      rfl

theorem Scalar.shape_function {name : String} {args others : List Scalar}
    (same : args.map shape = others.map shape) :
    (Scalar.function name args).shape = (Scalar.function name others).shape := by
  have each : List.map Piece.blank ∘ pieces = shape := rfl
  simp only [shape, pieces_function, List.map_append, List.map_cons, blank_intercalate,
    List.map_map, each, same]

theorem Clause.shape_compare {left right first second : Scalar} (relation : Relation)
    (sameLeft : left.shape = first.shape) (sameRight : right.shape = second.shape) :
    (Clause.compare left relation right).shape = (Clause.compare first relation second).shape := by
  rw [Scalar.shape, Scalar.shape] at sameLeft sameRight
  simp only [shape, pieces, List.map_append, sameLeft, sameRight]

theorem Clause.shape_inList (column : Scalar) (negated : Bool) {values others : List Literal}
    (same : values.length = others.length) :
    (Clause.inList column values negated).shape = (Clause.inList column others negated).shape := by
  have blanks (literals : List Literal) :
      (literals.map fun value => [Piece.value value]).map (List.map Piece.blank) =
        List.replicate literals.length [.value (.string "")] := by
    rw [List.map_map, ← List.map_const']
    rfl
  simp only [shape, pieces, List.map_append, blank_intercalate, blanks, same]

/-- Each condition with its connector and the shape of its clause. -/
def shapes (conditions : List (Connector × Clause)) : List (Connector × List Piece) :=
  conditions.map fun condition => (condition.1, condition.2.shape)

theorem shapes_append {front back otherFront otherBack : List (Connector × Clause)}
    (sameFront : shapes front = shapes otherFront) (sameBack : shapes back = shapes otherBack) :
    shapes (front ++ back) = shapes (otherFront ++ otherBack) := by
  rw [shapes, List.map_append, shapes, List.map_append]
  exact congrArg₂ (· ++ ·) sameFront sameBack

theorem Clause.shape_nested {conditions others : List (Connector × Clause)}
    (same : shapes conditions = shapes others) :
    (Clause.nested conditions).shape = (Clause.nested others).shape := by
  have joined (listed : List (Connector × Clause)) :
      (listed.flatMap fun condition =>
          .text condition.1.sql :: condition.2.pieces).map Piece.blank =
        (shapes listed).flatMap fun condition => .text condition.1.sql :: condition.2 := by
    rw [List.map_flatMap, shapes, List.flatMap_map]
    rfl
  have inner : (innerPieces conditions).map Piece.blank = (innerPieces others).map Piece.blank := by
    cases conditions with
    | nil =>
      cases others with
      | nil => rfl
      | cons other others => cases same
    | cons condition conditions =>
      cases others with
      | nil => cases same
      | cons other others =>
        obtain ⟨sameFirst, sameRest⟩ := List.cons.inj same
        have sameClause : condition.2.shape = other.2.shape := (Prod.mk.inj sameFirst).2
        rw [innerPieces, innerPieces, List.map_append, List.map_append, joined, joined]
        exact congrArg₂ (· ++ ·) sameClause (congrArg _ sameRest)
  simp only [shape, pieces_nested, List.map_append, List.map_cons, inner]

theorem Expr.clauseOf_shape (expr : Expr) {conditions others : List (Connector × Clause)}
    (same : shapes conditions = shapes others) :
    (expr.clauseOf conditions).shape = (expr.clauseOf others).shape := by
  unfold Expr.clauseOf
  cases expr.isTerm with
  | false => exact Clause.shape_nested same
  | true =>
    cases conditions with
    | nil =>
      cases others with
      | nil => rfl
      | cons other others => cases same
    | cons condition conditions =>
      cases others with
      | nil => cases same
      | cons other others => exact (Prod.mk.inj (List.cons.inj same).1).2

/-! ### Compilation -/

section

variable (f : Literal → Literal) (table : String)

theorem ofCall_shape (name : String) {args others : List Scalar}
    (same : args.map Scalar.shape = others.map Scalar.shape) :
    Agrees (fun scalar other => scalar.shape = other.shape) (Scalar.ofCall name args)
      (Scalar.ofCall name others) := by
  have sameLength : args.length = others.length := by simpa using congrArg List.length same
  unfold Scalar.ofCall
  cases Builtin.named? name with
  | none => exact .error rfl
  | some builtin =>
    simp only [Builtin.apply, sameLength]
    by_cases fits : builtin.takes others.length
    · rw [if_pos fits, if_pos fits]
      exact .ok (Scalar.shape_function same)
    · rw [if_neg fits, if_neg fits]
      exact .error rfl

theorem toScalars_recast {args : List Operand}
    (each : ∀ arg ∈ args, Agrees (fun scalar other => scalar.shape = other.shape)
      (arg.toScalar table) ((arg.recast f).toScalar table)) :
    Agrees (fun scalars others => scalars.map Scalar.shape = others.map Scalar.shape)
      (Operand.toScalars table args) (Operand.toScalars table (args.map (Operand.recast f))) := by
  induction args with
  | nil => exact .ok rfl
  | cons arg args ih =>
    have rest := ih fun other member => each other (List.mem_cons_of_mem _ member)
    refine (each arg List.mem_cons_self).bind fun scalar other sameFirst => ?_
    refine rest.bind fun scalars others sameRest => ?_
    exact .ok (congrArg₂ List.cons sameFirst sameRest)

theorem toScalar_recast (operand : Operand) :
    Agrees (fun scalar other => scalar.shape = other.shape) (operand.toScalar table)
      ((operand.recast f).toScalar table) := by
  induction operand using Operand.induction with
  | field name => exact .ok rfl
  | literal value => exact .ok rfl
  | call name args ih =>
    rw [Operand.recast_call]
    exact (toScalars_recast f table ih).bind fun _ _ same => ofCall_shape name same

theorem toPattern_recast (operand : Operand) (pattern : Pattern) :
    Agrees (fun scalar other => scalar.shape = other.shape) (operand.toPattern table pattern)
      ((operand.recast f).toPattern table pattern) := by
  have around {sought other : Scalar} (same : sought.shape = other.shape) :
      (Scalar.function Builtin.concat.queryName (pattern.parts sought)).shape =
        (Scalar.function Builtin.concat.queryName (pattern.parts other)).shape := by
    apply Scalar.shape_function
    cases pattern <;> simp [Pattern.parts, same]
  have sought := toScalar_recast f table operand
  cases operand with
  | literal value => exact .ok rfl
  | field name => exact sought.bind fun _ _ same => .ok (around same)
  | call name args => exact sought.bind fun _ _ same => .ok (around same)

theorem comparisonClause_recast (left : Operand) (op : Comparison) (right : Operand) :
    Agrees (fun clause other => clause.shape = other.shape) (comparisonClause table left op right)
      (comparisonClause table (left.recast f) op (right.recast f)) := by
  have compiledRight : Agrees (fun scalar other => scalar.shape = other.shape)
      (right.toRightSide table op) ((right.recast f).toRightSide table op) := by
    unfold Operand.toRightSide
    cases op.relation.2 with
    | none => exact toScalar_recast f table right
    | some pattern => exact toPattern_recast f table right pattern
  rw [comparisonClause_eq, comparisonClause_eq]
  refine (toScalar_recast f table left).bind fun first otherFirst sameLeft => ?_
  refine compiledRight.bind fun second otherSecond sameRight => ?_
  exact .ok (Clause.shape_compare op.relation.1 sameLeft sameRight)

theorem toConditions_recast (expr : Expr) (connector : Connector) :
    Agrees (fun conditions others => shapes conditions = shapes others)
      (expr.toConditions table connector) ((expr.recast f).toConditions table connector) := by
  have alone (joiner : Connector) {clause other : Clause} (same : clause.shape = other.shape) :
      shapes [(joiner, clause)] = shapes [(joiner, other)] := by
    simp [shapes, same]
  induction expr generalizing connector with
  | comparison left op right =>
    refine (comparisonClause_recast f table left op right).bind fun clause other same => ?_
    exact .ok (alone connector same)
  | inList field negated values =>
    exact .ok (alone connector (Clause.shape_inList _ negated (by simp)))
  | isNull field negated => exact .ok rfl
  | and left right ihLeft ihRight | or left right ihLeft ihRight =>
    refine (ihLeft connector).bind fun front otherFront sameFront => ?_
    refine (ihRight _).bind fun back otherBack sameBack => ?_
    exact .ok (shapes_append sameFront sameBack)
  | group inner ih =>
    refine (ih .and).bind fun conditions others same => ?_
    exact .ok (alone connector (Clause.shape_nested same))

theorem clauseOf_recast (expr : Expr) : (expr.recast f).clauseOf = expr.clauseOf := by
  cases expr <;> rfl

theorem toClause_recast (expr : Expr) :
    Agrees (fun clause other => clause.shape = other.shape) (expr.toClause table)
      ((expr.recast f).toClause table) := by
  rw [toClause_eq, toClause_eq, clauseOf_recast]
  exact (toConditions_recast f table expr .and).map fun _ _ same => expr.clauseOf_shape same

end

/-! ### The whole way -/

theorem Operand.check_recast (f : Literal → Literal) (keys : KeySet) (operand : Operand) :
    (operand.recast f).check keys = operand.check keys := by
  induction operand using Operand.induction with
  | field name => rfl
  | literal value => rfl
  | call name args ih =>
    rw [recast_call, check, check]
    induction args with
    | nil => rfl
    | cons arg args ihArgs =>
      rw [List.map_cons, checkArgs, checkArgs, ih arg List.mem_cons_self,
        ihArgs fun other member => ih other (List.mem_cons_of_mem _ member)]

theorem Expr.check_recast (f : Literal → Literal) (keys : KeySet) (expr : Expr) :
    (expr.recast f).check keys = expr.check keys := by
  induction expr with
  | comparison left op right =>
    rw [recast, check, check, Operand.check_recast, Operand.check_recast]
  | inList field negated values => rfl
  | isNull field negated => rfl
  | and left right ihLeft ihRight | or left right ihLeft ihRight =>
    rw [recast, check, check, ihLeft, ihRight]
  | group inner ih => exact ih

theorem clause_recast (f : Literal → Literal) (filter : Filter) {text : String}
    {lexemes : List Lexeme} (tokenized : tokenize text = .ok lexemes) :
    Agrees (fun clause other => clause.shape = other.shape) (filter.clause text) (do
      let expr ← parseLexemes filter.limits (lexemes.map (Lexeme.recast f))
      expr.check filter.keys
      expr.toClause filter.scope) := by
  rw [clause_of_tokens tokenized]
  refine (parseLexemes_recast f filter.limits lexemes).bind ?_
  rintro expr _ rfl
  refine (Agrees.of_eq (expr.check_recast f filter.keys).symm).bind fun _ _ _ => ?_
  exact toClause_recast f filter.scope expr

/-- The tokens are equal, or both are literals. -/
def AlikeButLiterals (l other : Lexeme) : Prop :=
  l.token = other.token ∨ ∃ v w, l.token = .literal v ∧ other.token = .literal w

theorem recast_of_alike {lexemes others : List Lexeme} (blank : Literal)
    (alike : List.Forall₂ AlikeButLiterals lexemes others) :
    lexemes.map (Lexeme.recast fun _ => blank) = others.map (Lexeme.recast fun _ => blank) := by
  induction alike with
  | nil => rfl
  | cons first _ ih =>
    rw [List.map_cons, List.map_cons, ih]
    refine congrArg (· :: _) ?_
    rcases first with same | ⟨v, w, isLiteral, otherIsLiteral⟩
    · rw [Lexeme.recast, Lexeme.recast, same]
    · rw [Lexeme.recast, Lexeme.recast, isLiteral, otherIsLiteral]
      rfl

theorem sql_of_shape {clause other : Clause} (same : clause.shape = other.shape) (table : String)
    (dialect : Dialect) :
    (⟨table, dialect, [clause]⟩ : Query).sql = (⟨table, dialect, [other]⟩ : Query).sql := by
  have spelled : dialect.spell 0 clause.pieces = dialect.spell 0 other.pieces := by
    rw [← spell_blank, ← spell_blank dialect 0 other.pieces]
    exact congrArg _ same
  rw [sql_one_clause, sql_one_clause, spelled]

theorem length_bindings_of_shape {clause other : Clause} (same : clause.shape = other.shape)
    (table : String) (dialect : Dialect) :
    (⟨table, dialect, [clause]⟩ : Query).bindings.length =
      (⟨table, dialect, [other]⟩ : Query).bindings.length := by
  have counted := congrArg (fun pieces => (pieces.filterMap Piece.value?).length) same
  simp only [Clause.shape, length_values_blank, values_pieces] at counted
  rw [bindings_one_clause, bindings_one_clause, List.length_map, List.length_map, counted]

/-- The literals of an expression decide neither if it is accepted nor the text of its query. -/
theorem addTo_literals (filter : Filter) {text other : String} {lexemes others : List Lexeme}
    (tokenized : tokenize text = .ok lexemes) (otherTokenized : tokenize other = .ok others)
    (alike : List.Forall₂ AlikeButLiterals lexemes others) (table : String) (dialect : Dialect) :
    (∃ cause otherCause,
      (filter.addTo text (⟨table, dialect, []⟩ : Query)).1 = .error cause ∧
      (filter.addTo other (⟨table, dialect, []⟩ : Query)).1 = .error otherCause ∧
      SameCause cause otherCause) ∨
    ∃ query otherQuery,
      filter.addTo text (⟨table, dialect, []⟩ : Query) = (.ok (), query) ∧
      filter.addTo other (⟨table, dialect, []⟩ : Query) = (.ok (), otherQuery) ∧
      query.sql = otherQuery.sql ∧ query.bindings.length = otherQuery.bindings.length := by
  -- Both expressions are compared with the one that has the same blank for every literal.
  have first := clause_recast (fun _ => .string "") filter tokenized
  have second := clause_recast (fun _ => .string "") filter otherTokenized
  rw [← recast_of_alike (.string "") alike] at second
  have agree : Agrees (fun clause other => clause.shape = other.shape) (filter.clause text)
      (filter.clause other) :=
    first.join second fun _ _ _ same otherSame => same.trans otherSame.symm
  generalize accepted : filter.clause text = outcome at agree
  generalize otherAccepted : filter.clause other = otherOutcome at agree
  cases agree with
  | error same =>
    refine .inl ⟨_, _, ?_, ?_, same⟩
    · rw [Filter.addTo, accepted]
    · rw [Filter.addTo, otherAccepted]
  | ok same =>
    exact .inr ⟨_, _, addTo_ok accepted _, addTo_ok otherAccepted _,
      sql_of_shape same table dialect, length_bindings_of_shape same table dialect⟩

/-- A pattern and a list, with literals of other kinds. -/
theorem addTo_literals_of_other_kinds :
    ∃ query otherQuery : Query,
      (⟨"t", .any, {}⟩ : Filter).addTo "a ct 'x' and b in (1)" (⟨"t", .postgres, []⟩ : Query) =
        (.ok (), query) ∧
      (⟨"t", .any, {}⟩ : Filter).addTo "a ct 5 and b in ('y')" (⟨"t", .postgres, []⟩ : Query) =
        (.ok (), otherQuery) ∧
      query.sql = otherQuery.sql ∧ query.bindings.length = otherQuery.bindings.length := by
  have tokenized : tokenize "a ct 'x' and b in (1)" = .ok [⟨.name "a", "a", 0⟩,
      ⟨.comparison .contains, "ct", 2⟩, ⟨.literal (.string "x"), "'x'", 5⟩, ⟨.and, "and", 9⟩,
      ⟨.name "b", "b", 13⟩, ⟨.isIn, "in", 15⟩, ⟨.openParen, "(", 18⟩,
      ⟨.literal (.integer 1), "1", 19⟩, ⟨.closeParen, ")", 20⟩] := by
    decide +kernel
  have otherTokenized : tokenize "a ct 5 and b in ('y')" = .ok [⟨.name "a", "a", 0⟩,
      ⟨.comparison .contains, "ct", 2⟩, ⟨.literal (.integer 5), "5", 5⟩, ⟨.and, "and", 7⟩,
      ⟨.name "b", "b", 11⟩, ⟨.isIn, "in", 13⟩, ⟨.openParen, "(", 16⟩,
      ⟨.literal (.string "y"), "'y'", 17⟩, ⟨.closeParen, ")", 20⟩] := by
    decide +kernel
  have accepted : (⟨"t", .any, {}⟩ : Filter).clause "a ct 'x' and b in (1)" = .ok (.nested [
      (.and, .compare (.column "t" "a") .like (.value (.string "%x%"))),
      (.and, .inList (.column "t" "b") [.integer 1] false)]) :=
    (clause_of_tokens tokenized).trans rfl
  have alike := addTo_literals ⟨"t", .any, {}⟩ tokenized otherTokenized
    (by simp [AlikeButLiterals]) "t" .postgres
  rcases alike with ⟨_, _, rejected, -⟩ | built
  · rw [addTo_ok accepted] at rejected
    cases rejected
  · exact built

end QueryFilter
