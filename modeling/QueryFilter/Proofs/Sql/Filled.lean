import Mathlib.Data.List.Chain
import QueryFilter.Proofs.Sql.Placeholders

/-!
# No empty parentheses

The clause of an expression has no empty list and no nested clause without conditions, and its
nested clauses start with `and`: `toClause_filled`. So no two parentheses in the text of a query
enclose nothing: `filled_query`.
-/

namespace QueryFilter

/-! ### Filled clauses -/

/-- The scalar applies only functions that a filter may call, and none of them to nothing. -/
inductive Scalar.Filled : Scalar → Prop where
  | column (table name : String) : Filled (.column table name)
  | value (literal : Literal) : Filled (.value literal)
  | function (f : Builtin) {args : List Scalar} (nonempty : args ≠ [])
    (filled : ∀ arg ∈ args, arg.Filled) : Filled (.function f.queryName args)

/-- Every list of values and every list of conditions has an item, and the first condition of each
list is joined by `and`. -/
inductive Clause.Filled : Clause → Prop where
  | compare {left right : Scalar} (relation : Relation) (filledLeft : left.Filled)
    (filledRight : right.Filled) : Filled (.compare left relation right)
  | inList {column : Scalar} {values : List Literal} (negated : Bool) (nonempty : values ≠ [])
    (filled : column.Filled) : Filled (.inList column values negated)
  | isNull {column : Scalar} (negated : Bool) (filled : column.Filled) :
    Filled (.isNull column negated)
  | nested {first : Clause} {rest : List (Connector × Clause)}
    (filled : ∀ condition ∈ (Connector.and, first) :: rest, condition.2.Filled) :
    Filled (.nested ((.and, first) :: rest))

theorem Scalar.Filled.known {scalar : Scalar} (filled : scalar.Filled) : scalar.Known := by
  induction filled with
  | column table name => exact .column table name
  | value literal => exact .value literal
  | function f _ _ ih => exact .function f ih

theorem Clause.Filled.known {clause : Clause} (filled : clause.Filled) : clause.Known := by
  induction filled with
  | compare relation filledLeft filledRight =>
    exact .compare relation filledLeft.known filledRight.known
  | inList negated _ filled => exact .inList _ negated filled.known
  | isNull negated filled => exact .isNull negated filled.known
  | nested _ ih => exact .nested ih

section

variable {table : String}

theorem filled_closed (table : String) : Scalar.Closed table Scalar.Filled where
  column := .column table
  value := .value
  function f _ nonempty filled := .function f nonempty filled

theorem comparisonClause_filled {left right : Operand} {op : Comparison} {clause : Clause}
    (compiled : comparisonClause table left op right = .ok clause) : clause.Filled := by
  obtain ⟨first, second, compiledLeft, compiledRight, rfl⟩ := comparisonClause_ok compiled
  exact .compare _ ((filled_closed table).toScalar compiledLeft)
    ((filled_closed table).toRightSide compiledRight)

/-- The clauses are filled, and the first of them has the given connector. -/
structure FilledConditions (connector : Connector) (conditions : List (Connector × Clause)) :
    Prop where
  head : ∃ first rest, conditions = (connector, first) :: rest
  filled : ∀ condition ∈ conditions, condition.2.Filled

namespace FilledConditions

theorem single {clause : Clause} (connector : Connector) (filled : clause.Filled) :
    FilledConditions connector [(connector, clause)] :=
  ⟨⟨clause, [], rfl⟩, List.forall_mem_singleton.mpr filled⟩

theorem append {connector joiner : Connector} {front back : List (Connector × Clause)}
    (first : FilledConditions connector front) (second : FilledConditions joiner back) :
    FilledConditions connector (front ++ back) := by
  obtain ⟨clause, rest, rfl⟩ := first.head
  exact ⟨⟨clause, rest ++ back, rfl⟩,
    List.forall_mem_append.mpr ⟨first.filled, second.filled⟩⟩

theorem nested {conditions : List (Connector × Clause)}
    (filled : FilledConditions .and conditions) : (Clause.nested conditions).Filled := by
  obtain ⟨⟨first, rest, rfl⟩, each⟩ := filled
  exact .nested each

end FilledConditions

theorem conditions_filled {expr : Expr} (shape : expr.Canonical) {connector : Connector}
    {conditions : List (Connector × Clause)}
    (compiles : expr.Compiles table connector conditions) :
    FilledConditions connector conditions := by
  induction compiles with
  | comparison connector compiled => exact .single connector (comparisonClause_filled compiled)
  | inList connector field negated values =>
    exact .single connector (.inList negated shape (.column table field))
  | isNull connector field negated =>
    exact .single connector (.isNull negated (.column table field))
  | and _ _ ihLeft ihRight =>
    obtain ⟨-, -, shapeLeft, shapeRight⟩ := shape
    exact (ihLeft shapeLeft).append (ihRight shapeRight)
  | or _ _ ihLeft ihRight =>
    obtain ⟨-, shapeLeft, shapeRight⟩ := shape
    exact (ihLeft shapeLeft).append (ihRight shapeRight)
  | group connector _ ih => exact .single connector (ih shape).nested

theorem toClause_filled {expr : Expr} (shape : expr.Canonical) {clause : Clause}
    (compiled : expr.toClause table = .ok clause) : clause.Filled := by
  cases compilesTo_of_toClause compiled with
  | term _ alone => exact (conditions_filled shape alone).filled _ List.mem_cons_self
  | chain _ compiles => exact (conditions_filled shape compiles).nested

end

/-! ### Solid text -/

/-- The two are not parentheses that enclose nothing. -/
def MayAdjoin (before after : Fragment) : Prop := ¬(before = .char '(' ∧ after = .char ')')

instance : DecidableRel MayAdjoin := fun _ _ => inferInstanceAs (Decidable (¬ _))

/-- Neither in the text nor in parentheses around it do two parentheses enclose nothing. -/
def Solid (text : List Fragment) : Prop := List.IsChain MayAdjoin (.char '(' :: text ++ [.char ')'])

instance (text : List Fragment) : Decidable (Solid text) :=
  inferInstanceAs (Decidable (List.IsChain _ _))

namespace Solid

variable {front back text : List Fragment}

theorem append (first : Solid front) (second : Solid back) : Solid (front ++ back) := by
  obtain ⟨opened, -, ends⟩ := List.isChain_append.mp first
  obtain ⟨-, closed⟩ := List.isChain_cons.mp second
  have both : List.IsChain MayAdjoin ((.char '(' :: front) ++ (back ++ [.char ')'])) := by
    refine opened.append closed ?_
    -- A parenthesis may close behind the front, so the front does not end with an opening one.
    rintro before isLast after - ⟨rfl, -⟩
    exact ends _ isLast (.char ')') rfl ⟨rfl, rfl⟩
  simpa [Solid] using both

theorem parentheses (solid : Solid text) : Solid (.char '(' :: text ++ [.char ')']) := by
  refine .cons_cons ?_ (List.IsChain.append solid (.singleton _) ?_)
  · simp [MayAdjoin]
  · intro before isLast after _
    rw [List.getLast?_concat] at isLast
    cases isLast
    simp [MayAdjoin]

theorem chars {cs : List Char} (nonempty : cs ≠ []) (plain : ∀ c ∈ cs, c ≠ '(' ∧ c ≠ ')') :
    Solid (cs.map .char) := by
  induction cs with
  | nil => exact absurd rfl nonempty
  | cons c cs ih =>
    obtain ⟨first, rest⟩ := List.forall_mem_cons.mp plain
    have alone : Solid [.char c] := by simp [Solid, MayAdjoin, first]
    by_cases last : cs = []
    · rw [last]
      exact alone
    · exact alone.append (ih last rest)

theorem no_empty (solid : Solid text) : ¬ [.char '(', .char ')'] <:+: text := by
  rintro ⟨front, back, rfl⟩
  have pair : [.char '(', .char ')'] <:+:
      .char '(' :: (front ++ [.char '(', .char ')'] ++ back) ++ [.char ')'] :=
    ⟨.char '(' :: front, back ++ [.char ')'], by simp⟩
  have chain : List.IsChain MayAdjoin [.char '(', .char ')'] := List.IsChain.infix solid pair
  exact List.isChain_pair.mp chain ⟨rfl, rfl⟩

end Solid

/-- What the pieces are read as is solid in every dialect. -/
def SolidPieces (pieces : List Piece) : Prop :=
  ∀ (dialect : Dialect) (bound : Nat), Solid (dialect.fragments bound pieces)

namespace SolidPieces

variable {front back pieces : List Piece}

theorem append (first : SolidPieces front) (second : SolidPieces back) :
    SolidPieces (front ++ back) := by
  intro dialect bound
  rw [fragments_append]
  exact (first dialect bound).append (second dialect _)

theorem text {text : String} (solid : Solid (text.toList.map .char)) :
    SolidPieces [.text text] := by
  intro dialect bound
  rw [Dialect.fragments, Dialect.fragments, List.append_nil]
  exact solid

theorem value (literal : Literal) : SolidPieces [.value literal] := by
  intro dialect bound
  rw [Dialect.fragments, Dialect.fragments, List.append_nil]
  cases dialect with
  | mysql => exact (by decide : Solid [.char '?'])
  | sqlite => exact (by decide : Solid [.char '?'])
  | postgres =>
    refine Solid.chars (by simp [Dialect.placeholder]) ?_
    intro c member
    rcases List.mem_cons.mp member with rfl | digit
    · decide
    · have isDigit : c.isDigit := Nat.isDigit_of_mem_toDigits (by decide) (by decide) digit
      constructor
      · rintro rfl
        cases isDigit
      · rintro rfl
        cases isDigit

theorem identifier (name : String) : SolidPieces [.identifier name] := by
  intro dialect bound
  simp [Dialect.fragments, Solid, MayAdjoin]

/-- Pieces in parentheses, the first of which ends a text. -/
theorem surrounded {opening : String} {words : List Char} (opens : opening.toList = words ++ ['('])
    (solidWords : words = [] ∨ Solid (words.map .char)) (inside : SolidPieces pieces) :
    SolidPieces (.text opening :: pieces ++ [.text ")"]) := by
  intro dialect bound
  have closing : ")".toList = [')'] := by decide
  have enclosed := (inside dialect bound).parentheses
  have read : dialect.fragments bound (.text opening :: pieces ++ [.text ")"]) =
      words.map .char ++ (.char '(' :: dialect.fragments bound pieces ++ [.char ')']) := by
    simp [Dialect.fragments, fragments_append, opens, closing]
  rw [read]
  rcases solidWords with rfl | solid
  · exact enclosed
  · exact solid.append enclosed

/-- An empty front adds nothing to what is solid. -/
theorem behind (first : front ≠ [] → SolidPieces front) (second : SolidPieces back) :
    SolidPieces (front ++ back) := by
  by_cases empty : front = []
  · rw [empty]
    exact second
  · exact (first empty).append second

theorem inFront (first : SolidPieces front) (second : back ≠ [] → SolidPieces back) :
    SolidPieces (front ++ back) := by
  by_cases empty : back = []
  · rw [empty, List.append_nil]
    exact first
  · exact first.append (second empty)

end SolidPieces

theorem covers_filled : Covers NamesBuiltin True Scalar.Filled Clause.Filled where
  function filled := by
    cases filled with
    | function f nonempty each => exact ⟨⟨f, rfl⟩, fun _ => nonempty, each⟩
  compare filled := by
    cases filled with
    | compare _ filledLeft filledRight => exact ⟨filledLeft, filledRight⟩
  inList filled := by
    cases filled with
    | inList _ nonempty filledColumn => exact ⟨filledColumn, fun _ => nonempty⟩
  isNull filled := by
    cases filled with
    | isNull _ filledColumn => exact filledColumn
  nested filled := by
    cases filled with
    | nested each => exact ⟨fun _ => List.cons_ne_nil _ _, each⟩

theorem composes_solid :
    Composes NamesBuiltin True fun pieces _ _ => pieces ≠ [] → SolidPieces pieces where
  nil := absurd rfl
  value literal _ := .value literal
  column table name _ :=
    ((SolidPieces.identifier table).append (.text (by decide))).append (.identifier name)
  between := by
    intro text front back _ _ _ _ joins solidFront solidBack _
    have solid : SolidPieces [.text text] := by
      rcases joins with ⟨f, rfl⟩ | joins
      · exact .text (by cases f <;> decide)
      · have words : ∀ text ∈ joiningTexts, Solid (text.toList.map .char) := by decide
        exact .text (words text joins)
    exact .behind solidFront (solid.inFront solidBack)
  enclosed := by
    intro opening front inside _ _ _ _ isOpening filled solidFront solidInside _
    have within : SolidPieces inside := solidInside (filled trivial)
    have enclosed : SolidPieces (.text opening :: inside ++ [.text ")"]) := by
      have opens : opening = "(" ∨ opening = " in (" ∨ opening = " not in (" := by
        simpa [openingTexts] using isOpening
      rcases opens with rfl | rfl | rfl
      · exact .surrounded (by decide : "(".toList = [] ++ ['(']) (.inl rfl) within
      · exact .surrounded (by decide : " in (".toList = " in ".toList ++ ['('])
          (.inr (by decide)) within
      · exact .surrounded (by decide : " not in (".toList = " not in ".toList ++ ['('])
          (.inr (by decide)) within
    simpa using SolidPieces.behind solidFront enclosed

theorem solid_query {query : Query} (filled : ∀ clause ∈ query.clauses, clause.Filled) :
    SolidPieces query.pieces := by
  have table : SolidPieces ([.text "select * from "] ++ [.identifier query.table]) :=
    .append (.text (by decide)) (.identifier query.table)
  exact table.inFront (composes_solid.wherePieces covers_filled filled)

/-- Outside of identifiers no two parentheses in the text of a query enclose nothing. -/
theorem filled_query {query : Query} (filled : ∀ clause ∈ query.clauses, clause.Filled) :
    ¬ [.char '(', .char ')'] <:+: scan query.dialect.mark query.sql.toList := by
  have readable := readable_query fun clause member => (filled clause member).known
  rw [Query.sql, String.toList_ofList, scan_spell readable]
  exact (solid_query filled query.dialect 0).no_empty

end QueryFilter
