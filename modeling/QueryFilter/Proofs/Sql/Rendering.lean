import QueryFilter.Proofs.Sql.Pieces
import QueryFilter.Proofs.Sql.Scan

/-!
# The text of a clause

A clause that calls only known functions is readable in every dialect, and what is read are its
columns in order: `scan_clause`. The values of its pieces are its values: `values_pieces`.
-/

namespace QueryFilter

/-! ### Known functions -/

/-- The scalar applies only functions that a filter may call. -/
inductive Scalar.Known : Scalar → Prop where
  | column (table name : String) : Known (.column table name)
  | value (literal : Literal) : Known (.value literal)
  | function (f : Builtin) {args : List Scalar} (known : ∀ arg ∈ args, arg.Known) :
    Known (.function f.queryName args)

inductive Clause.Known : Clause → Prop where
  | compare {left right : Scalar} (relation : Relation) (knownLeft : left.Known)
    (knownRight : right.Known) : Known (.compare left relation right)
  | inList {column : Scalar} (values : List Literal) (negated : Bool) (known : column.Known) :
    Known (.inList column values negated)
  | isNull {column : Scalar} (negated : Bool) (known : column.Known) :
    Known (.isNull column negated)
  | nested {conditions : List (Connector × Clause)}
    (known : ∀ condition ∈ conditions, condition.2.Known) : Known (.nested conditions)

section

variable {table : String}

theorem known_closed (table : String) : Scalar.Closed table Scalar.Known where
  column := .column table
  value := .value
  function f _ _ known := .function f known

theorem comparisonClause_known {left right : Operand} {op : Comparison} {clause : Clause}
    (compiled : comparisonClause table left op right = .ok clause) : clause.Known := by
  obtain ⟨first, second, compiledLeft, compiledRight, rfl⟩ := comparisonClause_ok compiled
  exact .compare _ ((known_closed table).toScalar compiledLeft)
    ((known_closed table).toRightSide compiledRight)

theorem conditions_known {expr : Expr} {connector : Connector}
    {conditions : List (Connector × Clause)}
    (compiles : expr.Compiles table connector conditions) :
    ∀ condition ∈ conditions, condition.2.Known := by
  induction compiles with
  | comparison _ compiled => simpa using comparisonClause_known compiled
  | inList _ field negated values =>
    simpa using Clause.Known.inList values negated (.column table field)
  | isNull _ field negated => simpa using Clause.Known.isNull negated (.column table field)
  | and _ _ ihLeft ihRight | or _ _ ihLeft ihRight =>
    exact List.forall_mem_append.mpr ⟨ihLeft, ihRight⟩
  | group _ _ ih => simpa using Clause.Known.nested ih

theorem toClause_known {expr : Expr} {clause : Clause}
    (compiled : expr.toClause table = .ok clause) : clause.Known := by
  cases compilesTo_of_toClause compiled with
  | term _ alone => exact conditions_known alone _ List.mem_cons_self
  | chain _ compiles => exact .nested (conditions_known compiles)

end

/-! ### Readability -/

/-- The name is what a query calls one of the functions. -/
def NamesBuiltin (name : String) : Prop := ∃ f : Builtin, name = f.queryName

theorem covers_known : Covers NamesBuiltin False Scalar.Known Clause.Known where
  function known := by
    cases known with
    | function f each => exact ⟨⟨f, rfl⟩, False.elim, each⟩
  compare known := by
    cases known with
    | compare _ knownLeft knownRight => exact ⟨knownLeft, knownRight⟩
  inList known := by
    cases known with
    | inList _ _ knownColumn => exact ⟨knownColumn, False.elim⟩
  isNull known := by
    cases known with
    | isNull _ knownColumn => exact knownColumn
  nested known := by
    cases known with
    | nested each => exact ⟨False.elim, each⟩

theorem Readable.append_text {front back : List Piece} {text : String} (readable : Readable front)
    (plain : Plain text) (more : Readable back) : Readable (front ++ .text text :: back) := by
  refine readable.append ?_ (.text plain more)
  intro piece isHead
  cases isHead
  rfl

theorem plain_of_namesBuiltin {name : String} (named : NamesBuiltin name) : Plain name := by
  obtain ⟨f, rfl⟩ := named
  cases f <;> decide

theorem composes_readable : Composes NamesBuiltin False fun pieces _ _ => Readable pieces := by
  have fixed : ∀ text ∈ joiningTexts ++ openingTexts ++ [")"], Plain text := by decide
  refine composes_of_between fixed plain_of_namesBuiltin .nil (fun _ => .value .nil) ?_ ?_
  · intro table name
    refine .identifier ?_ (.text (by decide) (.identifier (by simp) .nil))
    intro piece isHead
    cases isHead
    rfl
  · intro text front back _ _ _ _ plain readable more
    exact readable.append_text plain more

theorem clause_readable {clause : Clause} (known : clause.Known) : Readable clause.pieces :=
  composes_readable.clause covers_known known

/-! ### Columns and values -/

/-- The pieces write these columns and have these values, in order. -/
structure Shows (pieces : List Piece) (columns : List (String × String)) (values : List Literal) :
    Prop where
  qualified_eq : ∀ (dialect : Dialect) (bound : Nat) (more : List Fragment),
    qualified (dialect.fragments bound pieces ++ more) = columns ++ qualified more
  values_eq : pieces.filterMap Piece.value? = values

namespace Shows

theorem nil : Shows [] [] [] where
  qualified_eq _ _ _ := rfl
  values_eq := rfl

theorem append {front back : List Piece} {columns moreColumns : List (String × String)}
    {values moreValues : List Literal} (first : Shows front columns values)
    (second : Shows back moreColumns moreValues) :
    Shows (front ++ back) (columns ++ moreColumns) (values ++ moreValues) where
  qualified_eq dialect bound more := by
    rw [fragments_append, List.append_assoc, first.qualified_eq, second.qualified_eq,
      List.append_assoc]
  values_eq := by rw [List.filterMap_append, first.values_eq, second.values_eq]

theorem text (text : String) : Shows [.text text] [] [] where
  qualified_eq dialect bound more := by
    rw [Dialect.fragments, Dialect.fragments, List.append_nil, qualified_chars, List.nil_append]
  values_eq := rfl

theorem value (literal : Literal) : Shows [.value literal] [] [literal] where
  qualified_eq dialect bound more := by
    rw [Dialect.fragments, Dialect.fragments, List.append_nil, qualified_chars, List.nil_append]
  values_eq := rfl

theorem column (table name : String) :
    Shows [.identifier table, .text ".", .identifier name] [(table, name)] [] where
  qualified_eq dialect bound more := by
    have point : ".".toList = ['.'] := by decide
    simp [Dialect.fragments, point, qualified]
  values_eq := rfl

end Shows

theorem composes_shows : Composes (fun _ => True) False Shows := by
  have fixed : ∀ text ∈ joiningTexts ++ openingTexts ++ [")"], True := fun _ _ => trivial
  refine composes_of_between fixed id .nil .value .column ?_
  intro text front back columns more values others _ first rest
  simpa using (first.append (.text text)).append rest

theorem clause_shows (clause : Clause) : Shows clause.pieces clause.columns clause.values :=
  composes_shows.clause covers_all trivial

/-- The values that the text of a clause has placeholders for are its values. -/
theorem values_pieces (clause : Clause) : clause.pieces.filterMap Piece.value? = clause.values :=
  (clause_shows clause).values_eq

/-- A reader of the text of a clause finds its columns. -/
theorem scan_clause {clause : Clause} (known : clause.Known) (dialect : Dialect) (bound : Nat) :
    qualified (scan dialect.mark (dialect.spell bound clause.pieces)) = clause.columns := by
  rw [scan_spell (clause_readable known)]
  simpa [qualified] using (clause_shows clause).qualified_eq dialect bound []

end QueryFilter
