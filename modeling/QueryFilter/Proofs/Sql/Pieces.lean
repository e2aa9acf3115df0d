import QueryFilter.Proofs.Walk
import QueryFilter.Sql.Query

/-!
# Walks over pieces

What holds of the parts that clauses are written with, and is kept when texts are put between parts
and around them, holds of the pieces of whole clauses, with the columns and the values in them:
`Composes.clause`. Clauses in a query are joined in the same way: `Composes.wherePieces`.
-/

namespace QueryFilter

/-! ### Pieces in rows -/

theorem Scalar.pieces_function (name : String) (args : List Scalar) :
    (Scalar.function name args).pieces =
      .text name :: .text "(" :: [.text ","].intercalate (args.map pieces) ++ [.text ")"] := by
  have each : Scalar.argPieces args = args.map pieces := by
    induction args with
    | nil => rfl
    | cons arg args ih => rw [argPieces, ih, List.map_cons]
  rw [pieces, each]

/-- The conditions of a nested clause between its parentheses. -/
def Clause.innerPieces : List (Connector × Clause) → List Piece
  | [] => []
  | (_, first) :: rest =>
    first.pieces ++ rest.flatMap fun condition => .text condition.1.sql :: condition.2.pieces

theorem Clause.joinedPieces_eq_flatMap (conditions : List (Connector × Clause)) :
    joinedPieces conditions =
      conditions.flatMap fun condition => .text condition.1.sql :: condition.2.pieces := by
  induction conditions with
  | nil => rfl
  | cons condition rest ih => rw [joinedPieces, ih, List.flatMap_cons]

theorem Clause.pieces_nested (conditions : List (Connector × Clause)) :
    (Clause.nested conditions).pieces = .text "(" :: innerPieces conditions ++ [.text ")"] := by
  cases conditions with
  | nil => rfl
  | cons condition rest =>
    rw [pieces, innerPieces, joinedPieces_eq_flatMap]
    simp

theorem Scalar.pieces_ne_nil (scalar : Scalar) : scalar.pieces ≠ [] := by
  cases scalar <;> simp [pieces]

theorem Clause.pieces_ne_nil (clause : Clause) : clause.pieces ≠ [] := by
  cases clause with
  | nested conditions => simp [pieces_nested]
  | _ => simp [pieces]

theorem intercalate_ne_nil {α : Type} {separator : List α} {items : List (List α)}
    (nonempty : items ≠ []) (each : ∀ item ∈ items, item ≠ []) :
    separator.intercalate items ≠ [] := by
  cases items with
  | nil => exact absurd rfl nonempty
  | cons item items =>
    have first : item ≠ [] := each item List.mem_cons_self
    by_cases last : items = []
    · rw [last, List.intercalate_singleton]
      exact first
    · rw [List.intercalate_cons_of_ne_nil last]
      simp [first]

/-! ### What is walked over -/

/-- The texts between the parts of clauses and between clauses. -/
def joiningTexts : List String :=
  [" ", "=", "<>", ">", ">=", "<", "<=", "like", ",", ", ", " is null", " is not null", " and ",
    " or ", " where "]

/-- The texts that a closing parenthesis answers. -/
def openingTexts : List String := ["(", " in (", " not in ("]

theorem relation_joins (relation : Relation) : relation.sql ∈ joiningTexts := by
  cases relation <;> decide

theorem connector_joins (connector : Connector) : connector.sql ∈ joiningTexts := by
  cases connector <;> decide

/-- Scalars and clauses whose parts are among them. Their functions are called as `named` says, and
if they are `full` then no list in them is empty. -/
structure Covers (named : String → Prop) (full : Prop) (scalars : Scalar → Prop)
    (clauses : Clause → Prop) : Prop where
  function : ∀ {name args}, scalars (.function name args) →
    named name ∧ (full → args ≠ []) ∧ ∀ arg ∈ args, scalars arg
  compare : ∀ {left relation right}, clauses (.compare left relation right) →
    scalars left ∧ scalars right
  inList : ∀ {column values negated}, clauses (.inList column values negated) →
    scalars column ∧ (full → values ≠ [])
  isNull : ∀ {column negated}, clauses (.isNull column negated) → scalars column
  nested : ∀ {conditions}, clauses (.nested conditions) →
    (full → conditions ≠ []) ∧ ∀ condition ∈ conditions, clauses condition.2

theorem covers_all : Covers (fun _ => True) False (fun _ => True) (fun _ => True) where
  function _ := ⟨trivial, False.elim, fun _ _ => trivial⟩
  compare _ := ⟨trivial, trivial⟩
  inList _ := ⟨trivial, False.elim⟩
  isNull _ := trivial
  nested _ := ⟨False.elim, fun _ _ => trivial⟩

/-- What holds of values and columns and is kept when a text joins two parts or encloses one. -/
structure Composes (named : String → Prop) (full : Prop)
    (motive : List Piece → List (String × String) → List Literal → Prop) : Prop where
  nil : motive [] [] []
  value : ∀ literal, motive [.value literal] [] [literal]
  column : ∀ table name, motive [.identifier table, .text ".", .identifier name] [(table, name)] []
  between : ∀ {text front back columns more values others}, named text ∨ text ∈ joiningTexts →
    motive front columns values → motive back more others →
      motive (front ++ .text text :: back) (columns ++ more) (values ++ others)
  enclosed : ∀ {opening front inside columns more values others}, opening ∈ openingTexts →
    (full → inside ≠ []) → motive front columns values → motive inside more others →
      motive (front ++ .text opening :: inside ++ [.text ")"]) (columns ++ more) (values ++ others)

/-! ### Walks -/

section

variable {named : String → Prop} {full : Prop} {scalars : Scalar → Prop} {clauses : Clause → Prop}
  {motive : List Piece → List (String × String) → List Literal → Prop}

/-- It is enough that every text may stand between two parts. -/
theorem composes_of_between {allowed : String → Prop}
    (fixed : ∀ text ∈ joiningTexts ++ openingTexts ++ [")"], allowed text)
    (names : ∀ {name}, named name → allowed name) (nil : motive [] [] [])
    (value : ∀ literal, motive [.value literal] [] [literal])
    (column : ∀ table name,
      motive [.identifier table, .text ".", .identifier name] [(table, name)] [])
    (between : ∀ {text front back columns more values others}, allowed text →
      motive front columns values → motive back more others →
        motive (front ++ .text text :: back) (columns ++ more) (values ++ others)) :
    Composes named full motive where
  nil := nil
  value := value
  column := column
  between := fun joins => between (joins.elim names fun isText => fixed _ (by simp [isText]))
  enclosed := by
    intro opening front inside columns more values others isOpening _ first within
    have opened := between (fixed opening (by simp [isOpening])) first within
    simpa using between (fixed ")" (by simp)) opened nil

namespace Composes

theorem intercalate (composes : Composes named full motive) {separator : String}
    (joins : separator ∈ joiningTexts) {α : Type} {items : List α} {pieces : α → List Piece}
    {columns : α → List (String × String)} {values : α → List Literal}
    (each : ∀ item ∈ items, motive (pieces item) (columns item) (values item)) :
    motive ([.text separator].intercalate (items.map pieces)) (items.flatMap columns)
      (items.flatMap values) := by
  induction items with
  | nil => exact composes.nil
  | cons item items ih =>
    obtain ⟨first, rest⟩ := List.forall_mem_cons.mp each
    rw [List.map_cons, List.flatMap_cons, List.flatMap_cons]
    by_cases last : items = []
    · subst last
      simpa using first
    · rw [List.intercalate_cons_of_ne_nil (by simpa using last), List.append_assoc]
      exact composes.between (.inr joins) first (ih rest)

theorem conditions (composes : Composes named full motive) {conditions : List (Connector × Clause)}
    (each : ∀ condition ∈ conditions,
      motive condition.2.pieces condition.2.columns condition.2.values)
    {front : List Piece} {columns : List (String × String)} {values : List Literal}
    (first : motive front columns values) :
    motive (front ++ conditions.flatMap fun condition =>
        .text condition.1.sql :: condition.2.pieces)
      (columns ++ conditions.flatMap (·.2.columns))
      (values ++ conditions.flatMap (·.2.values)) := by
  induction conditions generalizing front columns values with
  | nil => simpa using first
  | cons condition rest ih =>
    obtain ⟨next, later⟩ := List.forall_mem_cons.mp each
    have joined := composes.between (.inr (connector_joins condition.1)) first next
    simpa using ih later joined

theorem scalar (composes : Composes named full motive)
    (covers : Covers named full scalars clauses) {scalar : Scalar} (covered : scalars scalar) :
    motive scalar.pieces scalar.columns scalar.values := by
  induction scalar using Scalar.induction with
  | column table name => exact composes.column table name
  | value literal => exact composes.value literal
  | function name args ih =>
    obtain ⟨isName, nonempty, each⟩ := covers.function covered
    have listed := composes.intercalate (by decide : "," ∈ joiningTexts)
      fun arg member => ih arg member (each arg member)
    have filled (isFull : full) : [.text ","].intercalate (args.map Scalar.pieces) ≠ [] :=
      intercalate_ne_nil (by simpa using nonempty isFull)
        (List.forall_mem_map.mpr fun arg _ => arg.pieces_ne_nil)
    have called := composes.between (.inl isName) composes.nil composes.nil
    rw [Scalar.pieces_function, Scalar.columns_function, Scalar.values_function]
    simpa using composes.enclosed (by decide : "(" ∈ openingTexts) filled called listed

theorem inList (composes : Composes named full motive)
    (covers : Covers named full scalars clauses) {column : Scalar} {values : List Literal}
    {negated : Bool} (covered : clauses (.inList column values negated)) :
    motive (Clause.inList column values negated).pieces
      (Clause.inList column values negated).columns
      (Clause.inList column values negated).values := by
  obtain ⟨coveredColumn, nonempty⟩ := covers.inList covered
  have opens : (if negated then " not in (" else " in (") ∈ openingTexts := by
    cases negated <;> decide
  have each : ∀ value ∈ values, motive [.value value] [] [value] :=
    fun value _ => composes.value value
  have listed := composes.intercalate (by decide : ", " ∈ joiningTexts) each
  have noColumns : values.flatMap (fun _ => ([] : List (String × String))) = [] := by
    simp [List.flatMap_eq_nil_iff]
  rw [noColumns, List.flatMap_singleton'] at listed
  have filled (isFull : full) :
      [.text ", "].intercalate (values.map fun value => [Piece.value value]) ≠ [] :=
    intercalate_ne_nil (by simpa using nonempty isFull)
      (List.forall_mem_map.mpr fun value _ => List.cons_ne_nil _ _)
  rw [Clause.pieces, Clause.columns, Clause.values]
  simpa using composes.enclosed opens filled (composes.scalar covers coveredColumn) listed

theorem nested (composes : Composes named full motive) {conditions : List (Connector × Clause)}
    (nonempty : full → conditions ≠ [])
    (each : ∀ condition ∈ conditions,
      motive condition.2.pieces condition.2.columns condition.2.values) :
    motive (Clause.nested conditions).pieces (Clause.nested conditions).columns
      (Clause.nested conditions).values := by
  have inner : motive (Clause.innerPieces conditions) (conditions.flatMap (·.2.columns))
      (conditions.flatMap (·.2.values)) := by
    cases conditions with
    | nil => exact composes.nil
    | cons first rest =>
      obtain ⟨motiveFirst, motiveRest⟩ := List.forall_mem_cons.mp each
      exact composes.conditions motiveRest motiveFirst
  have filled (isFull : full) : Clause.innerPieces conditions ≠ [] := by
    cases conditions with
    | nil => exact absurd rfl (nonempty isFull)
    | cons first rest => simp [Clause.innerPieces, first.2.pieces_ne_nil]
  rw [Clause.pieces_nested, Clause.columns_nested, Clause.values_nested]
  simpa using composes.enclosed (by decide : "(" ∈ openingTexts) filled composes.nil inner

theorem clause (composes : Composes named full motive)
    (covers : Covers named full scalars clauses) {clause : Clause} (covered : clauses clause) :
    motive clause.pieces clause.columns clause.values := by
  induction clause using Clause.induction with
  | compare left relation right =>
    obtain ⟨coveredLeft, coveredRight⟩ := covers.compare covered
    have space : " " ∈ joiningTexts := by decide
    have spaced := composes.between (.inr space) composes.nil (composes.scalar covers coveredRight)
    have related := composes.between (.inr (relation_joins relation)) composes.nil spaced
    rw [Clause.pieces, Clause.columns, Clause.values]
    simpa using composes.between (.inr space) (composes.scalar covers coveredLeft) related
  | inList column values negated => exact composes.inList covers covered
  | isNull column negated =>
    have joins : (if negated then " is not null" else " is null") ∈ joiningTexts := by
      cases negated <;> decide
    have shown := composes.scalar covers (covers.isNull covered)
    rw [Clause.pieces, Clause.columns, Clause.values]
    simpa using composes.between (.inr joins) shown composes.nil
  | nested conditions ih =>
    obtain ⟨nonempty, each⟩ := covers.nested covered
    exact composes.nested nonempty
      fun condition member => ih condition member (each condition member)

theorem wherePieces (composes : Composes named full motive)
    (covers : Covers named full scalars clauses) {items : List Clause}
    (covered : ∀ clause ∈ items, clauses clause) :
    motive (Query.wherePieces items) (items.flatMap Clause.columns)
      (items.flatMap Clause.values) := by
  cases items with
  | nil => exact composes.nil
  | cons first rest =>
    have joined := composes.intercalate (by decide : " and " ∈ joiningTexts)
      fun item member => composes.clause covers (covered item member)
    exact composes.between (.inr (by decide : " where " ∈ joiningTexts)) composes.nil joined

end Composes

end

end QueryFilter
