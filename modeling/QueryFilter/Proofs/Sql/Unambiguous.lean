import QueryFilter.Proofs.Sql.Delimited
import QueryFilter.Proofs.Sql.Placeholders

/-!
# Queries can be read back

Two queries on one table in one dialect have the same text and the same bindings only if their
clauses are the same, except for first connectors, which mean nothing: `sql_bindings_eq_iff`. The
text of a scalar and that of a clause show where they end, whatever follows them.
-/

namespace QueryFilter

/-! ### From symbols to glyphs -/

/-- Puts values in the places of placeholders. -/
def fill : List Symbol → List Literal → List Glyph
  | [], _ => []
  | .identifier name :: rest, values => .identifier name :: fill rest values
  | .char c :: rest, values => .char c :: fill rest values
  | .placeholder _ :: rest, [] => fill rest []
  | .placeholder _ :: rest, value :: values => .value value :: fill rest values

theorem fill_chars (text : List Char) (rest : List Symbol) (values : List Literal) :
    fill (text.map .char ++ rest) values = chars text ++ fill rest values := by
  induction text with
  | nil => rfl
  | cons c text ih => exact congrArg (Glyph.char c :: ·) ih

theorem fill_symbols (dialect : Dialect) (bound : Nat) (pieces : List Piece) :
    fill (dialect.symbols bound pieces) (pieces.filterMap Piece.value?) = glyphsOf pieces := by
  induction pieces generalizing bound with
  | nil => rfl
  | cons piece pieces ih =>
    cases piece with
    | identifier name => exact congrArg (Glyph.identifier name :: ·) (ih bound)
    | value literal => exact congrArg (Glyph.value literal :: ·) (ih (bound + 1))
    | text text =>
      rw [Dialect.symbols, fill_chars]
      exact congrArg (chars text.toList ++ ·) (ih bound)

/-! ### Values in their bindings -/

def Literal.Finite : Literal → Prop
  | .float x => x.isFinite = true
  | _ => True

def Json.literal? : Json → Option Literal
  | .integer n => some (.integer (Int64.ofInt n))
  | .float x => some (.float x)
  | .string s => some (.string s)
  | _ => none

theorem literal_toJson {value : Literal} (finite : value.Finite) :
    value.toJson.literal? = some value := by
  cases value with
  | integer n => simp [Literal.toJson, Json.literal?]
  | string s => rfl
  | float x =>
    have isFinite : x.isFinite = true := finite
    rw [Literal.toJson, if_pos isFinite]
    rfl

theorem filterMap_literal_toJson {values : List Literal} (finite : ∀ value ∈ values, value.Finite) :
    (values.map Literal.toJson).filterMap Json.literal? = values := by
  induction values with
  | nil => rfl
  | cons value values ih =>
    have rest := ih fun other member => finite other (List.mem_cons_of_mem _ member)
    rw [List.map_cons, List.filterMap_cons, literal_toJson (finite value List.mem_cons_self), rest]

theorem glyphs_of_read {query other : Query} (sameDialect : query.dialect = other.dialect)
    (known : ∀ clause ∈ query.clauses, clause.Known)
    (otherKnown : ∀ clause ∈ other.clauses, clause.Known)
    (finite : ∀ value ∈ query.clauses.flatMap Clause.values, value.Finite)
    (otherFinite : ∀ value ∈ other.clauses.flatMap Clause.values, value.Finite)
    (sameText : query.sql = other.sql) (sameBindings : query.bindings = other.bindings) :
    glyphsOf query.pieces = glyphsOf other.pieces := by
  have sameRead : query.read = other.read := by rw [Query.read, Query.read, sameText, sameDialect]
  rw [read_eq_symbols known, read_eq_symbols otherKnown] at sameRead
  have sameValues : query.pieces.filterMap Piece.value? = other.pieces.filterMap Piece.value? := by
    have values : ∀ query : Query, query.pieces.filterMap Piece.value? =
        query.clauses.flatMap Clause.values := fun query => values_wherePieces query.clauses
    rw [bindings_eq, bindings_eq] at sameBindings
    rw [values, values, ← filterMap_literal_toJson finite, sameBindings,
      filterMap_literal_toJson otherFinite]
  rw [← fill_symbols query.dialect 0, ← fill_symbols other.dialect 0, sameRead, sameValues]

/-! ### Scalars -/

def Scalar.glyphs (scalar : Scalar) : List Glyph := glyphsOf scalar.pieces

/-- What a function is written with in front of its arguments. -/
def Builtin.word (f : Builtin) : List Char := f.queryName.toList ++ ['(']

theorem column_glyphs (table name : String) :
    (Scalar.column table name).glyphs = [.identifier table, .char '.', .identifier name] := by
  simp [Scalar.glyphs, Scalar.pieces, glyphsOf, Piece.glyphs, chars]

theorem function_glyphs (f : Builtin) (args : List Scalar) :
    (Scalar.function f.queryName args).glyphs = chars f.word ++
      (listGlyphs Scalar.glyphs (fun arg => chars [','] ++ arg.glyphs) args ++ [.char ')']) := by
  have listed : glyphsOf ([.text ","].intercalate (args.map Scalar.pieces)) =
      listGlyphs Scalar.glyphs (fun arg => chars [','] ++ arg.glyphs) args :=
    glyphsOf_intercalate "," Scalar.pieces args
  rw [Scalar.glyphs, Scalar.pieces_function, ← listed]
  simp [glyphsOf, Piece.glyphs, chars, Builtin.word]

theorem function_starts (f : Builtin) (args : List Scalar) :
    ∃ c rest, (Scalar.function f.queryName args).glyphs = .char c :: rest ∧ c ≠ '(' ∧ c ≠ ')' := by
  rw [function_glyphs]
  cases f with
  | concat => exact ⟨'C', _, rfl, by decide, by decide⟩
  | sum => exact ⟨'S', _, rfl, by decide, by decide⟩

theorem scalar_starts {scalar : Scalar} (known : scalar.Known) :
    ∃ first rest, scalar.glyphs = first :: rest ∧ first ≠ .char '(' ∧ first ≠ .char ')' := by
  cases known with
  | column table name => exact ⟨_, _, column_glyphs table name, by simp, by simp⟩
  | value literal => exact ⟨.value literal, [], rfl, by simp, by simp⟩
  | @function f args known =>
    obtain ⟨c, rest, written, noOpen, noClose⟩ := function_starts f args
    exact ⟨.char c, rest, written, by simpa using noOpen, by simpa using noClose⟩

theorem builtins_apart (f g : Builtin) : Apart (fun f => chars (Builtin.word f)) id f g := by
  apply words_apart
  intro f g
  cases f <;> cases g <;> decide

theorem scalar_apart {scalar other : Scalar} (known : scalar.Known) (otherKnown : other.Known) :
    Apart Scalar.glyphs id scalar other := by
  -- Scalars of two kinds differ in their first glyphs, so only equal kinds have to be read on.
  induction known generalizing other with
  | column table name =>
    intro rest more same
    rw [column_glyphs] at same
    cases otherKnown with
    | column otherTable otherName =>
      rw [column_glyphs] at same
      cases same
      exact ⟨rfl, rfl⟩
    | value literal => cases same
    | @function g others _ =>
      obtain ⟨c, last, written, -⟩ := function_starts g others
      rw [written] at same
      cases same
  | value literal =>
    intro rest more same
    cases otherKnown with
    | column otherTable otherName =>
      rw [column_glyphs] at same
      cases same
    | value otherLiteral =>
      cases same
      exact ⟨rfl, rfl⟩
    | @function g others _ =>
      obtain ⟨c, last, written, -⟩ := function_starts g others
      rw [written] at same
      cases same
  | @function f args known ih =>
    intro rest more same
    obtain ⟨c, last, written, -⟩ := function_starts f args
    cases otherKnown with
    | column otherTable otherName =>
      rw [written, column_glyphs] at same
      cases same
    | value literal =>
      rw [written] at same
      cases same
    | @function g others othersKnown =>
      have distinct : Distinct Scalar.glyphs id args others := {
        starts := by
          intro arg member
          obtain ⟨first, last, written, -, noClose⟩ :=
            scalar_starts (member.elim (known arg) (othersKnown arg))
          exact ⟨first, last, written, noClose⟩
        apart := fun arg member other otherMember => ih arg member (othersKnown other otherMember) }
      have comma : Starts (chars [',']) := ⟨.char ',', [], rfl, by simp⟩
      rw [function_glyphs, function_glyphs] at same
      simp only [List.append_assoc, List.singleton_append] at same
      obtain ⟨sameFunction, sameInside⟩ := builtins_apart f g same
      obtain rfl : f = g := sameFunction
      obtain ⟨sameArgs, sameRest⟩ := separated_apart distinct comma sameInside
      rw [List.map_id, List.map_id] at sameArgs
      exact ⟨congrArg (Scalar.function f.queryName) sameArgs, sameRest⟩

/-! ### Clauses -/

def Clause.glyphs (clause : Clause) : List Glyph := glyphsOf clause.pieces

/-- What a predicate says of its first scalar. -/
inductive Verb where
  | relation (relation : Relation)
  | membership (negated : Bool)
  | nullness (negated : Bool)
deriving DecidableEq

def Verb.word : Verb → List Char
  | .relation sign => ' ' :: sign.sql.toList ++ [' ']
  | .membership negated => (if negated then " not in (" else " in (").toList
  | .nullness negated => (if negated then " is not null" else " is null").toList

def Verb.all : List Verb :=
  [.relation .equal, .relation .notEqual, .relation .greaterThan, .relation .greaterOrEqual,
    .relation .lessThan, .relation .lessOrEqual, .relation .like, .membership true,
    .membership false, .nullness true, .nullness false]

theorem Verb.mem_all (verb : Verb) : verb ∈ all := by
  cases verb with
  | relation relation => cases relation <;> decide
  | membership negated => cases negated <;> decide
  | nullness negated => cases negated <;> decide

theorem verbs_apart (verb other : Verb) :
    Apart (fun verb => chars (Verb.word verb)) id verb other := by
  have prefixFree : ∀ verb ∈ Verb.all, ∀ other ∈ Verb.all,
      verb.word <+: other.word → verb = other := by decide +kernel
  apply words_apart
  intro verb other
  exact prefixFree verb verb.mem_all other other.mem_all

theorem connectors_apart (connector other : Connector) :
    Apart (fun connector => chars (Connector.sql connector).toList) id connector other := by
  apply words_apart
  intro connector other
  cases connector <;> cases other <;> decide

theorem compare_glyphs (left : Scalar) (relation : Relation) (right : Scalar) :
    (Clause.compare left relation right).glyphs =
      left.glyphs ++ (chars (Verb.relation relation).word ++ right.glyphs) := by
  simp [Clause.glyphs, Scalar.glyphs, Clause.pieces, glyphsOf, Piece.glyphs, chars, Verb.word]

theorem inList_glyphs (column : Scalar) (values : List Literal) (negated : Bool) :
    (Clause.inList column values negated).glyphs = column.glyphs ++
      (chars (Verb.membership negated).word ++
        (listGlyphs (fun value => [.value value]) (fun value => chars [',', ' '] ++ [.value value])
          values ++ [.char ')'])) := by
  have listed : glyphsOf ([.text ", "].intercalate (values.map fun value => [.value value])) =
      listGlyphs (fun value => [.value value]) (fun value => chars [',', ' '] ++ [.value value])
        values :=
    glyphsOf_intercalate ", " (fun value => [.value value]) values
  rw [Clause.glyphs, Clause.pieces, glyphsOf_append, glyphsOf_append, glyphsOf_append, listed]
  simp [Scalar.glyphs, glyphsOf, Piece.glyphs, chars, Verb.word]

theorem isNull_glyphs (column : Scalar) (negated : Bool) :
    (Clause.isNull column negated).glyphs =
      column.glyphs ++ chars (Verb.nullness negated).word := by
  simp [Clause.glyphs, Scalar.glyphs, Clause.pieces, glyphsOf, Piece.glyphs, Verb.word]

theorem nested_glyphs (conditions : List (Connector × Clause)) :
    (Clause.nested conditions).glyphs = .char '(' ::
      (listGlyphs (·.2.glyphs) (fun condition => chars condition.1.sql.toList ++ condition.2.glyphs)
        conditions ++ [.char ')']) := by
  have inner : glyphsOf (Clause.innerPieces conditions) = listGlyphs (·.2.glyphs)
      (fun condition => chars condition.1.sql.toList ++ condition.2.glyphs) conditions := by
    cases conditions with
    | nil => rfl
    | cons first rest =>
      rw [Clause.innerPieces, listGlyphs, glyphsOf_append, glyphsOf, glyphsOf, List.flatMap_assoc]
      rfl
  rw [Clause.glyphs, Clause.pieces_nested, glyphsOf_append, ← inner]
  simp [glyphsOf, Piece.glyphs, chars]

/-- The first scalar of a predicate, its verb and what is written behind the verb. -/
def Clause.predicate? : Clause → Option (Scalar × Verb × List Glyph)
  | .compare left relation right => some (left, .relation relation, right.glyphs)
  | .inList column values negated =>
    some (column, .membership negated, listGlyphs (fun value => [.value value])
      (fun value => chars [',', ' '] ++ [.value value]) values ++ [.char ')'])
  | .isNull column negated => some (column, .nullness negated, [])
  | .nested _ => none

theorem predicate_glyphs {clause : Clause} {subject : Scalar} {verb : Verb} {object : List Glyph}
    (isPredicate : clause.predicate? = some (subject, verb, object)) :
    clause.glyphs = subject.glyphs ++ (chars verb.word ++ object) := by
  cases clause with
  | compare left relation right =>
    cases isPredicate
    exact compare_glyphs _ relation right
  | inList column values negated =>
    cases isPredicate
    exact inList_glyphs _ values negated
  | isNull column negated =>
    cases isPredicate
    rw [isNull_glyphs, List.append_nil]
  | nested conditions => cases isPredicate

theorem predicate_known {clause : Clause} (known : clause.Known) {subject : Scalar} {verb : Verb}
    {object : List Glyph} (isPredicate : clause.predicate? = some (subject, verb, object)) :
    subject.Known := by
  cases known with
  | compare relation knownLeft _ =>
    cases isPredicate
    exact knownLeft
  | inList values negated knownColumn =>
    cases isPredicate
    exact knownColumn
  | isNull negated knownColumn =>
    cases isPredicate
    exact knownColumn
  | nested _ => cases isPredicate

/-- A clause that begins as a predicate does is one with the same first scalar and verb. -/
theorem behind_verb {clause other : Clause} (known : clause.Known) {subject : Scalar} {verb : Verb}
    {object : List Glyph} (isPredicate : clause.predicate? = some (subject, verb, object))
    (otherKnown : other.Known) {rest more : List Glyph}
    (same : clause.glyphs ++ rest = other.glyphs ++ more) :
    ∃ otherObject, other.predicate? = some (subject, verb, otherObject) ∧
      object ++ rest = otherObject ++ more := by
  have subjectKnown := predicate_known known isPredicate
  rw [predicate_glyphs isPredicate, List.append_assoc] at same
  cases otherIs : other.predicate? with
  | none =>
    cases other with
    | nested conditions =>
      obtain ⟨first, last, written, noOpen, -⟩ := scalar_starts subjectKnown
      rw [written, nested_glyphs] at same
      exact absurd (List.cons.inj same).1 noOpen
    | _ => cases otherIs
  | some parts =>
    obtain ⟨otherSubject, otherVerb, otherObject⟩ := parts
    rw [predicate_glyphs otherIs, List.append_assoc, List.append_assoc, List.append_assoc] at same
    obtain ⟨sameSubject, sameBehind⟩ :=
      scalar_apart subjectKnown (predicate_known otherKnown otherIs) same
    obtain ⟨sameVerb, sameObject⟩ := verbs_apart verb otherVerb sameBehind
    obtain rfl : subject = otherSubject := sameSubject
    obtain rfl : verb = otherVerb := sameVerb
    exact ⟨otherObject, rfl, sameObject⟩

theorem clause_starts {clause : Clause} (known : clause.Known) : Starts clause.glyphs := by
  cases isPredicate : clause.predicate? with
  | some parts =>
    obtain ⟨first, rest, written, -, noClose⟩ := scalar_starts (predicate_known known isPredicate)
    rw [predicate_glyphs isPredicate, written]
    exact ⟨first, _, rfl, noClose⟩
  | none =>
    cases clause with
    | nested conditions =>
      rw [nested_glyphs]
      exact ⟨.char '(', _, rfl, by simp⟩
    | _ => cases isPredicate

theorem joiner_starts (connector : Connector) : Starts (chars connector.sql.toList) := by
  cases connector with
  | and => exact ⟨.char ' ', chars "and ".toList, rfl, by simp⟩
  | or => exact ⟨.char ' ', chars "or ".toList, rfl, by simp⟩

/-! ### Clauses but for their first connectors -/

mutual

/-- The clause with `and` in front of the first condition of every nested clause. -/
def Clause.normal : Clause → Clause
  | .nested [] => .nested []
  | .nested ((_, first) :: rest) => .nested ((.and, first.normal) :: Clause.normalRest rest)
  | predicate => predicate

def Clause.normalRest : List (Connector × Clause) → List (Connector × Clause)
  | [] => []
  | (connector, clause) :: rest => (connector, clause.normal) :: Clause.normalRest rest

end

theorem Clause.normal_nested (conditions : List (Connector × Clause)) :
    (Clause.nested conditions).normal = .nested (keyed (fun condition => (.and, condition.2.normal))
      (fun condition => (condition.1, condition.2.normal)) conditions) := by
  have behind : ∀ rest, normalRest rest = rest.map fun condition =>
      (condition.1, condition.2.normal) := by
    intro rest
    induction rest with
    | nil => rfl
    | cons condition rest ih => rw [normalRest, ih, List.map_cons]
  cases conditions with
  | nil => rw [normal, keyed]
  | cons first rest => rw [normal, keyed, behind]

theorem values_distinct (values others : List Literal) :
    Distinct (fun value => [Glyph.value value]) id values others where
  starts value _ := ⟨.value value, [], rfl, by simp⟩
  apart := by
    intro value _ other _ rest more sameValue
    cases sameValue
    exact ⟨rfl, rfl⟩

/-- Conditions are told apart if their clauses are, the first of them by their clauses alone. -/
theorem conditions_apart {conditions others : List (Connector × Clause)}
    (distinct : Distinct (fun condition : Connector × Clause => condition.2.glyphs)
      (fun condition => condition.2.normal) conditions others)
    {rest more : List Glyph}
    (same : (Clause.nested conditions).glyphs ++ rest = (Clause.nested others).glyphs ++ more) :
    (Clause.nested conditions).normal = (Clause.nested others).normal ∧ rest = more := by
  have behind : Distinct
      (fun condition : Connector × Clause =>
        chars condition.1.sql.toList ++ condition.2.glyphs)
      (fun condition => (condition.1, condition.2.normal)) conditions others :=
    distinct.behind (fun condition => joiner_starts condition.1)
      fun condition other => connectors_apart condition.1 other.1
  rw [nested_glyphs, nested_glyphs, List.cons_append, List.cons_append, List.append_assoc,
    List.append_assoc] at same
  obtain ⟨sameConditions, sameRest⟩ :=
    listGlyphs_apart (distinct.map (Prod.mk Connector.and)) behind (List.cons.inj same).2
  rw [Clause.normal_nested, Clause.normal_nested, sameConditions]
  exact ⟨rfl, sameRest⟩

theorem clause_apart {clause other : Clause} (known : clause.Known) (otherKnown : other.Known) :
    Apart Clause.glyphs Clause.normal clause other := by
  -- A predicate shows its constructor by its verb, and a nested clause by its parenthesis.
  induction known generalizing other with
  | @compare left right relation knownLeft knownRight =>
    intro rest more same
    obtain ⟨object, otherIs, sameObject⟩ :=
      behind_verb (.compare relation knownLeft knownRight) rfl otherKnown same
    cases otherKnown with
    | compare otherRelation _ otherKnownRight =>
      cases otherIs
      obtain ⟨sameRight, sameRest⟩ := scalar_apart knownRight otherKnownRight sameObject
      exact ⟨congrArg (Clause.compare left relation) sameRight, sameRest⟩
    | _ => cases otherIs
  | @inList column values negated knownColumn =>
    intro rest more same
    obtain ⟨object, otherIs, sameObject⟩ :=
      behind_verb (.inList values negated knownColumn) rfl otherKnown same
    cases otherKnown with
    | inList others otherNegated _ =>
      cases otherIs
      have comma : Starts (chars [',', ' ']) := ⟨.char ',', [.char ' '], rfl, by simp⟩
      rw [List.append_assoc, List.append_assoc] at sameObject
      obtain ⟨sameValues, sameRest⟩ :=
        separated_apart (values_distinct values others) comma sameObject
      rw [List.map_id, List.map_id] at sameValues
      exact ⟨by rw [sameValues], sameRest⟩
    | _ => cases otherIs
  | @isNull column negated knownColumn =>
    intro rest more same
    obtain ⟨object, otherIs, sameRest⟩ :=
      behind_verb (.isNull negated knownColumn) rfl otherKnown same
    cases otherKnown with
    | isNull otherNegated _ =>
      cases otherIs
      exact ⟨rfl, sameRest⟩
    | _ => cases otherIs
  | @nested conditions knownConditions ih =>
    intro rest more same
    cases otherIs : other.predicate? with
    | some parts =>
      obtain ⟨_, impossible, -⟩ :=
        behind_verb otherKnown otherIs (.nested knownConditions) same.symm
      cases impossible
    | none =>
      cases otherKnown with
      | @nested others othersKnown =>
        refine conditions_apart { starts := ?_, apart := ?_ } same
        · exact fun condition member =>
            clause_starts (member.elim (knownConditions condition) (othersKnown condition))
        · exact fun condition member other otherMember =>
            ih condition member (othersKnown other otherMember)
      | _ => cases otherIs

theorem Clause.pieces_normal (clause : Clause) : clause.normal.pieces = clause.pieces := by
  induction clause using Clause.induction with
  | compare left relation right => rfl
  | inList column values negated => rfl
  | isNull column negated => rfl
  | nested conditions ih =>
    rw [normal_nested, pieces_nested, pieces_nested]
    cases conditions with
    | nil => rfl
    | cons first rest =>
      have behind : ∀ condition ∈ rest, condition.2.normal.pieces = condition.2.pieces :=
        fun condition member => ih condition (List.mem_cons_of_mem _ member)
      rw [keyed, innerPieces, innerPieces, ih first List.mem_cons_self, List.flatMap_map,
        List.flatMap_congr fun condition member => by rw [behind condition member]]

/-! ### Queries -/

section

variable {clauses others : List Clause}

theorem wherePieces_apart (known : ∀ clause ∈ clauses, clause.Known)
    (otherKnown : ∀ clause ∈ others, clause.Known)
    (same : glyphsOf (Query.wherePieces clauses) = glyphsOf (Query.wherePieces others)) :
    clauses.map Clause.normal = others.map Clause.normal := by
  have front (clause : Clause) (rest : List Clause) :
      glyphsOf (Query.wherePieces (clause :: rest)) = .char ' ' :: (chars "where ".toList ++
        listGlyphs Clause.glyphs (fun clause => chars " and ".toList ++ clause.glyphs)
          (clause :: rest)) := by
    have listed := glyphsOf_intercalate " and " Clause.pieces (clause :: rest)
    exact congrArg (chars " where ".toList ++ ·) listed
  cases clauses with
  | nil =>
    cases others with
    | nil => rfl
    | cons other others =>
      rw [front] at same
      cases same
  | cons clause clauses =>
    cases others with
    | nil =>
      rw [front] at same
      cases same
    | cons other others =>
      rw [front, front] at same
      have sameInside := List.append_cancel_left (List.cons.inj same).2
      have distinct :
          Distinct Clause.glyphs Clause.normal (clause :: clauses) (other :: others) := {
        starts := fun item member => clause_starts (member.elim (known item) (otherKnown item))
        apart := fun item member other otherMember =>
          clause_apart (known item member) (otherKnown other otherMember) }
      -- The end of the text takes the place of the parenthesis behind a list.
      have closed := congrArg (· ++ [Glyph.char ')']) sameInside
      exact (separated_apart distinct (joiner_starts .and) closed).1

/-- On one table in one dialect, queries have the same text and the same bindings only if their
clauses are the same but for first connectors. -/
theorem sql_bindings_eq_iff (table : String) (dialect : Dialect)
    (known : ∀ clause ∈ clauses, clause.Known) (otherKnown : ∀ clause ∈ others, clause.Known)
    (finite : ∀ value ∈ clauses.flatMap Clause.values, value.Finite)
    (otherFinite : ∀ value ∈ others.flatMap Clause.values, value.Finite) :
    ((⟨table, dialect, clauses⟩ : Query).sql = (⟨table, dialect, others⟩ : Query).sql ∧
      (⟨table, dialect, clauses⟩ : Query).bindings = (⟨table, dialect, others⟩ : Query).bindings) ↔
    clauses.map Clause.normal = others.map Clause.normal := by
  constructor
  · rintro ⟨sameText, sameBindings⟩
    have same : glyphsOf (⟨table, dialect, clauses⟩ : Query).pieces =
        glyphsOf (⟨table, dialect, others⟩ : Query).pieces :=
      glyphs_of_read rfl known otherKnown finite otherFinite sameText sameBindings
    rw [Query.pieces, Query.pieces, glyphsOf_append, glyphsOf_append] at same
    exact wherePieces_apart known otherKnown (List.append_cancel_left same)
  · intro same
    have written (items : List Clause) :
        Query.wherePieces (items.map Clause.normal) = Query.wherePieces items := by
      cases items with
      | nil => rfl
      | cons clause rest =>
        have pieces : ((clause :: rest).map Clause.normal).map Clause.pieces =
            (clause :: rest).map Clause.pieces := by
          rw [List.map_map]
          exact List.map_congr_left fun item _ => item.pieces_normal
        exact congrArg (fun listed => .text " where " :: [.text " and "].intercalate listed) pieces
    have samePieces : (⟨table, dialect, clauses⟩ : Query).pieces =
        (⟨table, dialect, others⟩ : Query).pieces := by
      rw [Query.pieces, Query.pieces, ← written clauses, same, written others]
    rw [Query.sql, Query.sql, Query.bindings, Query.bindings, samePieces]
    exact ⟨rfl, rfl⟩

end

/-- The first connector does not show, and a pushed clause is not a condition. -/
theorem sql_bindings_eq_of_first_connector :
    let a : Clause := .compare (.column "t" " and ") .equal
      (.function "SUM" [.column "t" "\"", .value (.float ⟨0⟩)])
    let b : Clause := .isNull (.column "t" "b") false
    let query (clauses : List Clause) : Query := ⟨"t", .postgres, clauses⟩
    ((query [.nested [(.and, a), (.and, b)]]).sql = (query [.nested [(.or, a), (.and, b)]]).sql ∧
      (query [.nested [(.and, a), (.and, b)]]).bindings =
        (query [.nested [(.or, a), (.and, b)]]).bindings) ∧
    ¬ ((query [.nested [(.and, a), (.and, b)]]).sql = (query [a, b]).sql ∧
      (query [.nested [(.and, a), (.and, b)]]).bindings = (query [a, b]).bindings) := by
  intro a b query
  have knownArgs : ∀ arg ∈ [Scalar.column "t" "\"", .value (.float ⟨0⟩)], arg.Known :=
    List.forall_mem_cons.mpr ⟨.column _ _, List.forall_mem_singleton.mpr (.value _)⟩
  have knownA : a.Known := .compare _ (.column _ _) (.function .sum knownArgs)
  have knownB : b.Known := .isNull _ (.column _ _)
  have known : ∀ clause ∈ [a, b], clause.Known :=
    List.forall_mem_cons.mpr ⟨knownA, List.forall_mem_singleton.mpr knownB⟩
  have nested (connector : Connector) :
      ∀ clause ∈ [Clause.nested [(connector, a), (.and, b)]], clause.Known := by
    have knownConditions : ∀ condition ∈ [(connector, a), (.and, b)], condition.2.Known :=
      List.forall_mem_cons.mpr ⟨knownA, List.forall_mem_singleton.mpr knownB⟩
    exact List.forall_mem_singleton.mpr (.nested knownConditions)
  have finite : ∀ value ∈ [Literal.float ⟨0⟩], value.Finite := List.forall_mem_singleton.mpr rfl
  constructor
  · exact (sql_bindings_eq_iff "t" .postgres (nested .and) (nested .or) finite finite).mpr rfl
  · intro same
    have merged :=
      (sql_bindings_eq_iff "t" .postgres (nested .and) known finite finite).mp same
    cases merged

end QueryFilter
