import QueryFilter.Proofs.Sql.Rendering

/-!
# Placeholders

A reader of a query who knows how identifiers are quoted and what placeholders look like finds one
placeholder for each binding, and the table and the columns in order: `read_query`. What is read is
the same in every dialect but for the spelling of the placeholders.
-/

namespace QueryFilter

/-! ### Symbols -/

inductive Symbol where
  | identifier (name : String)
  | placeholder (text : String)
  | char (c : Char)
deriving DecidableEq

/-- The digits in front and what follows them. -/
def splitDigits : List Symbol → List Char × List Symbol
  | .char c :: rest =>
    if c.isDigit then (c :: (splitDigits rest).1, (splitDigits rest).2) else ([], .char c :: rest)
  | rest => ([], rest)

/-- Outside of identifiers, a question mark is a placeholder, and so is a dollar sign with all the
digits behind it, whatever the dialect. -/
def readSymbols : List Fragment → List Symbol
  | [] => []
  | .identifier name :: rest => .identifier name :: readSymbols rest
  | .char c :: rest =>
    if c = '?' then .placeholder "?" :: readSymbols rest
    else if c = '$' then
      .placeholder (String.ofList ('$' :: (splitDigits (readSymbols rest)).1)) ::
        (splitDigits (readSymbols rest)).2
    else .char c :: readSymbols rest

def Query.read (query : Query) : List Symbol :=
  readSymbols (scan query.dialect.mark query.sql.toList)

namespace Symbol

def identifier? : Symbol → Option String
  | .identifier name => some name
  | _ => none

def placeholder? : Symbol → Option String
  | .placeholder text => some text
  | _ => none

/-- The symbol, with nothing left of a placeholder but its place. -/
def unspelled : Symbol → Symbol
  | .placeholder _ => .placeholder ""
  | symbol => symbol

end Symbol

/-! ### Pieces as symbols -/

/-- What the pieces of a text are read as. -/
def Dialect.symbols (dialect : Dialect) (bound : Nat) : List Piece → List Symbol
  | [] => []
  | .text text :: pieces => text.toList.map .char ++ dialect.symbols bound pieces
  | .identifier name :: pieces => .identifier name :: dialect.symbols bound pieces
  | .value _ :: pieces =>
    .placeholder (String.ofList (dialect.placeholder (bound + 1))) ::
      dialect.symbols (bound + 1) pieces

/-- No character of the text belongs to a placeholder. -/
def Inert (text : String) : Prop := ∀ c ∈ text.toList, c ≠ '?' ∧ c ≠ '$' ∧ c.isDigit = false

instance (text : String) : Decidable (Inert text) := List.decidableBAll _ text.toList

theorem readSymbols_chars {chars : List Char} (inert : ∀ c ∈ chars, c ≠ '?' ∧ c ≠ '$')
    (rest : List Fragment) :
    readSymbols (chars.map .char ++ rest) = chars.map .char ++ readSymbols rest := by
  induction chars with
  | nil => rfl
  | cons c chars ih =>
    obtain ⟨noMark, noDollar⟩ := inert c List.mem_cons_self
    rw [List.map_cons, List.cons_append, readSymbols, if_neg noMark, if_neg noDollar,
      ih fun other member => inert other (List.mem_cons_of_mem _ member)]
    rfl

theorem splitDigits_append {digits : List Char} (allDigits : ∀ c ∈ digits, c.isDigit)
    {rest : List Symbol} (ends : ∀ c, rest.head? = some (.char c) → c.isDigit = false) :
    splitDigits (digits.map .char ++ rest) = (digits, rest) := by
  induction digits with
  | nil =>
    cases rest with
    | nil => rfl
    | cons symbol rest =>
      cases symbol with
      | char c =>
        have noDigit : c.isDigit = false := ends c rfl
        simp [splitDigits, noDigit]
      | _ => rfl
  | cons c digits ih =>
    have rest := ih fun other member => allDigits other (List.mem_cons_of_mem _ member)
    rw [List.map_cons, List.cons_append, splitDigits, if_pos (allDigits c List.mem_cons_self), rest]

section

variable {pieces : List Piece}

theorem head_symbols_noDigit (inert : ∀ text, .text text ∈ pieces → Inert text)
    (dialect : Dialect) (bound : Nat) (c : Char)
    (isHead : (dialect.symbols bound pieces).head? = some (.char c)) : c.isDigit = false := by
  induction pieces with
  | nil => cases isHead
  | cons piece pieces ih =>
    cases piece with
    | identifier name => cases isHead
    | value literal => cases isHead
    | text text =>
      have inertRest : ∀ other, .text other ∈ pieces → Inert other :=
        fun other member => inert other (List.mem_cons_of_mem _ member)
      rw [Dialect.symbols] at isHead
      cases chars : text.toList with
      | nil =>
        rw [chars] at isHead
        exact ih inertRest isHead
      | cons first rest =>
        rw [chars] at isHead
        cases isHead
        exact (inert text List.mem_cons_self c (by simp [chars])).2.2

theorem readSymbols_placeholder (dialect : Dialect) (number : Nat) {rest : List Fragment}
    (ends : ∀ c, (readSymbols rest).head? = some (.char c) → c.isDigit = false) :
    readSymbols ((dialect.placeholder number).map .char ++ rest) =
      .placeholder (String.ofList (dialect.placeholder number)) :: readSymbols rest := by
  cases dialect with
  | mysql => rfl
  | sqlite => rfl
  | postgres =>
    have digits : ∀ c ∈ Nat.toDigits 10 number, c.isDigit :=
      fun c member => Nat.isDigit_of_mem_toDigits (by decide) (by decide) member
    have plain : ∀ c ∈ Nat.toDigits 10 number, c ≠ '?' ∧ c ≠ '$' := by
      intro c member
      have isDigit := digits c member
      constructor
      · rintro rfl
        cases isDigit
      · rintro rfl
        cases isDigit
    rw [Dialect.placeholder, List.map_cons, List.cons_append, readSymbols, readSymbols_chars plain,
      splitDigits_append digits ends]
    rfl

example : readSymbols ((Dialect.postgres.placeholder 10).map .char ++ [.char ')', .char '?']) =
    [.placeholder "$10", .char ')', .placeholder "?"] := by decide

theorem readSymbols_fragments (inert : ∀ text, .text text ∈ pieces → Inert text)
    (dialect : Dialect) (bound : Nat) :
    readSymbols (dialect.fragments bound pieces) = dialect.symbols bound pieces := by
  induction pieces generalizing bound with
  | nil => rfl
  | cons piece pieces ih =>
    have inertRest : ∀ other, .text other ∈ pieces → Inert other :=
      fun other member => inert other (List.mem_cons_of_mem _ member)
    have rest := ih inertRest
    cases piece with
    | identifier name => exact congrArg (Symbol.identifier name :: ·) (rest bound)
    | text text =>
      have here : ∀ c ∈ text.toList, c ≠ '?' ∧ c ≠ '$' := by
        intro c member
        obtain ⟨noMark, noDollar, -⟩ := inert text List.mem_cons_self c member
        exact ⟨noMark, noDollar⟩
      rw [Dialect.fragments, readSymbols_chars here, rest, Dialect.symbols]
    | value literal =>
      have ends := head_symbols_noDigit inertRest dialect (bound + 1)
      rw [← rest] at ends
      rw [Dialect.fragments, readSymbols_placeholder dialect _ ends, rest, Dialect.symbols]

end

/-! ### What is read in pieces -/

def Piece.identifier? : Piece → Option String
  | .identifier name => some name
  | _ => none

theorem placeholders_symbols (dialect : Dialect) (bound : Nat) (pieces : List Piece) :
    (dialect.symbols bound pieces).filterMap Symbol.placeholder? =
      (List.range' (bound + 1) (pieces.filterMap Piece.value?).length).map
        fun number => String.ofList (dialect.placeholder number) := by
  induction pieces generalizing bound with
  | nil => rfl
  | cons piece pieces ih =>
    cases piece with
    | identifier name => exact ih bound
    | value literal =>
      exact congrArg (String.ofList (dialect.placeholder (bound + 1)) :: ·) (ih (bound + 1))
    | text text =>
      have noPlaceholder : (text.toList.map Symbol.char).filterMap Symbol.placeholder? = [] := by
        simp [List.filterMap_eq_nil_iff, Symbol.placeholder?]
      rw [Dialect.symbols, List.filterMap_append, noPlaceholder, ih]
      rfl

theorem identifiers_symbols (dialect : Dialect) (bound : Nat) (pieces : List Piece) :
    (dialect.symbols bound pieces).filterMap Symbol.identifier? =
      pieces.filterMap Piece.identifier? := by
  induction pieces generalizing bound with
  | nil => rfl
  | cons piece pieces ih =>
    cases piece with
    | identifier name => exact congrArg (name :: ·) (ih bound)
    | value literal => exact ih (bound + 1)
    | text text =>
      have noIdentifier : (text.toList.map Symbol.char).filterMap Symbol.identifier? = [] := by
        simp [List.filterMap_eq_nil_iff, Symbol.identifier?]
      rw [Dialect.symbols, List.filterMap_append, noIdentifier, ih]
      rfl

theorem unspelled_symbols (dialect other : Dialect) (bound otherBound : Nat)
    (pieces : List Piece) :
    (dialect.symbols bound pieces).map Symbol.unspelled =
      (other.symbols otherBound pieces).map Symbol.unspelled := by
  induction pieces generalizing bound otherBound with
  | nil => rfl
  | cons piece pieces ih =>
    cases piece with
    | identifier name => exact congrArg (Symbol.identifier name :: ·) (ih bound otherBound)
    | value literal =>
      exact congrArg (Symbol.placeholder "" :: ·) (ih (bound + 1) (otherBound + 1))
    | text text =>
      rw [Dialect.symbols, Dialect.symbols, List.map_append, List.map_append, ih bound otherBound]

/-! ### Clauses -/

theorem composes_inert :
    Composes NamesBuiltin False fun pieces _ _ => ∀ text, .text text ∈ pieces → Inert text := by
  have fixed : ∀ text ∈ joiningTexts ++ openingTexts ++ [")"], Inert text := by decide
  have names {name : String} (named : NamesBuiltin name) : Inert name := by
    obtain ⟨f, rfl⟩ := named
    cases f <;> decide
  refine composes_of_between fixed names (by simp) (by simp) ?_ ?_
  · intro table name text member
    obtain rfl : text = "." := by simpa using member
    decide
  · intro text front back _ _ _ _ inert inertFront inertBack other member
    rcases List.mem_append.mp member with early | late
    · exact inertFront other early
    · rcases List.mem_cons.mp late with same | later
      · exact Piece.text.inj same ▸ inert
      · exact inertBack other later

theorem composes_identifiers : Composes (fun _ => True) False fun pieces columns _ =>
    pieces.filterMap Piece.identifier? = columns.flatMap fun column => [column.1, column.2] := by
  have fixed : ∀ text ∈ joiningTexts ++ openingTexts ++ [")"], True := fun _ _ => trivial
  refine composes_of_between fixed id rfl (fun _ => rfl) (fun _ _ => rfl) ?_
  intro text front back columns more _ _ _ sameFront sameBack
  rw [List.filterMap_append, List.flatMap_append, sameFront]
  exact congrArg _ sameBack

/-! ### Queries -/

theorem values_wherePieces (clauses : List Clause) :
    (Query.wherePieces clauses).filterMap Piece.value? = clauses.flatMap Clause.values :=
  (composes_shows.wherePieces covers_all fun _ _ => trivial).values_eq

theorem bindings_eq (query : Query) :
    query.bindings = (query.clauses.flatMap Clause.values).map Literal.toJson := by
  rw [Query.bindings, ← values_wherePieces]
  rfl

theorem readable_query {query : Query} (known : ∀ clause ∈ query.clauses, clause.Known) :
    Readable query.pieces := by
  refine .text (by decide) (.identifier ?_ (composes_readable.wherePieces covers_known known))
  intro piece isHead
  cases clauses : query.clauses with
  | nil =>
    rw [clauses] at isHead
    cases isHead
  | cons clause rest =>
    rw [clauses] at isHead
    cases isHead
    rfl

theorem read_eq_symbols {query : Query} (known : ∀ clause ∈ query.clauses, clause.Known) :
    query.read = query.dialect.symbols 0 query.pieces := by
  have inert : ∀ text, .text text ∈ query.pieces → Inert text := by
    intro text member
    rcases List.mem_append.mp member with early | late
    · obtain rfl : text = "select * from " := by simpa using early
      decide
    · exact composes_inert.wherePieces covers_known known text late
  rw [Query.read, Query.sql, String.toList_ofList, scan_spell (readable_query known),
    readSymbols_fragments inert]

/-- The placeholders of a query are numbered from left to right in step with its bindings, which are
the values of its clauses, and its identifiers are the table and the columns of its clauses. All of
that is the same in every dialect, and so is everything else but the spelling of placeholders. -/
theorem read_query {query : Query} (known : ∀ clause ∈ query.clauses, clause.Known) :
    query.read.filterMap Symbol.placeholder? = ((List.range' 1 query.bindings.length).map
      fun number => if query.dialect = .postgres then "$" ++ toString number else "?") ∧
    query.bindings = (query.clauses.flatMap Clause.values).map Literal.toJson ∧
    query.read.filterMap Symbol.identifier? = query.table ::
      (query.clauses.flatMap Clause.columns).flatMap (fun column => [column.1, column.2]) ∧
    ∀ other : Dialect,
      ({ query with dialect := other } : Query).read.map Symbol.unspelled =
        query.read.map Symbol.unspelled ∧
      ({ query with dialect := other } : Query).bindings = query.bindings := by
  have read := read_eq_symbols known
  refine ⟨?_, bindings_eq query, ?_, ?_⟩
  · have spelling : ∀ number, String.ofList (query.dialect.placeholder number) =
        if query.dialect = .postgres then "$" ++ toString number else "?" := by
      intro number
      cases query.dialect with
      | postgres =>
        rw [if_pos rfl]
        apply String.toList_inj.mp
        simp [Dialect.placeholder, Nat.repr]
      | mysql => rfl
      | sqlite => rfl
    rw [read, placeholders_symbols, Query.bindings, List.length_map]
    exact List.map_congr_left fun number _ => spelling number
  · rw [read, identifiers_symbols]
    exact congrArg (query.table :: ·)
      (composes_identifiers.wherePieces covers_all fun _ _ => trivial)
  · intro other
    have otherKnown : ∀ clause ∈ ({ query with dialect := other } : Query).clauses,
      clause.Known := known
    rw [read, read_eq_symbols otherKnown]
    exact ⟨unspelled_symbols other query.dialect 0 0 query.pieces, rfl⟩

theorem read_query_hostile_names :
    let query : Query := ⟨"a\"?", .postgres, [
      .compare (.column "$1" "b") .equal
        (.function "CONCAT" [.value (.integer 1), .value (.string "?")]),
      .inList (.column "t" " and \"") [.integer 2] false]⟩
    query.read.filterMap Symbol.placeholder? = ["$1", "$2", "$3"] ∧
    query.bindings = [.integer 1, .string "?", .integer 2] ∧
    query.read.filterMap Symbol.identifier? = ["a\"?", "$1", "b", "t", " and \""] := by
  intro query
  have knownArgs : ∀ arg ∈ [Scalar.value (.integer 1), .value (.string "?")], arg.Known :=
    List.forall_mem_cons.mpr ⟨.value _, List.forall_mem_singleton.mpr (.value _)⟩
  have known : ∀ clause ∈ query.clauses, clause.Known :=
    List.forall_mem_cons.mpr ⟨.compare _ (.column _ _) (.function .concat knownArgs),
      List.forall_mem_singleton.mpr (.inList _ _ (.column _ _))⟩
  obtain ⟨placeholders, bindings, identifiers, -⟩ := read_query known
  exact ⟨placeholders, bindings, identifiers⟩

end QueryFilter
