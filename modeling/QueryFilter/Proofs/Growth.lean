import QueryFilter.Proofs.Source
import QueryFilter.Proofs.Sql.Placeholders

/-!
# Queries only grow

A query that filters have been added to has the clauses of the accepted texts, in order. One more
accepted text adds to the end of its SQL and of its bindings what its clause has alone, with the
numbers of placeholders moved behind those that are there: `addTo_grows`.
-/

namespace QueryFilter

/-! ### Renumbering -/

/-- A placeholder with its number, if it has one, raised by `offset`. -/
def renumbered (offset : Nat) (placeholder : String) : List Char :=
  match placeholder.toList with
  | '$' :: digits => '$' :: Nat.toDigits 10 (Nat.ofDigitChars 10 digits 0 + offset)
  | unnumbered => unnumbered

/-- How a symbol is written behind `offset` placeholders. -/
def Dialect.symbolText (dialect : Dialect) (offset : Nat) : Symbol → List Char
  | .identifier name => dialect.quote name
  | .placeholder text => renumbered offset text
  | .char c => [c]

/-- The text with the numbers of its placeholders raised by `offset`. What looks like a placeholder
inside of an identifier is none. -/
def Dialect.renumber (dialect : Dialect) (offset : Nat) (text : List Char) : List Char :=
  (readSymbols (scan dialect.mark text)).flatMap (dialect.symbolText offset)

theorem renumbered_placeholder (dialect : Dialect) (offset number : Nat) :
    renumbered offset (String.ofList (dialect.placeholder number)) =
      dialect.placeholder (number + offset) := by
  rw [renumbered, String.toList_ofList]
  cases dialect with
  | mysql => rfl
  | sqlite => rfl
  | postgres =>
    have value : Nat.ofDigitChars 10 (Nat.toDigits 10 number) 0 = number :=
      Nat.ofDigitChars_toDigits (by decide) (by decide)
    simp only [Dialect.placeholder, value]

theorem symbols_renumbered (dialect : Dialect) (offset bound : Nat) (pieces : List Piece) :
    (dialect.symbols bound pieces).flatMap (dialect.symbolText offset) =
      dialect.spell (bound + offset) pieces := by
  induction pieces generalizing bound with
  | nil => rfl
  | cons piece pieces ih =>
    cases piece with
    | text text =>
      have chars : (text.toList.map Symbol.char).flatMap (dialect.symbolText offset) =
          text.toList := by
        rw [List.flatMap_map]
        exact List.flatMap_singleton' _
      rw [Dialect.symbols, List.flatMap_append, chars, ih, Dialect.spell]
    | identifier name =>
      rw [Dialect.symbols, List.flatMap_cons, ih, Dialect.spell]
      rfl
    | value literal =>
      rw [Dialect.symbols, List.flatMap_cons, ih, Dialect.spell, Dialect.symbolText,
        renumbered_placeholder, Nat.add_right_comm]

/-- The number of values before a clause is an offset to the numbers in its text, nothing else. -/
theorem renumber_spell {clause : Clause} (known : clause.Known) (dialect : Dialect) (offset : Nat) :
    dialect.renumber offset (dialect.spell 0 clause.pieces) =
      dialect.spell offset clause.pieces := by
  have read : readSymbols (scan dialect.mark (dialect.spell 0 clause.pieces)) =
      dialect.symbols 0 clause.pieces := by
    rw [scan_spell (clause_readable known),
      readSymbols_fragments (composes_inert.clause covers_known known)]
  rw [Dialect.renumber, read, symbols_renumbered, Nat.zero_add]

example : Dialect.postgres.renumber 8 "\"t\".\"$1\" in ($1, $2)".toList =
    "\"t\".\"$1\" in ($9, $10)".toList := by
  decide

/-! ### One clause more -/

theorem spell_append (dialect : Dialect) (bound : Nat) (front back : List Piece) :
    dialect.spell bound (front ++ back) = dialect.spell bound front ++
      dialect.spell (bound + (front.filterMap Piece.value?).length) back := by
  refine numbered_append (fun _ => rfl) (fun bound piece pieces => ?_) bound front back
  cases piece <;> simp [Dialect.spell, Piece.value?]

theorem intercalate_concat {α : Type} (separator : List α) {items : List (List α)}
    (nonempty : items ≠ []) (item : List α) :
    separator.intercalate (items ++ [item]) = separator.intercalate items ++ separator ++ item := by
  induction items with
  | nil => exact absurd rfl nonempty
  | cons first rest ih =>
    by_cases last : rest = []
    · subst last
      simp [List.intercalate_cons_of_ne_nil]
    · rw [List.cons_append, List.intercalate_cons_of_ne_nil (by simp), ih last,
        List.intercalate_cons_of_ne_nil last]
      simp

namespace Query

/-- What stands before a clause that is added. -/
def joiner (query : Query) : String := if query.clauses.isEmpty then " where " else " and "

theorem pieces_push (query : Query) (clause : Clause) :
    (query.push clause).pieces = query.pieces ++ .text query.joiner :: clause.pieces := by
  obtain ⟨table, dialect, clauses⟩ := query
  cases clauses with
  | nil => simp [push, pieces, wherePieces, joiner]
  | cons first rest =>
    have more := intercalate_concat [Piece.text " and "]
      (show (first :: rest).map Clause.pieces ≠ [] by simp) clause.pieces
    have joined : wherePieces (first :: rest ++ [clause]) =
        wherePieces (first :: rest) ++ .text " and " :: clause.pieces := by
      simpa [wherePieces] using more
    simp only [push, pieces, joined]
    simp [joiner]

theorem sql_push (query : Query) (clause : Clause) :
    (query.push clause).sql.toList = query.sql.toList ++ query.joiner.toList ++
      query.dialect.spell query.bindings.length clause.pieces := by
  have bound : 0 + (query.pieces.filterMap Piece.value?).length = query.bindings.length := by
    rw [Nat.zero_add, bindings, List.length_map]
  rw [sql, pieces_push, sql, String.toList_ofList, String.toList_ofList]
  change query.dialect.spell 0 _ = _
  rw [spell_append, bound, Dialect.spell, List.append_assoc]

theorem bindings_push (query : Query) (clause : Clause) :
    (query.push clause).bindings = query.bindings ++ clause.values.map Literal.toJson := by
  rw [bindings_eq, bindings_eq]
  simp [push]

end Query

/-! ### Runs -/

/-- A text for a filter. -/
structure Request where
  filter : Filter
  text : String

namespace Request

def clause? (request : Request) : Option Clause :=
  (request.filter.clause request.text).toOption

/-- The query after a request, which may have been rejected. -/
def applyTo (query : Query) (request : Request) : Query :=
  (request.filter.addTo request.text query).2

end Request

def Query.run (query : Query) (requests : List Request) : Query :=
  requests.foldl Request.applyTo query

theorem applyTo_eq (query : Query) (request : Request) :
    request.applyTo query = { query with clauses := query.clauses ++ request.clause?.toList } := by
  unfold Request.applyTo Filter.addTo Request.clause?
  cases request.filter.clause request.text with
  | ok clause => rfl
  | error e => simp [Except.toOption]

theorem run_eq (query : Query) (requests : List Request) :
    query.run requests =
      { query with clauses := query.clauses ++ requests.filterMap Request.clause? } := by
  induction requests generalizing query with
  | nil => simp [Query.run]
  | cons request requests ih =>
    have step := applyTo_eq query request
    have rest := ih (request.applyTo query)
    rw [Query.run, List.foldl_cons]
    change (request.applyTo query).run requests = _
    rw [rest, step, List.filterMap_cons]
    cases request.clause? <;> simp

/-- After any requests a query has the clauses of those that were accepted, in order. A further
request that is rejected leaves it as it is, and one that is accepted adds its clause to the end of
the text and its values to the end of the bindings. -/
theorem addTo_grows (table : String) (dialect : Dialect) (requests : List Request)
    (filter : Filter) (text : String) :
    let query := (⟨table, dialect, []⟩ : Query).run requests
    query.clauses = requests.filterMap Request.clause? ∧
    match filter.addTo text query with
    | (.error e, after) => filter.clause text = .error e ∧ after.clauses = query.clauses ∧
        after.sql = query.sql ∧ after.bindings = query.bindings
    | (.ok (), after) => ∃ clause condition,
        filter.clause text = .ok clause ∧ after.clauses = query.clauses ++ [clause] ∧
        (⟨table, dialect, [clause]⟩ : Query).sql.toList =
          (⟨table, dialect, []⟩ : Query).sql.toList ++ " where ".toList ++ condition ∧
        after.sql.toList = query.sql.toList ++
          (if query.clauses.isEmpty then " where " else " and ").toList ++
          dialect.renumber query.bindings.length condition ∧
        query.sql.toList <+: after.sql.toList ∧ query.sql ≠ after.sql ∧
        after.bindings = query.bindings ++ (⟨table, dialect, [clause]⟩ : Query).bindings := by
  intro query
  have reached : query = ⟨table, dialect, requests.filterMap Request.clause?⟩ := run_eq _ requests
  refine ⟨by rw [reached], ?_⟩
  unfold Filter.addTo
  cases outcome : filter.clause text with
  | error e => exact ⟨rfl, rfl, rfl, rfl⟩
  | ok clause =>
    obtain ⟨expr, -, compiled⟩ := clause_ok_iff.mp outcome
    have known : clause.Known := toClause_known compiled
    have alone : (⟨table, dialect, [clause]⟩ : Query).sql.toList =
        (⟨table, dialect, []⟩ : Query).sql.toList ++ " where ".toList ++
          dialect.spell 0 clause.pieces := Query.sql_push ⟨table, dialect, []⟩ clause
    have added : (query.push clause).sql.toList = query.sql.toList ++ (query.joiner.toList ++
        dialect.renumber query.bindings.length (dialect.spell 0 clause.pieces)) := by
      rw [renumber_spell known, ← List.append_assoc, Query.sql_push, reached]
    have longer : query.joiner.toList ≠ [] := by
      unfold Query.joiner
      split <;> decide
    refine ⟨clause, _, rfl, rfl, alone, added.trans (List.append_assoc ..).symm, ?_, ?_, ?_⟩
    · exact ⟨_, added.symm⟩
    · intro same
      have nothing := List.append_right_eq_self.mp (added.symm.trans (congrArg _ same.symm))
      exact longer (List.append_eq_nil_iff.mp nothing).1
    · exact (Query.bindings_push query clause).trans
        (congrArg _ (bindings_one_clause table dialect clause).symm)

end QueryFilter
