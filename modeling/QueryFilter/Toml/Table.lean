import QueryFilter.Toml.Value

/-!
# Tables of TOML

A table may be defined in several places, and how it came to be decides what may still be added to
it. A value is never added to, not even if it is a table. `Entries.assign?` adds a value under a
dotted key, `Entries.addSection?` adds the table of a header.
-/

namespace QueryFilter.Toml

inductive Origin where
  /-- By a header of its own. -/
  | defined
  /-- As a part of a longer header. -/
  | implied
  /-- As a part of a dotted key. -/
  | dotted
deriving DecidableEq, Repr

inductive Item where
  | value (value : Value)
  | table (origin : Origin) (entries : List (String × Item))
  /-- An array of tables, each by a header of its own. -/
  | tables (tables : List (List (String × Item)))

abbrev Entries := List (String × Item)

/-- A value under a dotted key: the tables on the way, the last part of the key, and the value. -/
structure Assignment where
  path : List String
  key : String
  value : Value

/-- A header with the assignments below it. -/
structure Section where
  path : List String
  key : String
  /-- Whether the header adds a table to an array. -/
  inArray : Bool
  assignments : List Assignment

namespace Entries

def replace (key : String) (item : Item) (entries : Entries) : Entries :=
  entries.map fun entry => if entry.1 = key then (key, item) else entry

/-- Changes the table at the end of a path. Tables that are missing on the way get the origin
`missing`, and `mayEnter` says which of the tables on the way may be changed. In an array of tables
the way leads through the last one. -/
def change? (missing : Origin) (mayEnter : Origin → Bool)
    (change : Origin → Entries → Option Entries) :
    List String → Origin → Entries → Option Entries
  | [], origin, entries => change origin entries
  | key :: path, _, entries =>
    match entries.lookup key with
    | none =>
      (change? missing mayEnter change path missing []).map fun inner =>
        entries ++ [(key, .table missing inner)]
    | some (.value _) => none
    | some (.table origin inner) =>
      if mayEnter origin then
        (change? missing mayEnter change path origin inner).map fun inner =>
          replace key (.table origin inner) entries
      else none
    | some (.tables tables) =>
      (tables.getLast?.bind (change? missing mayEnter change path .defined)).map fun last =>
        replace key (.tables (tables.dropLast ++ [last])) entries

def add? (key : String) (item : Item) (entries : Entries) : Option Entries :=
  if (entries.lookup key).isSome then none else some (entries ++ [(key, item)])

/-- Adds a value. A dotted key ends in a table that dotted keys have made, and it leads through no
table with a header of its own. -/
def assign? (entries : Entries) (a : Assignment) : Option Entries :=
  change? .dotted (· ≠ .defined)
    (fun origin inner =>
      if a.path = [] ∨ origin = .dotted then inner.add? a.key (.value a.value) else none)
    a.path .defined entries

def assignAll? (entries : Entries) (assignments : List Assignment) : Option Entries :=
  assignments.foldlM assign? entries

/-- Adds the table of a section below the last part of its header. The header may define a table
that longer headers have implied, but no other that is there already. -/
def define? (s : Section) (entries : Entries) : Option Entries :=
  match s.inArray, entries.lookup s.key with
  | false, none =>
    (assignAll? [] s.assignments).map fun table => entries ++ [(s.key, .table .defined table)]
  | false, some (.table .implied inner) =>
    (assignAll? inner s.assignments).map fun table => replace s.key (.table .defined table) entries
  | true, none =>
    (assignAll? [] s.assignments).map fun table => entries ++ [(s.key, .tables [table])]
  | true, some (.tables tables) =>
    (assignAll? [] s.assignments).map fun table =>
      replace s.key (.tables (tables ++ [table])) entries
  | _, _ => none

def addSection? (entries : Entries) (s : Section) : Option Entries :=
  change? .implied (fun _ => true) (fun _ inner => define? s inner) s.path .defined entries

end Entries

/-! ### Finished tables -/

mutual

def Item.toValue : Item → Value
  | .value value => value
  | .table _ entries => .table (Entries.toValues entries)
  | .tables tables => .array (Entries.tableValues tables)

def Entries.toValues : List (String × Item) → List (String × Value)
  | [] => []
  | (key, item) :: entries => (key, item.toValue) :: Entries.toValues entries

def Entries.tableValues : List (List (String × Item)) → List Value
  | [] => []
  | entries :: tables => .table (Entries.toValues entries) :: Entries.tableValues tables

end

end QueryFilter.Toml
