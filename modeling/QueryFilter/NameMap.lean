/-!
# Finite maps from names

Entries are kept in increasing order of their names, each name once, so that two maps with the same
entries are equal.
-/

namespace QueryFilter

/-- Puts an entry into a list in order of names, in place of one with the same name. -/
def insertEntry {α : Type} (name : String) (value : α) : List (String × α) → List (String × α)
  | [] => [(name, value)]
  | entry :: entries =>
    if name < entry.1 then (name, value) :: entry :: entries
    else if name = entry.1 then (name, value) :: entries
    else entry :: insertEntry name value entries

theorem mem_insertEntry {α : Type} {name : String} {value : α} {entries : List (String × α)}
    {entry : String × α} (h : entry ∈ insertEntry name value entries) :
    entry = (name, value) ∨ entry ∈ entries := by
  induction entries with
  | nil => simpa [insertEntry] using h
  | cons first rest ih =>
    unfold insertEntry at h
    split at h
    · simpa using h
    · split at h
      · simp only [List.mem_cons] at h ⊢
        exact h.imp_right .inr
      · simp only [List.mem_cons] at h ⊢
        rcases h with same | member
        · exact .inr (.inl same)
        · exact (ih member).imp_right .inr

theorem insertEntry_increasing {α : Type} (name : String) (value : α)
    {entries : List (String × α)} (h : entries.Pairwise (·.1 < ·.1)) :
    (insertEntry name value entries).Pairwise (·.1 < ·.1) := by
  induction entries with
  | nil => simp [insertEntry]
  | cons first rest ih =>
    have ⟨above, increasing⟩ := List.pairwise_cons.mp h
    unfold insertEntry
    split
    · rename_i below
      refine List.pairwise_cons.mpr ⟨fun entry member => ?_, h⟩
      rcases List.mem_cons.mp member with rfl | member
      · exact below
      · exact String.lt_trans below (above entry member)
    · split
      · rename_i same
        exact List.pairwise_cons.mpr ⟨fun entry member => same ▸ above entry member, increasing⟩
      · rename_i notBelow different
        refine List.pairwise_cons.mpr ⟨fun entry member => ?_, ih increasing⟩
        rcases mem_insertEntry member with rfl | member
        · grind [String.le_antisymm, String.not_lt]
        · exact above entry member

/-- A map from names, as its entries in increasing order of their names. -/
structure NameMap (α : Type) where
  entries : List (String × α)
  increasing : entries.Pairwise (·.1 < ·.1)
deriving DecidableEq

namespace NameMap

def empty {α : Type} : NameMap α := ⟨[], .nil⟩

def insert {α : Type} (map : NameMap α) (name : String) (value : α) : NameMap α :=
  ⟨insertEntry name value map.entries, insertEntry_increasing name value map.increasing⟩

/-- The map with the given entries, of which a later one replaces an earlier one. -/
def ofList {α : Type} (entries : List (String × α)) : NameMap α :=
  entries.foldl (fun map entry => map.insert entry.1 entry.2) empty

def find? {α : Type} (map : NameMap α) (name : String) : Option α := map.entries.lookup name

def names {α : Type} (map : NameMap α) : List String := map.entries.map (·.1)

end NameMap

abbrev NameSet := NameMap Unit

def NameSet.ofNames (names : List String) : NameSet := NameMap.ofList (names.map fun n => (n, ()))

end QueryFilter
