import QueryFilter.Proofs.Config.Written
import QueryFilter.Proofs.Toml.Tables

/-!
# The tables of a written configuration

The statements that a configuration is written as make up a document, and the configuration that is
read from it is the one that was written, with the current version: `ofToml_lines`.
-/

namespace QueryFilter

open Toml

/-! ### Names in order -/

theorem insertEntry_last {α : Type} {name : String} {value : α} {entries : List (String × α)}
    (last : ∀ entry ∈ entries, entry.1 < name) :
    insertEntry name value entries = entries ++ [(name, value)] := by
  induction entries with
  | nil => rfl
  | cons first entries ih =>
    have before : first.1 < name := last first List.mem_cons_self
    have notBelow : ¬ name < first.1 := fun below =>
      String.lt_irrefl _ (String.lt_trans before below)
    have different : name ≠ first.1 := by
      rintro rfl
      exact String.lt_irrefl _ before
    rw [insertEntry, if_neg notBelow, if_neg different,
      ih fun entry member => last entry (List.mem_cons_of_mem _ member)]
    rfl

theorem NameMap.eq_of_entries {α : Type} {first second : NameMap α}
    (same : first.entries = second.entries) : first = second := by
  cases first
  cases second
  cases same
  rfl

/-- A map is made again from its entries. -/
theorem NameMap.ofList_entries {α : Type} (map : NameMap α) : NameMap.ofList map.entries = map := by
  have extended : ∀ (entries : List (String × α)) (start : NameMap α),
      (start.entries ++ entries).Pairwise (·.1 < ·.1) →
      (entries.foldl (fun map entry => map.insert entry.1 entry.2) start).entries =
        start.entries ++ entries := by
    intro entries
    induction entries with
    | nil => simp
    | cons entry entries ih =>
      intro start increasing
      have last : ∀ other ∈ start.entries, other.1 < entry.1 := fun other member =>
        (List.pairwise_append.mp increasing).2.2 other member entry List.mem_cons_self
      have inserted : (start.insert entry.1 entry.2).entries = start.entries ++ [entry] :=
        insertEntry_last last
      rw [List.foldl_cons, ih, inserted, List.append_assoc, List.singleton_append]
      rwa [inserted, List.append_assoc, List.singleton_append]
  exact NameMap.eq_of_entries (extended map.entries .empty map.increasing)

theorem NameMap.mem_of_mem_ofList {α : Type} {entries : List (String × α)} {entry : String × α}
    (member : entry ∈ (NameMap.ofList entries).entries) : entry ∈ entries := by
  have collected : ∀ start : NameMap α,
      entry ∈ (entries.foldl (fun map entry => map.insert entry.1 entry.2) start).entries →
      entry ∈ start.entries ∨ entry ∈ entries := by
    clear member
    induction entries with
    | nil => exact fun start member => .inl member
    | cons first entries ih =>
      intro start member
      rcases ih (start.insert first.1 first.2) member with inserted | later
      · rcases mem_insertEntry inserted with rfl | old
        · exact .inr List.mem_cons_self
        · exact .inl old
      · exact .inr (List.mem_cons_of_mem _ later)
  rcases collected .empty member with none | found
  · cases none
  · exact found

namespace Config

/-! ### Sections -/

theorem sections_assignments (assignments : List Assignment) (rest : List Statement) :
    sections (assignments.map .assignment ++ rest) =
      (assignments ++ (sections rest).1, (sections rest).2) := by
  induction assignments with
  | nil => rfl
  | cons a assignments ih => rw [List.map_cons, List.cons_append, sections, ih, List.cons_append]

theorem sections_parts (parts : List Section) :
    sections (parts.flatMap sectionStatements) = ([], parts) := by
  induction parts with
  | nil => rfl
  | cons part parts ih =>
    rw [List.flatMap_cons, sectionStatements, List.cons_append, sections, sections_assignments, ih,
      List.append_nil]

/-! ### The tables of scopes -/

/-- The table of a scope. -/
def scopeItem (entry : String × Scope) : String × Item :=
  (entry.1, .table .defined ((settings entry.2).map Entries.valueItem))

theorem assignAll_settings (scope : Scope) : Entries.assignAll? [] (settings scope) =
    some ((settings scope).map Entries.valueItem) := by
  apply Entries.assignAll_of_distinct
  · intro a member
    simp only [settings, number, List.mem_cons, List.mem_append, Option.mem_toList,
      Option.map_eq_some_iff] at member
    rcases member with rfl | ⟨n, -, rfl⟩ | ⟨n, -, rfl⟩ <;> rfl
  · obtain ⟨keys, depth, terms⟩ := scope
    cases depth <;> cases terms <;> simp [settings, number]

section

variable {top done : Entries} {entry : String × Scope}

theorem define_scope (new : entry.1 ∉ done.map (·.1)) :
    Entries.define? (scopeSection entry) done = some (done ++ [scopeItem entry]) := by
  rw [Entries.define?, scopeSection, Entries.lookup_eq_none new]
  simp [assignAll_settings, scopeItem]

variable (absent : "scopes" ∉ top.map (·.1))
include absent

theorem addSection_first (entry : String × Scope) :
    Entries.addSection? top (scopeSection entry) =
      some (top ++ [("scopes", .table .implied [scopeItem entry])]) := by
  have defined : Entries.define? (scopeSection entry) [] = some [scopeItem entry] :=
    define_scope (by simp)
  have path : (scopeSection entry).path = ["scopes"] := rfl
  simp [Entries.addSection?, Entries.change?, path, Entries.lookup_eq_none absent, defined]

theorem addSection_next (new : entry.1 ∉ done.map (·.1)) :
    Entries.addSection? (top ++ [("scopes", .table .implied done)]) (scopeSection entry) =
      some (top ++ [("scopes", .table .implied (done ++ [scopeItem entry]))]) := by
  have found : (top ++ [("scopes", Item.table .implied done)]).lookup "scopes" =
      some (.table .implied done) := by
    rw [List.lookup_append, Entries.lookup_eq_none absent]
    simp
  have path : (scopeSection entry).path = ["scopes"] := rfl
  simp [Entries.addSection?, Entries.change?, path, found, define_scope new,
    Entries.replace_last absent]

theorem addSections (scopes : List (String × Scope))
    (distinct : (done.map (·.1) ++ scopes.map (·.1)).Nodup) :
    (scopes.map scopeSection).foldlM Entries.addSection?
        (top ++ [("scopes", .table .implied done)]) =
      some (top ++ [("scopes", .table .implied (done ++ scopes.map scopeItem))]) := by
  induction scopes generalizing done with
  | nil => simp
  | cons first scopes ih =>
    have new : first.1 ∉ done.map (·.1) := Entries.not_mem_of_distinct distinct
    have later : ((done ++ [scopeItem first]).map (·.1) ++ scopes.map (·.1)).Nodup := by
      simpa [scopeItem] using distinct
    rw [List.map_cons, List.foldlM_cons, addSection_next absent new]
    simpa using ih later

end

/-- The sections of scopes become one table. -/
theorem addSections_scopes {top : Entries} (absent : "scopes" ∉ top.map (·.1))
    (scopes : List (String × Scope)) (distinct : (scopes.map (·.1)).Nodup) :
    ∃ origin, (scopeSections scopes).foldlM Entries.addSection? top =
      some (top ++ [("scopes", .table origin (scopes.map scopeItem))]) := by
  cases scopes with
  | nil =>
    refine ⟨.defined, ?_⟩
    simp [scopeSections, Entries.addSection?, Entries.change?, Entries.define?,
      Entries.lookup_eq_none absent, Entries.assignAll?]
  | cons first scopes =>
    refine ⟨.implied, ?_⟩
    have mapped : scopeSections (first :: scopes) = (first :: scopes).map scopeSection := rfl
    have later : ([scopeItem first].map (·.1) ++ scopes.map (·.1)).Nodup := distinct
    rw [mapped, List.map_cons, List.foldlM_cons, addSection_first absent first]
    exact addSections absent scopes later

/-! ### The document -/

/-- The table that a configuration is written as. -/
def table (config : Config) (origin : Origin) : Entries :=
  config.heading.map Entries.valueItem ++
    [("scopes", .table origin (config.scopes.entries.map scopeItem))]

theorem document_written (config : Config) :
    ∃ origin, document? (config.heading.map .assignment ++
        (scopeSections config.scopes.entries).flatMap sectionStatements) =
      some (Entries.toValues (config.table origin)) := by
  have heading : Entries.assignAll? [] config.heading =
      some (config.heading.map Entries.valueItem) := by
    apply Entries.assignAll_of_distinct <;> simp [Config.heading, number]
  have absent : "scopes" ∉ (config.heading.map Entries.valueItem).map (·.1) := by
    simp [Config.heading, number, Entries.valueItem]
  have distinct : (config.scopes.entries.map (·.1)).Nodup := by
    rw [List.Nodup, List.pairwise_map]
    refine config.scopes.increasing.imp ?_
    intro first second before same
    rw [same] at before
    exact String.lt_irrefl _ before
  obtain ⟨origin, added⟩ := addSections_scopes absent config.scopes.entries distinct
  refine ⟨origin, ?_⟩
  simp [document?, sections_assignments, sections_parts, heading, added, table]

/-! ### The configuration -/

theorem mapM_of_inverse {α β : Type} {spell : α → β} {read : β → Option α} {items : List α}
    (each : ∀ item ∈ items, read (spell item) = some item) :
    (items.map spell).mapM read = some items := by
  induction items with
  | nil => rfl
  | cons item items ih =>
    rw [List.map_cons, List.mapM_cons, each item List.mem_cons_self,
      ih fun other member => each other (List.mem_cons_of_mem _ member)]
    rfl

theorem natural_integer (n : Nat) : natural? (.integer n) = some n := by
  simp [natural?]

theorem version_integer (version : UInt32) :
    version? (.integer version.toNat) = some version := by
  have small : version.toNat < UInt32.size := version.toNat_lt
  rw [version?, natural_integer]
  simp [small]

theorem strings_array (keys : List String) :
    strings? (.array (keys.map Value.string)) = some keys :=
  mapM_of_inverse fun _ _ => rfl

theorem scope_settings (scope : Scope) :
    scope? (.table (Entries.toValues ((settings scope).map Entries.valueItem))) = some scope := by
  obtain ⟨keys, depth, terms⟩ := scope
  rw [Entries.toValues_valueItem]
  cases depth <;> cases terms <;>
    simp [scope?, scopeOf?, settings, number, List.lookup_cons, setting?, strings_array,
      natural_integer]

theorem scopes_written (scopes : NameMap Scope) :
    scopes? (.table (Entries.toValues (scopes.entries.map scopeItem))) = some scopes := by
  have each : (Entries.toValues (scopes.entries.map scopeItem)).mapM
      (fun entry => (scope? entry.2).map (entry.1, ·)) = some scopes.entries := by
    rw [Entries.toValues_eq_map, List.map_map]
    apply mapM_of_inverse
    intro entry _
    simp [scopeItem, Item.toValue, scope_settings]
  rw [scopes?, each, Option.map_some, NameMap.ofList_entries]

theorem ofEntries_table (config : Config) (origin : Origin) :
    ofEntries? (Entries.toValues (config.table origin)) =
      some { config with version := currentVersion } := by
  have values : Entries.toValues (config.table origin) =
      [("version", .integer config.version.toNat), ("max_depth", .integer config.limits.depth),
        ("max_terms", .integer config.limits.terms),
        ("scopes", .table (Entries.toValues (config.scopes.entries.map scopeItem)))] := by
    simp [table, Config.heading, number, Entries.valueItem, Entries.toValues, Item.toValue]
  rw [values]
  simp [ofEntries?, List.lookup_cons, setting?, version_integer, natural_integer, scopes_written]

/-- The written lines of a configuration are read as the configuration. -/
theorem ofToml_lines {config : Config} (writable : config.Writable) :
    ofToml (String.ofList config.lines) = .ok { config with version := currentVersion } := by
  obtain ⟨origin, document⟩ := document_written config
  rw [ofToml, read_lines writable, document, Option.bind_some, ofEntries_table]

end Config

end QueryFilter
