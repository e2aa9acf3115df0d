import QueryFilter.Toml.Table

/-!
# Tables that grow

Values under different keys become entries in their order: `Entries.assignAll_of_distinct`. A
finished table has the values of its entries.
-/

namespace QueryFilter.Toml.Entries

variable {entries : Entries} {assignments : List Assignment} {s : Section} {key : String}

def valueItem (a : Assignment) : String × Item := (a.key, .value a.value)

theorem lookup_eq_none (absent : key ∉ entries.map (·.1)) : entries.lookup key = none := by
  rw [List.lookup_eq_none_iff]
  intro entry member
  have other : key ≠ entry.1 := fun same => absent (same ▸ List.mem_map_of_mem member)
  simpa using other

theorem not_mem_of_distinct {front back : List String} (distinct : (front ++ key :: back).Nodup) :
    key ∉ front := by
  intro member
  exact (List.nodup_append.mp distinct).2.2 key member key List.mem_cons_self rfl

theorem replace_last {old item : Item} (absent : key ∉ entries.map (·.1)) :
    replace key item (entries ++ [(key, old)]) = entries ++ [(key, item)] := by
  have unchanged : replace key item entries = entries := by
    have same : ∀ entry ∈ entries, (if entry.1 = key then (key, item) else entry) = entry := by
      intro entry member
      refine if_neg ?_
      rintro rfl
      exact absent (List.mem_map_of_mem member)
    rw [replace, List.map_congr_left same, List.map_id']
  rw [replace, List.map_append, ← replace, unchanged]
  simp

/-- Values under different keys of one part all become entries. -/
theorem assignAll_of_distinct (direct : ∀ a ∈ assignments, a.path = [])
    (distinct : (entries.map (·.1) ++ assignments.map (·.key)).Nodup) :
    assignAll? entries assignments = some (entries ++ assignments.map valueItem) := by
  induction assignments generalizing entries with
  | nil => simp [assignAll?]
  | cons a assignments ih =>
    have absent : a.key ∉ entries.map (·.1) := not_mem_of_distinct distinct
    have step : assign? entries a = some (entries ++ [valueItem a]) := by
      rw [assign?, direct a List.mem_cons_self]
      simp [change?, add?, lookup_eq_none absent, valueItem]
    have later : ((entries ++ [valueItem a]).map (·.1) ++ assignments.map (·.key)).Nodup := by
      simpa [valueItem] using distinct
    have rest := ih (fun other member => direct other (List.mem_cons_of_mem _ member)) later
    rw [assignAll?, List.foldlM_cons, step]
    simpa [assignAll?] using rest

theorem toValues_eq_map (entries : Entries) :
    toValues entries = entries.map fun entry => (entry.1, entry.2.toValue) := by
  induction entries with
  | nil => simp [toValues]
  | cons entry entries ih =>
    rw [toValues, ih]
    rfl

theorem tableValues_eq_map (tables : List Entries) :
    tableValues tables = tables.map fun table => .table (toValues table) := by
  induction tables with
  | nil => simp [tableValues]
  | cons table tables ih => rw [tableValues, ih, List.map_cons]

theorem toValues_valueItem (assignments : List Assignment) :
    toValues (assignments.map valueItem) = assignments.map fun a => (a.key, a.value) := by
  rw [toValues_eq_map, List.map_map]
  rfl

end QueryFilter.Toml.Entries
