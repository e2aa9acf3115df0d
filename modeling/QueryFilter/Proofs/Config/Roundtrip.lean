import Mathlib.Algebra.Group.Nat.Defs
import QueryFilter.Proofs.Config.Tables
import QueryFilter.Proofs.Toml.Range

/-!
# Writing and reading a configuration are inverse

A configuration can be written unless one of its limits does not fit 64 bits, and reading the text
gives it back, whatever its names and keys are: `ofToml_toToml`. A configuration that was read can
always be written, since no integer of a text is that great.
-/

namespace QueryFilter.Config

open Toml

variable {value : Value}

/-! ### What is read can be written -/

theorem natural_le {n : Nat} (inRange : value.InRange) (found : natural? value = some n) :
    n ≤ maxLimit := by
  unfold natural? at found
  split at found
  · split at found <;> cases found
    cases inRange with
    | integer fits =>
      have greatest := maxLimit_eq
      omega
  · cases found

theorem setting_le {value? : Option Value} {n? : Option Nat} (inRange : ∀ v ∈ value?, v.InRange)
    (found : setting? natural? value? = some n?) : ∀ n ∈ n?, n ≤ maxLimit := by
  cases value? with
  | none =>
    cases found
    simp
  | some value =>
    obtain ⟨n, isNatural, rfl⟩ := Option.map_eq_some_iff.mp found
    rintro _ ⟨⟩
    exact natural_le (inRange value rfl) isNatural

theorem scopeOf_fits {keys depth terms : Option Value} {scope : Scope}
    (depthInRange : ∀ v ∈ depth, v.InRange) (termsInRange : ∀ v ∈ terms, v.InRange)
    (found : scopeOf? keys depth terms = some scope) : ScopeFits scope := by
  obtain ⟨keys, -, found⟩ := Option.bind_eq_some_iff.mp found
  obtain ⟨depth, isDepth, found⟩ := Option.bind_eq_some_iff.mp found
  obtain ⟨terms, isTerms, found⟩ := Option.bind_eq_some_iff.mp found
  cases found
  intro n member
  rcases List.mem_append.mp member with ofDepth | ofTerms
  · exact setting_le depthInRange isDepth n (Option.mem_toList.mp ofDepth)
  · exact setting_le termsInRange isTerms n (Option.mem_toList.mp ofTerms)

theorem lookup_inRange {entries : List (String × Value)} (each : ∀ entry ∈ entries, entry.2.InRange)
    (key : String) : ∀ v ∈ entries.lookup key, v.InRange := by
  intro v found
  obtain ⟨front, back, rfl, -⟩ := List.lookup_eq_some_iff.mp found
  exact each (key, v) (by simp)

theorem scope_fits {scope : Scope} (inRange : value.InRange) (found : scope? value = some scope) :
    ScopeFits scope := by
  unfold scope? at found
  split at found
  · cases inRange with
    | table each => exact scopeOf_fits (lookup_inRange each _) (lookup_inRange each _) found
  · rename_i items
    cases inRange with
    | array each =>
      have item (place : Nat) : ∀ v ∈ items[place]?, v.InRange := fun v isItem =>
        each v (List.mem_of_getElem? isItem)
      exact scopeOf_fits (item 1) (item 2) found
  · cases found
    simp [ScopeFits]
  · cases found

theorem exists_of_mem_mapM {α β : Type} {f : α → Option β} {items : List α} {results : List β}
    (mapped : items.mapM f = some results) {b : β} (member : b ∈ results) :
    ∃ a ∈ items, f a = some b := by
  induction items generalizing results with
  | nil =>
    cases mapped
    cases member
  | cons first items ih =>
    rw [List.mapM_cons] at mapped
    obtain ⟨c, isFirst, mapped⟩ := Option.bind_eq_some_iff.mp mapped
    obtain ⟨later, isLater, mapped⟩ := Option.bind_eq_some_iff.mp mapped
    cases mapped
    rcases List.mem_cons.mp member with rfl | member
    · exact ⟨first, List.mem_cons_self, isFirst⟩
    · obtain ⟨a, isItem, found⟩ := ih isLater member
      exact ⟨a, List.mem_cons_of_mem _ isItem, found⟩

theorem scopes_fit {scopes : NameMap Scope} (inRange : value.InRange)
    (found : scopes? value = some scopes) : ∀ entry ∈ scopes.entries, ScopeFits entry.2 := by
  unfold scopes? at found
  split at found
  · cases inRange with
    | table each =>
      obtain ⟨entries, mapped, rfl⟩ := Option.map_eq_some_iff.mp found
      intro entry member
      obtain ⟨source, isSource, found⟩ := exists_of_mem_mapM mapped (NameMap.mem_of_mem_ofList member)
      obtain ⟨scope, isScope, rfl⟩ := Option.map_eq_some_iff.mp found
      exact scope_fits (each source isSource) isScope
  · cases found

theorem getD_le {n? : Option Nat} {standard : Nat} (fits : ∀ n ∈ n?, n ≤ maxLimit)
    (standardFits : standard ≤ maxLimit) : n?.getD standard ≤ maxLimit := by
  cases n? with
  | none => exact standardFits
  | some n => exact fits n rfl

theorem writable_of_ofEntries {entries : List (String × Value)} {config : Config}
    (each : ∀ entry ∈ entries, entry.2.InRange) (found : ofEntries? entries = some config) :
    config.Writable ∧ config.version = currentVersion := by
  obtain ⟨version, -, found⟩ := Option.bind_eq_some_iff.mp found
  obtain ⟨depth, isDepth, found⟩ := Option.bind_eq_some_iff.mp found
  obtain ⟨terms, isTerms, found⟩ := Option.bind_eq_some_iff.mp found
  obtain ⟨scopes, isScopes, found⟩ := Option.bind_eq_some_iff.mp found
  cases found
  refine ⟨?_, rfl⟩
  have scopesFit : ∀ entry ∈ (scopes.getD .empty).entries, ScopeFits entry.2 := by
    cases place : entries.lookup "scopes" with
    | none =>
      rw [place] at isScopes
      cases isScopes
      simp [NameMap.empty]
    | some value =>
      rw [place] at isScopes
      obtain ⟨map, isMap, rfl⟩ := Option.map_eq_some_iff.mp isScopes
      exact scopes_fit (lookup_inRange each _ _ place) isMap
  intro n member
  simp only [allLimits, List.mem_append, List.mem_cons, List.not_mem_nil, or_false,
    List.mem_flatMap] at member
  rcases member with (rfl | rfl) | ⟨entry, isEntry, isLimit⟩
  · exact getD_le (setting_le (lookup_inRange each _) isDepth) (by decide)
  · exact getD_le (setting_le (lookup_inRange each _) isTerms) (by decide)
  · exact scopesFit entry isEntry n (List.mem_append.mpr isLimit)

theorem writable_of_ofToml {text : String} {config : Config} (found : ofToml text = .ok config) :
    config.Writable ∧ config.version = currentVersion := by
  unfold ofToml at found
  split at found
  · rename_i read
    cases found
    obtain ⟨entries, isRead, isConfig⟩ := Option.bind_eq_some_iff.mp read
    exact writable_of_ofEntries (read_inRange isRead) isConfig
  · cases found

/-! ### The round trip -/

/-- Some limit of the configuration or of one of its scopes is above the bound. -/
def Exceeds (config : Config) (bound : Nat) : Prop :=
  bound < config.limits.depth ∨ bound < config.limits.terms ∨
    ∃ entry ∈ config.scopes.entries,
      ∃ n, (entry.2.depth = some n ∨ entry.2.terms = some n) ∧ bound < n

theorem writable_iff {config : Config} : config.Writable ↔ ¬ config.Exceeds maxLimit := by
  simp only [Writable, Exceeds, allLimits, List.mem_append, List.mem_cons, List.not_mem_nil,
    or_false, List.mem_flatMap, Option.mem_toList]
  constructor
  · rintro fits (depth | terms | ⟨entry, member, n, isLimit, above⟩)
    · exact Nat.not_lt.mpr (fits _ (.inl (.inl rfl))) depth
    · exact Nat.not_lt.mpr (fits _ (.inl (.inr rfl))) terms
    · exact Nat.not_lt.mpr (fits n (.inr ⟨entry, member, isLimit⟩)) above
  · intro within n isLimit
    apply Nat.le_of_not_lt
    intro above
    rcases isLimit with (rfl | rfl) | ⟨entry, member, isLimit⟩
    · exact within (.inl above)
    · exact within (.inr (.inl above))
    · exact within (.inr (.inr ⟨entry, member, n, isLimit, above⟩))

theorem maxLimit_pow : maxLimit = 2 ^ 63 - 1 := by decide

/-- Writing fails only because of a limit that is too great, reading what was written gives the
configuration with the current version, and what was read can be written and read again. -/
theorem ofToml_toToml :
    (∀ config : Config, (config.toToml? = none ↔ config.Exceeds (2 ^ 63 - 1)) ∧
      ∀ text, config.toToml? = some text → ofToml text = .ok { config with version := 1 }) ∧
    ∀ text config, ofToml text = .ok config →
      ∃ written, config.toToml? = some written ∧ ofToml written = .ok config := by
  refine ⟨?_, ?_⟩
  · intro config
    refine ⟨?_, ?_⟩
    · rw [toToml_eq_none_iff, writable_iff, Classical.not_not, maxLimit_pow]
    · intro text written
      by_cases writable : config.Writable
      · rw [toToml_of_writable writable] at written
        cases written
        exact ofToml_lines writable
      · rw [toToml_eq_none_iff.mpr writable] at written
        cases written
  · intro text config found
    obtain ⟨writable, current⟩ := writable_of_ofToml found
    refine ⟨_, toToml_of_writable writable, ?_⟩
    rw [ofToml_lines writable, ← current]

theorem ofToml_toToml_hostile_names :
    let scope : Scope := ⟨["", "a\"b\\", "\n\x27\"\x00"], some (2 ^ 63 - 1), none⟩
    let config : Config :=
      ⟨7, ⟨0, 256⟩, .ofList [("", ⟨["\x27\"\t"], none, some 0⟩), ("a.b\n", scope)]⟩
    let text := "version = 7\nmax_depth = 0\nmax_terms = 256\n\n" ++
      "[scopes.\"\"]\nallowed_keys = [\"\"\"\x27\"\\t\"\"\"]\nmax_terms = 0\n\n" ++
      "[scopes.\"a.b\\n\"]\nallowed_keys = [\n    \"\",\n    \x27a\"b\\\x27,\n    " ++
      "\"\"\"\n\n\x27\"\\u0000\"\"\",\n]\nmax_depth = 9223372036854775807\n"
    let huge : Config := ⟨7, ⟨2 ^ 63, 256⟩, .empty⟩
    config.toToml? = some text ∧ ofToml text = .ok { config with version := 1 } ∧
      (∃ written, { config with version := 1 }.toToml? = some written ∧
        ofToml written = .ok { config with version := 1 }) ∧
      huge.toToml? = none := by
  intro scope config text huge
  have written : config.toToml? = some text := by decide +kernel
  have read := (ofToml_toToml.1 config).2 text written
  have exceeds : huge.Exceeds (2 ^ 63 - 1) := .inl (by decide)
  exact ⟨written, read, ofToml_toToml.2 text _ read, (ofToml_toToml.1 huge).1.mpr exceeds⟩

end QueryFilter.Config
