import Mathlib.Order.Bounds.Basic
import QueryFilter.Proofs.BadCalls
import QueryFilter.Proofs.Text.EditDistance
import QueryFilter.Proofs.UnknownKeys

/-!
# The closest name

What is suggested for a name that is not known is the closest of the names that are, by edits in
lower case, and the first of several: `unknown_name_suggestion`. A name of no characters is never
suggested.
-/

namespace QueryFilter

/-! ### The first of the least -/

section

variable {α : Type} {pairs : List (α × Nat)} {best : α × Nat}

theorem leastBy_eq_none : leastBy pairs = none ↔ pairs = [] := by
  cases pairs with
  | nil => simp [leastBy]
  | cons pair pairs =>
    unfold leastBy
    cases leastBy pairs with
    | none => simp
    | some best =>
      dsimp only
      split <;> simp

/-- All pairs in front of the one that is chosen have a greater number, and none behind it has a
smaller one. -/
theorem leastBy_eq_some (chosen : leastBy pairs = some best) : ∃ before after,
    pairs = before ++ best :: after ∧ (∀ other ∈ before, best.2 < other.2) ∧
      ∀ other ∈ after, best.2 ≤ other.2 := by
  induction pairs generalizing best with
  | nil => cases chosen
  | cons pair pairs ih =>
    unfold leastBy at chosen
    cases found : leastBy pairs with
    | none =>
      rw [found] at chosen
      cases chosen
      obtain rfl := leastBy_eq_none.mp found
      exact ⟨[], [], rfl, by simp, by simp⟩
    | some next =>
      obtain ⟨before, after, rfl, earlier, later⟩ := ih found
      simp only [found] at chosen
      split at chosen
      · rename_i smaller
        cases chosen
        exact ⟨pair :: before, after, rfl, List.forall_mem_cons.mpr ⟨smaller, earlier⟩, later⟩
      · rename_i first
        cases chosen
        refine ⟨[], _, rfl, by simp, fun other member => ?_⟩
        rcases List.mem_append.mp member with member | member
        · have := earlier other member
          omega
        · rcases List.mem_cons.mp member with rfl | member
          · omega
          · have := later other member
            omega

end

/-! ### Suggestions -/

/-- The least number of edits between two names in lower case. -/
def Distance (name other : String) (n : Nat) : Prop :=
  IsLeast {n | Text.Edits n (Text.lowerCase name.toList) (Text.lowerCase other.toList)} n

theorem distance_iff {name other : String} {n : Nat} :
    Distance name other n ↔ nameDistance name other = n := by
  have least := Text.editDistance_isLeast (Text.lowerCase name.toList) (Text.lowerCase other.toList)
  exact ⟨fun distance => least.unique distance, fun same => same ▸ least⟩

/-- A candidate that may be suggested for a name: of all that are not empty none is closer, and none
in front of it is as close. -/
structure Closest (name : String) (candidates : List String) (best : String) (distance : Nat) :
    Prop where
  nonempty : best ≠ ""
  apart : Distance name best distance
  near : distance ≤ 3
  least : ∀ other ∈ candidates, other ≠ "" → ∀ n, Distance name other n → distance ≤ n
  first : ∃ before after, candidates = before ++ best :: after ∧
    ∀ other ∈ before, other ≠ "" → ∀ n, Distance name other n → distance < n

inductive Suggests (name : String) (candidates : List String) : Option String → Prop where
  | closest {best : String} {distance : Nat} (closest : Closest name candidates best distance) :
    Suggests name candidates (some best)
  | far (far : ∀ other ∈ candidates, other ≠ "" → ∀ n, Distance name other n → 3 < n) :
    Suggests name candidates none

/-- The candidates as they are compared: those that are not empty, in their order. -/
theorem leastBy_candidates {name : String} {candidates : List String} {pair : String × Nat}
    (chosen : leastBy ((candidates.filter (· ≠ "")).map
      fun candidate => (candidate, nameDistance name candidate)) = some pair) :
    pair.1 ≠ "" ∧ nameDistance name pair.1 = pair.2 ∧ ∃ before after,
      candidates = before ++ pair.1 :: after ∧
      (∀ other ∈ before, other ≠ "" → pair.2 < nameDistance name other) ∧
      ∀ other ∈ after, other ≠ "" → pair.2 ≤ nameDistance name other := by
  obtain ⟨pairsBefore, pairsAfter, measured, earlier, later⟩ := leastBy_eq_some chosen
  obtain ⟨namedBefore, rest, named, rfl, restMeasured⟩ := List.map_eq_append_iff.mp measured
  obtain ⟨best, namedAfter, rfl, rfl, rfl⟩ := List.map_eq_cons_iff.mp restMeasured
  obtain ⟨before, behind, rfl, rfl, restNamed⟩ := List.filter_eq_append_iff.mp named
  obtain ⟨skipped, after, rfl, allEmpty, nonempty, rfl⟩ := List.filter_eq_cons_iff.mp restNamed
  have compared {others : List String} {other : String} (member : other ∈ others)
      (nonempty : other ≠ "") : (other, nameDistance name other) ∈
        (others.filter (· ≠ "")).map fun candidate => (candidate, nameDistance name candidate) :=
    List.mem_map_of_mem (List.mem_filter.mpr ⟨member, by simpa using nonempty⟩)
  refine ⟨by simpa using nonempty, rfl, before ++ skipped, after, by simp, ?_, ?_⟩
  · intro other member nonempty
    rcases List.mem_append.mp member with member | member
    · exact earlier _ (compared member nonempty)
    · exact absurd nonempty (by simpa using allEmpty other member)
  · exact fun other member nonempty => later _ (compared member nonempty)

/-- The name itself is not a candidate, so that the closest one is never held back for being it. -/
theorem suggests_suggestion {name : String} {candidates : List String}
    (unknown : name ∉ candidates) : Suggests name candidates (suggestion name candidates) := by
  unfold suggestion
  dsimp only
  cases chosen : leastBy ((candidates.filter (· ≠ "")).map
      fun candidate => (candidate, nameDistance name candidate)) with
  | none =>
    refine .far fun other member nonempty => ?_
    have none_named := List.map_eq_nil_iff.mp (leastBy_eq_none.mp chosen)
    exact absurd (List.filter_eq_nil_iff.mp none_named other member) (by simpa using nonempty)
  | some pair =>
    obtain ⟨best, distance⟩ := pair
    obtain ⟨nonempty, apart, before, after, rfl, earlier, later⟩ := leastBy_candidates chosen
    dsimp only at nonempty apart earlier later ⊢
    have least : ∀ other ∈ before ++ best :: after, other ≠ "" →
        distance ≤ nameDistance name other := by
      intro other member nonempty
      rcases List.mem_append.mp member with member | member
      · exact Nat.le_of_lt (earlier other member nonempty)
      · rcases List.mem_cons.mp member with rfl | member
        · exact Nat.le_of_eq apart.symm
        · exact later other member nonempty
    have different : best ≠ name := by
      rintro rfl
      exact unknown (List.mem_append_right before List.mem_cons_self)
    by_cases near : distance ≤ suggestionReach
    · rw [if_pos ⟨near, different⟩]
      refine .closest ⟨nonempty, distance_iff.mpr apart, near, ?_, before, after, rfl, ?_⟩
      · intro other member nonempty n measured
        exact distance_iff.mp measured ▸ least other member nonempty
      · intro other member nonempty n measured
        exact distance_iff.mp measured ▸ earlier other member nonempty
    · rw [if_neg fun close => near close.1]
      refine .far fun other member nonempty n measured => ?_
      have := least other member nonempty
      have : 3 < distance := Nat.not_le.mp near
      rw [distance_iff.mp measured] at *
      omega

/-! ### Unknown names -/

theorem Scalar.ofCall_unknown {name n : String} {args : List Scalar} {s : Option String}
    (failed : Scalar.ofCall name args = .error (.unknownFunction n s)) :
    n = name ∧ name ∉ Builtin.all.map Builtin.name ∧
      s = suggestion name (Builtin.all.map Builtin.name) := by
  unfold Scalar.ofCall Builtin.apply at failed
  split at failed
  · split at failed <;> cases failed
  · rename_i absent
    cases failed
    refine ⟨rfl, fun member => ?_, rfl⟩
    obtain ⟨f, -, rfl⟩ := List.mem_map.mp member
    have registered : Builtin.sameName f.name f.name := by simp [Builtin.sameName]
    rw [Builtin.named_iff.mpr registered] at absent
    cases absent

theorem Expr.check_unknownKey {keys : List String} {expr : Expr} {field : String}
    {s : Option String} (noWildcard : KeySet.everyField ∉ keys)
    (failed : expr.check (.ofList keys) = .error (.unknownKey field s)) :
    field ∉ keys ∧ s = suggestion field (NameSet.ofNames keys).names := by
  rw [expr.check_eq_forM, forM_error_iff] at failed
  obtain ⟨before, refused, after, -, -, failed⟩ := failed
  have unlisted : refused ∉ keys := by
    intro listed
    have allowed := (KeySet.allows_ofList noWildcard refused).mpr listed
    rw [(KeySet.checkField_ok_iff _ _).mpr allowed] at failed
    cases failed
  rw [KeySet.checkField_unlisted noWildcard unlisted] at failed
  cases failed
  exact ⟨unlisted, rfl⟩

/-- Where a field or a function is refused as unknown, the closest of the allowed keys in order or
of the functions is suggested, if one is near. -/
theorem unknown_name_suggestion :
    (∀ (keys : List String) (expr : Expr) (field : String) (s : Option String),
      KeySet.everyField ∉ keys → expr.check (.ofList keys) = .error (.unknownKey field s) →
      ∃ names : List String, names.Pairwise (· < ·) ∧ (∀ name, name ∈ names ↔ name ∈ keys) ∧
        Suggests field names s) ∧
    ∀ (name n : String) (args : List Scalar) (s : Option String),
      Scalar.ofCall name args = .error (.unknownFunction n s) →
      n = name ∧ Suggests name ["concat", "sum"] s := by
  constructor
  · intro keys expr field s noWildcard failed
    obtain ⟨unlisted, rfl⟩ := Expr.check_unknownKey noWildcard failed
    refine ⟨_, NameMap.names_increasing _, fun name => NameSet.mem_names_ofNames, ?_⟩
    exact suggests_suggestion fun member => unlisted (NameSet.mem_names_ofNames.mp member)
  · intro name n args s failed
    obtain ⟨rfl, unregistered, rfl⟩ := Scalar.ofCall_unknown failed
    exact ⟨rfl, suggests_suggestion unregistered⟩

/-- Of two keys that are as close, the first in order is suggested, not the first of the list, and
an empty key is passed over. -/
theorem unknown_name_suggestion_tie :
    KeySet.everyField ∉ ["cat", "bat", ""] ∧
      (Expr.isNull "Rat" false).check (.ofList ["cat", "bat", ""]) =
        .error (.unknownKey "Rat" (some "bat")) ∧
      Suggests "Rat" ["", "bat", "cat"] (some "bat") ∧
      Scalar.ofCall "SUMM" [] = .error (.unknownFunction "SUMM" (some "sum")) ∧
      Suggests "SUMM" ["concat", "sum"] (some "sum") := by
  have noWildcard : KeySet.everyField ∉ ["cat", "bat", ""] := by decide
  have refused : (Expr.isNull "Rat" false).check (.ofList ["cat", "bat", ""]) =
      .error (.unknownKey "Rat" (some "bat")) := by decide +kernel
  have unknown : Scalar.ofCall "SUMM" [] = .error (.unknownFunction "SUMM" (some "sum")) := by
    have absent : Builtin.named? "SUMM" = none := by decide
    have close : suggestion "SUMM" (Builtin.all.map Builtin.name) = some "sum" := by
      decide +kernel
    rw [Scalar.ofCall, absent, close]
  obtain ⟨keySuggestion, functionSuggestion⟩ := unknown_name_suggestion
  obtain ⟨names, increasing, same, suggests⟩ := keySuggestion _ _ _ _ noWildcard refused
  have names_eq : names = ["", "bat", "cat"] := by
    refine increasing.eq_of_mem_iff (by decide) fun name => ?_
    rw [same]
    simp only [List.mem_cons, List.not_mem_nil, or_false]
    tauto
  exact ⟨noWildcard, refused, names_eq ▸ suggests, unknown, (functionSuggestion _ _ _ _ unknown).2⟩

/-- An empty key can be closer than the key that is suggested. -/
theorem suggestion_passes_over_empty :
    (Expr.isNull "ab" false).check (.ofList ["", "abcde"]) =
        .error (.unknownKey "ab" (some "abcde")) ∧
      Distance "ab" "" 2 ∧ Distance "ab" "abcde" 3 := by
  refine ⟨by decide +kernel, ?_, ?_⟩
  · exact distance_iff.mpr (by decide +kernel)
  · exact distance_iff.mpr (by decide +kernel)

end QueryFilter
