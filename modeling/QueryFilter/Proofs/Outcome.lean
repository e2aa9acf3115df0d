import QueryFilter.Error

/-!
# Outcomes

What a computation that may be rejected went through if it gave a value, where a row of checks stops,
and when two computations are in step.
-/

namespace QueryFilter

variable {ε α β : Type} {x : Except ε α} {b : β}

theorem bind_ok_iff {f : α → Except ε β} : (x >>= f) = .ok b ↔ ∃ a, x = .ok a ∧ f a = .ok b := by
  cases x <;> simp [bind, Except.bind]

theorem bind_ok {f : α → Except ε β} (h : (x >>= f) = .ok b) : ∃ a, x = .ok a ∧ f a = .ok b :=
  bind_ok_iff.mp h

theorem map_ok_iff {f : α → β} : x.map f = .ok b ↔ ∃ a, x = .ok a ∧ f a = b := by
  cases x <;> simp [Except.map]

theorem map_ok {f : α → β} (h : x.map f = .ok b) : ∃ a, x = .ok a ∧ f a = b := map_ok_iff.mp h

theorem then_ok_iff {ε : Type} {first second : Except ε Unit} :
    (do first; second) = .ok () ↔ first = .ok () ∧ second = .ok () := by
  rw [bind_ok_iff]
  constructor
  · rintro ⟨_, passed, done⟩
    exact ⟨passed, done⟩
  · rintro ⟨passed, done⟩
    exact ⟨(), passed, done⟩

/-! ### Checks one after the other -/

section

variable {ε α β : Type} {e : ε}

theorem bind_error_iff {x : Except ε α} {f : α → Except ε β} :
    (x >>= f) = .error e ↔ x = .error e ∨ ∃ a, x = .ok a ∧ f a = .error e := by
  cases x <;> simp [bind, Except.bind]

variable {check : α → Except ε Unit} {items : List α}

theorem forM_ok_iff : forM items check = .ok () ↔ ∀ item ∈ items, check item = .ok () := by
  induction items with
  | nil => simp [pure, Except.pure]
  | cons item items ih => rw [List.forM_cons, then_ok_iff, ih, List.forall_mem_cons]

/-- Checks stop at the first item that fails, and that item alone decides the error. -/
theorem forM_error_iff : forM items check = .error e ↔ ∃ before item after,
    items = before ++ item :: after ∧ (∀ other ∈ before, check other = .ok ()) ∧
      check item = .error e := by
  induction items with
  | nil => simp [pure, Except.pure]
  | cons first rest ih =>
    rw [List.forM_cons, bind_error_iff, ih]
    constructor
    · rintro (failed | ⟨_, passed, before, item, after, rfl, earlier, failed⟩)
      · exact ⟨[], first, rest, rfl, by simp, failed⟩
      · exact ⟨first :: before, item, after, rfl, List.forall_mem_cons.mpr ⟨passed, earlier⟩, failed⟩
    · rintro ⟨before, item, after, same, earlier, failed⟩
      cases before with
      | nil =>
        obtain ⟨rfl, -⟩ := List.cons.inj same
        exact .inl failed
      | cons other before =>
        obtain ⟨rfl, rest_eq⟩ := List.cons.inj same
        obtain ⟨passed, earlier⟩ := List.forall_mem_cons.mp earlier
        exact .inr ⟨(), passed, before, item, after, rest_eq, earlier, failed⟩

end

/-! ### Computations in step -/

/-- Errors of one constructor, whatever they say. -/
def SameCause (first second : FilterError) : Prop := first.ctorIdx = second.ctorIdx

/-- Both computations give related values or are rejected for the same cause. -/
inductive Agrees {α β : Type} (related : α → β → Prop) :
    Except FilterError α → Except FilterError β → Prop where
  | ok {a : α} {b : β} (holds : related a b) : Agrees related (.ok a) (.ok b)
  | error {first second : FilterError} (same : SameCause first second) :
    Agrees related (.error first) (.error second)

namespace Agrees

variable {γ δ : Type} {related : α → β → Prop} {x : Except FilterError α} {y : Except FilterError β}

theorem of_eq {x y : Except FilterError α} (same : x = y) : Agrees Eq x y := by
  subst same
  cases x with
  | ok a => exact .ok rfl
  | error e => exact .error rfl

theorem bind {after : γ → δ → Prop} {f : α → Except FilterError γ} {g : β → Except FilterError δ}
    (agree : Agrees related x y) (next : ∀ a b, related a b → Agrees after (f a) (g b)) :
    Agrees after (x >>= f) (y >>= g) := by
  cases agree with
  | ok holds => exact next _ _ holds
  | error same => exact .error same

theorem map {after : γ → δ → Prop} {f : α → γ} {g : β → δ} (agree : Agrees related x y)
    (next : ∀ a b, related a b → after (f a) (g b)) : Agrees after (x.map f) (y.map g) := by
  cases agree with
  | ok holds => exact .ok (next _ _ holds)
  | error same => exact .error same

/-- Two computations that are in step with a third are in step with each other. -/
theorem join {other : γ → β → Prop} {after : α → γ → Prop} {z : Except FilterError γ}
    (agree : Agrees related x y) (second : Agrees other z y)
    (next : ∀ a b c, related a b → other c b → after a c) : Agrees after x z := by
  cases agree with
  | ok holds =>
    cases second with
    | ok otherHolds => exact .ok (next _ _ _ holds otherHolds)
  | error same =>
    cases second with
    | error otherSame => exact .error (same.trans otherSame.symm)

end Agrees

end QueryFilter
