import Mathlib.Order.Bounds.Defs
import Mathlib.Order.MinMax
import QueryFilter.Text.EditDistance

/-!
# The least number of edits

An edit inserts, deletes or replaces one character anywhere in a text. The distance of two texts is
the least number of edits that lead from the one to the other: `editDistance_isLeast`. No edit of
the first text changes its distance to another by more than one, which bounds the distance from
below, and the rows of the table give the edits.
-/

namespace QueryFilter.Text

inductive Edit : List Char → List Char → Prop where
  | insert (before after : List Char) (c : Char) : Edit (before ++ after) (before ++ c :: after)
  | delete (before after : List Char) (c : Char) : Edit (before ++ c :: after) (before ++ after)
  | replace (before after : List Char) (c d : Char) :
    Edit (before ++ c :: after) (before ++ d :: after)

/-- One text becomes the other in a number of edits, one after the other. -/
inductive Edits : Nat → List Char → List Char → Prop where
  | refl (cs : List Char) : Edits 0 cs cs
  | step {n : Nat} {source next target : List Char} (edit : Edit source next)
    (more : Edits n next target) : Edits (n + 1) source target

variable {source target : List Char} {n : Nat}

theorem Edit.cons (c : Char) (edit : Edit source target) : Edit (c :: source) (c :: target) := by
  cases edit with
  | insert before after d => exact .insert (c :: before) after d
  | delete before after d => exact .delete (c :: before) after d
  | replace before after d e => exact .replace (c :: before) after d e

theorem Edits.cons (c : Char) (edits : Edits n source target) :
    Edits n (c :: source) (c :: target) := by
  induction edits with
  | refl cs => exact .refl (c :: cs)
  | step edit _ ih => exact .step (edit.cons c) ih

/-! ### Rows -/

/-- The distances of a text to every suffix of another. -/
def row (source target : List Char) : List Nat :=
  source.foldr (nextRow · target) (emptyRow target)

theorem editDistance_nil (target : List Char) : editDistance [] target = target.length := by
  cases target <;> rfl

/-- A row goes on with the row of the shorter text. -/
theorem row_cons (source : List Char) (d : Char) (target : List Char) :
    row source (d :: target) = editDistance source (d :: target) :: row source target := by
  induction source with
  | nil => rfl
  | cons c source ih =>
    have unfolded : row (c :: source) (d :: target) =
        nextRow c (d :: target) (row source (d :: target)) := rfl
    have head : editDistance (c :: source) (d :: target) =
        (row (c :: source) (d :: target)).headD 0 := rfl
    rw [head, unfolded, ih]
    rfl

theorem editDistance_cons_nil (c : Char) (source : List Char) :
    editDistance (c :: source) [] = editDistance source [] + 1 := by
  have single : ∀ source, ∃ n, row source [] = [n] := by
    intro source
    induction source with
    | nil => exact ⟨0, rfl⟩
    | cons c source ih =>
      obtain ⟨n, row_eq⟩ := ih
      refine ⟨n + 1, ?_⟩
      calc row (c :: source) [] = (row source []).map (· + 1) := rfl
        _ = [n + 1] := by rw [row_eq]; rfl
  obtain ⟨n, row_eq⟩ := single source
  calc editDistance (c :: source) [] = ((row source []).map (· + 1)).headD 0 := rfl
    _ = (row source []).headD 0 + 1 := by rw [row_eq]; rfl
    _ = editDistance source [] + 1 := rfl

theorem editDistance_cons_cons (c d : Char) (source target : List Char) :
    editDistance (c :: source) (d :: target) =
      min (min (editDistance source (d :: target) + 1) (editDistance (c :: source) target + 1))
        (editDistance source target + if c = d then 0 else 1) := by
  calc editDistance (c :: source) (d :: target)
      = (nextRow c (d :: target) (row source (d :: target))).headD 0 := rfl
    _ = _ := by rw [row_cons]; rfl

/-! ### Edits that are enough -/

theorem edits_nil (target : List Char) : Edits target.length [] target := by
  induction target with
  | nil => exact .refl []
  | cons d target ih => exact .step (.insert [] [] d) (ih.cons d)

theorem edits_editDistance (source target : List Char) :
    Edits (editDistance source target) source target := by
  induction source generalizing target with
  | nil =>
    rw [editDistance_nil]
    exact edits_nil target
  | cons c source ih =>
    have deleted (target : List Char) :
        Edits (editDistance source target + 1) (c :: source) target :=
      .step (.delete [] source c) (ih target)
    induction target with
    | nil =>
      rw [editDistance_cons_nil]
      exact deleted []
    | cons d target ihTarget =>
      have inserted : Edits (editDistance (c :: source) target + 1) (c :: source) (d :: target) :=
        .step (.insert [] (c :: source) d) (ihTarget.cons d)
      have replaced : Edits (editDistance source target + if c = d then 0 else 1) (c :: source)
          (d :: target) := by
        split
        · rename_i same
          subst same
          exact (ih target).cons c
        · exact .step (.replace [] source c d) ((ih target).cons d)
      rw [editDistance_cons_cons]
      rcases min_choice (min (editDistance source (d :: target) + 1)
          (editDistance (c :: source) target + 1))
          (editDistance source target + if c = d then 0 else 1) with least | least
      · rw [least]
        rcases min_choice (editDistance source (d :: target) + 1)
            (editDistance (c :: source) target + 1) with least | least
        · rw [least]
          exact deleted (d :: target)
        · rw [least]
          exact inserted
      · rw [least]
        exact replaced

/-! ### Edits that are needed -/

theorem editDistance_self (source : List Char) : editDistance source source = 0 := by
  induction source with
  | nil => rfl
  | cons c source ih =>
    rw [editDistance_cons_cons, if_pos rfl, ih]
    exact Nat.min_zero _

section

variable (c d : Char) (source target : List Char)

theorem editDistance_insert_right :
    editDistance source (d :: target) ≤ editDistance source target + 1 := by
  cases source with
  | nil => simp only [editDistance_nil, List.length_cons, Nat.le_refl]
  | cons c source =>
    rw [editDistance_cons_cons]
    omega

theorem editDistance_insert_left :
    editDistance (c :: source) target ≤ editDistance source target + 1 := by
  cases target with
  | nil => exact Nat.le_of_eq (editDistance_cons_nil c source)
  | cons d target =>
    rw [editDistance_cons_cons]
    omega

theorem editDistance_delete_left :
    editDistance source target ≤ editDistance (c :: source) target + 1 := by
  induction target with
  | nil =>
    rw [editDistance_cons_nil]
    omega
  | cons d target ih =>
    have longer := editDistance_insert_right d source target
    rw [editDistance_cons_cons]
    omega

theorem editDistance_replace_left :
    editDistance (d :: source) target ≤ editDistance (c :: source) target + 1 := by
  induction target with
  | nil =>
    rw [editDistance_cons_nil, editDistance_cons_nil]
    omega
  | cons e target ih =>
    rw [editDistance_cons_cons, editDistance_cons_cons]
    split <;> split <;> omega

end

/-- A character in front of both texts does not make them differ more. -/
theorem editDistance_cons_le {other : List Char} (c : Char)
    (close : ∀ target, editDistance source target ≤ editDistance other target + 1)
    (target : List Char) :
    editDistance (c :: source) target ≤ editDistance (c :: other) target + 1 := by
  induction target with
  | nil =>
    have := close []
    rw [editDistance_cons_nil, editDistance_cons_nil]
    omega
  | cons d target ih =>
    have := close (d :: target)
    have := close target
    rw [editDistance_cons_cons, editDistance_cons_cons]
    omega

theorem Edit.editDistance_le {next : List Char} (edit : Edit source next) (target : List Char) :
    editDistance source target ≤ editDistance next target + 1 := by
  have behind (before : List Char) {front back : List Char}
      (close : ∀ target, editDistance front target ≤ editDistance back target + 1) :
      ∀ target,
        editDistance (before ++ front) target ≤ editDistance (before ++ back) target + 1 := by
    induction before with
    | nil => exact close
    | cons c before ih => exact editDistance_cons_le c ih
  cases edit with
  | insert before after c => exact behind before (editDistance_delete_left c after) target
  | delete before after c => exact behind before (editDistance_insert_left c after) target
  | replace before after c d => exact behind before (editDistance_replace_left d c after) target

theorem Edits.editDistance_le (edits : Edits n source target) : editDistance source target ≤ n := by
  induction edits with
  | refl cs => exact Nat.le_of_eq (editDistance_self cs)
  | step edit _ ih => exact Nat.le_trans (edit.editDistance_le _) (Nat.succ_le_succ ih)

theorem editDistance_isLeast (source target : List Char) :
    IsLeast {n | Edits n source target} (editDistance source target) :=
  ⟨edits_editDistance source target, fun _ edits => Edits.editDistance_le edits⟩

end QueryFilter.Text
