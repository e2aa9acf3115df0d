import QueryFilter.Text.EditDistance
import QueryFilter.Text.LowerCase

/-!
# Suggestions for unknown names

A rejected name may be a misspelling. The suggestion is the candidate at the least edit distance, in
lower case, if the distance is small.
-/

namespace QueryFilter

/-- The greatest distance at which a name is still suggested. -/
def suggestionReach : Nat := 3

/-- The edit distance of two names that disregards case. -/
def nameDistance (a b : String) : Nat :=
  Text.editDistance (Text.lowerCase a.toList) (Text.lowerCase b.toList)

/-- The pair with the least number, the first of several. -/
def leastBy {α : Type} : List (α × Nat) → Option (α × Nat)
  | [] => none
  | pair :: pairs =>
    match leastBy pairs with
    | some best => if best.2 < pair.2 then some best else some pair
    | none => some pair

/-- The closest candidate, unless it is far or the name itself. -/
def suggestion (name : String) (candidates : List String) : Option String :=
  let named := candidates.filter (· ≠ "")
  match leastBy (named.map fun candidate => (candidate, nameDistance name candidate)) with
  | some (best, distance) =>
    if distance ≤ suggestionReach ∧ best ≠ name then some best else none
  | none => none

end QueryFilter
