/-!
# Edit distance

The least number of characters to insert, delete or replace that turns one text into another. A row
holds the distances of one text to every suffix of the other, longest suffix first.
-/

namespace QueryFilter.Text

/-- The distances of the empty text to every suffix of `target`. -/
def emptyRow : List Char → List Nat
  | [] => [0]
  | _ :: target => (target.length + 1) :: emptyRow target

def nextRow (c : Char) : List Char → List Nat → List Nat
  | [], row => row.map (· + 1)
  | d :: target, whole :: row =>
    let next := nextRow c target row
    let replaced := row.headD 0 + if c = d then 0 else 1
    min (min (whole + 1) (next.headD 0 + 1)) replaced :: next
  | _ :: _, [] => []

def editDistance (source target : List Char) : Nat :=
  (source.foldr (nextRow · target) (emptyRow target)).headD 0

end QueryFilter.Text
