/-!
# Decimal text of integers

An integer is written with a minus sign if it is negative and without leading zeros.
-/

namespace QueryFilter.Text

def integerText : Int → List Char
  | .ofNat n => Nat.toDigits 10 n
  | .negSucc n => '-' :: Nat.toDigits 10 (n + 1)

end QueryFilter.Text
