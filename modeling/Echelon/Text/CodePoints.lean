/-!
# Ranges of code points

A class of characters is given by the closed ranges of code points that it is made of.
-/

namespace Echelon.Text

/-- Whether one of the ranges holds a character. -/
def covers (ranges : List (Nat × Nat)) (c : Char) : Bool :=
  ranges.any fun (first, last) => first ≤ c.toNat && c.toNat ≤ last

end Echelon.Text
