/-!
# Ranges of characters

A class of characters can be listed as ascending closed ranges of code points.
-/

namespace WordMachine.Text

/-- Whether the code point of a character lies in one of the ranges. -/
def inRanges (ranges : List (Nat × Nat)) (c : Char) : Bool :=
  ranges.any fun range => range.1 ≤ c.toNat && c.toNat ≤ range.2

end WordMachine.Text
