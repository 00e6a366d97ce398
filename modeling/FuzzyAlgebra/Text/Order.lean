/-!
# Order of text

Ranges of code points and the lexicographic order of text by code point.
-/

namespace FuzzyAlgebra.Text

/-- Whether a code point lies in one of the ranges, ends included. -/
def inRanges (ranges : List (Nat × Nat)) (n : Nat) : Bool :=
  ranges.any fun (low, high) => low ≤ n && n ≤ high

def sortDistinct (names : List String) : List String :=
  (names.mergeSort (fun a b => decide (a ≤ b))).eraseDups

end FuzzyAlgebra.Text
