/-!
# Ranges of characters

Sets of characters given by ranges of code points.
-/
namespace LabExchange.Text

/-- Whether a character lies in one of the ranges. -/
def inRanges (ranges : List (Nat × Nat)) (c : Char) : Bool :=
  ranges.any fun (first, last) => first ≤ c.toNat && c.toNat ≤ last

end LabExchange.Text
