/-!
# Ranges of characters

Character properties are tables of closed ranges of code points.
-/

namespace FieldSchema.Text

/-- Whether a character's code point lies in one of the closed ranges. -/
def inRanges (ranges : Array (Nat × Nat)) (c : Char) : Bool :=
  ranges.any fun (low, high) => low ≤ c.toNat && c.toNat ≤ high

end FieldSchema.Text
