/-!
# Ranges of characters

Tables of characters by the closed ranges of their code points.
-/

set_option autoImplicit false

namespace ConditionLint.Text

def inRanges (ranges : Array (Nat × Nat)) (c : Char) : Bool :=
  ranges.any fun (first, last) => first ≤ c.toNat && c.toNat ≤ last

end ConditionLint.Text
