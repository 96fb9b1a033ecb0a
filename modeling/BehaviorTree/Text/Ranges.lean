/-!
# Classes of characters

A class of characters is kept as the list of its ranges of code points, in increasing order.
-/

namespace BehaviorTree.Text

/-- A class of characters: the first and last code point of each of its ranges. -/
abbrev Ranges := List (Nat × Nat)

/-- Whether a character lies in one of the ranges. -/
def Ranges.contains (ranges : Ranges) (c : Char) : Bool :=
  ranges.any fun (first, last) => first ≤ c.toNat && c.toNat ≤ last

end BehaviorTree.Text
