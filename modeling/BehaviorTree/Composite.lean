import BehaviorTree.Status

/-!
# Composites

A composite polls its children in order.  A **sequence** goes on while children succeed, a
**selector** while they fail; `CompositeKind.advancesOn` is that outcome, and it is also the
composite's own result once every child has produced it.  Any other terminal outcome of a child is
the composite's result at once.
-/

namespace BehaviorTree

/-- The two rules by which a composite goes through its children. -/
inductive CompositeKind
  /-- Goes on while children succeed. -/
  | sequence
  /-- Goes on while children fail. -/
  | selector
  deriving DecidableEq

namespace CompositeKind

/-- The outcome of a child that moves a composite on to the next one. -/
def advancesOn : CompositeKind → Status
  | sequence => .success
  | selector => .failure

def name : CompositeKind → String
  | sequence => "sequence"
  | selector => "selector"

/-- Kind names are read without regard to case. -/
instance : Vocabulary CompositeKind where
  members := [sequence, selector]
  name := name
  ignoresCase := true

theorem advancesOn_ne_running (k : CompositeKind) : k.advancesOn ≠ .running := by
  cases k <;> simp [advancesOn]

end CompositeKind

end BehaviorTree
