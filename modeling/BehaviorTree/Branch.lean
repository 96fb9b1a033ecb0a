/-!
# Branches and their pre-order layout

A `Branch` is a node with its subtrees in evaluation order.  `Branch.layout` writes one down flat:
a list of `Slot`s in depth-first pre-order, each with the positions of its children.  The subtree
of a node is then a contiguous stretch, its first child stands right behind it, and every further
child right behind the subtree of the one before.

The other direction is `Slot.branchAt`, which reads the nested tree off a flat list below a
position.  It and `Slot.walk`, the pre-order walk with depths, follow a reference to a child only
if it points forward and inside the list (`Slot.Forward`); every reference that `layout` writes
does, and on any list at all the recursion ends.
-/

namespace BehaviorTree

/-- A node with its subtrees in order. -/
inductive Branch (α : Type)
  | node (label : α) (children : List (Branch α))

/-- One node of a flat tree: its label and the positions of its children in order. -/
structure Slot (α : Type) where
  label : α
  /-- The positions of the children. -/
  children : List Nat

namespace Branch

variable {α β : Type}

def label : Branch α → α
  | node a _ => a

def children : Branch α → List (Branch α)
  | node _ ts => ts

mutual

def size : Branch α → Nat
  | node _ ts => 1 + sizeAll ts

def sizeAll : List (Branch α) → Nat
  | [] => 0
  | t :: ts => size t + sizeAll ts

end

mutual

/-- The labels in pre-order. -/
def labels : Branch α → List α
  | node a ts => a :: labelsAll ts

def labelsAll : List (Branch α) → List α
  | [] => []
  | t :: ts => labels t ++ labelsAll ts

end

mutual

/-- The same tree with every label changed. -/
def map (f : α → β) : Branch α → Branch β
  | node a ts => node (f a) (mapAll f ts)

def mapAll (f : α → β) : List (Branch α) → List (Branch β)
  | [] => []
  | t :: ts => map f t :: mapAll f ts

end

/-- The positions of the roots of branches laid out one behind the other from `base` on. -/
def roots (base : Nat) : List (Branch α) → List Nat
  | [] => []
  | t :: ts => base :: roots (base + t.size) ts

mutual

/-- The flat form of a branch whose root stands at `base`. -/
def layout (base : Nat) : Branch α → List (Slot α)
  | node a ts => ⟨a, roots (base + 1) ts⟩ :: layoutAll (base + 1) ts

/-- The flat form of branches one behind the other from `base` on. -/
def layoutAll (base : Nat) : List (Branch α) → List (Slot α)
  | [] => []
  | t :: ts => layout base t ++ layoutAll (base + t.size) ts

end

end Branch

namespace Slot

variable {α : Type}

/-- Whether a reference from position `i` points to a later position of a list of `n` slots. -/
def Forward (n i c : Nat) : Prop := i < c ∧ c < n

instance (n i c : Nat) : Decidable (Forward n i c) :=
  inferInstanceAs (Decidable (i < c ∧ c < n))

/-- The nested tree below a position of a flat one. -/
def branchAt (slots : List (Slot α)) (i : Nat) (h : i < slots.length) : Branch α :=
  .node slots[i].label <| slots[i].children.filterMap fun c =>
    if hc : Forward slots.length i c then some (branchAt slots c hc.2) else none
termination_by slots.length - i
decreasing_by exact Nat.sub_lt_sub_left h hc.1

/-- The positions from `i` down in pre-order, each with its depth below `i` added to `depth`. -/
def walk (slots : List (Slot α)) (i depth : Nat) : List (Nat × Nat) :=
  if h : i < slots.length then
    (i, depth) :: slots[i].children.flatMap fun c =>
      if hc : Forward slots.length i c then walk slots c (depth + 1) else []
  else []
termination_by slots.length - i
decreasing_by exact Nat.sub_lt_sub_left h hc.1

/-- The positions strictly below `i`, in pre-order. -/
def below (slots : List (Slot α)) (i : Nat) : List Nat :=
  (walk slots i 0).tail.map Prod.fst

end Slot

end BehaviorTree
