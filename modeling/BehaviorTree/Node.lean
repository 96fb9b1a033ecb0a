import BehaviorTree.Status

/-!
# Nodes: identity, tag and execution state

A node keeps one `NodeId` from the moment a tree is authored; copies of the tree keep it too.  Its
`NodeState` is what the engine records about its execution: the result of its latest poll, whether
an activation of it is under way, and how many activations there have been.
-/

namespace BehaviorTree

/-- The identity of a node, unique within a tree. -/
structure NodeId where
  val : UInt64
  deriving DecidableEq

namespace NodeId

/-- An identity in running text: `#5`. -/
def render (id : NodeId) : String := "#" ++ toString id.val.toNat

/-- An identity inside a listing: `NodeId(5)`. -/
def renderListed (id : NodeId) : String := "NodeId(" ++ toString id.val.toNat ++ ")"

/-- A listing of identities: `[NodeId(1), NodeId(2)]`. -/
def renderList (ids : List NodeId) : String :=
  "[" ++ ", ".intercalate (ids.map renderListed) ++ "]"

end NodeId

/-- What kind of node a tool sees. -/
inductive NodeTag
  | root
  | sequence
  | selector
  | invert
  | repeat
  | reset
  | alwaysSucceed
  | compare
  | hasValue
  | increment
  | leaf
  deriving DecidableEq

namespace NodeTag

def name : NodeTag → String
  | root => "root"
  | sequence => "sequence"
  | selector => "selector"
  | invert => "invert"
  | .repeat => "repeat"
  | reset => "reset"
  | alwaysSucceed => "always_succeed"
  | compare => "compare"
  | hasValue => "has_value"
  | increment => "increment"
  | leaf => "leaf"

/-- Tag names are read without regard to case. -/
instance : Vocabulary NodeTag where
  members := [root, sequence, selector, invert, .repeat, reset, alwaysSucceed, compare, hasValue,
    increment, leaf]
  name := name
  ignoresCase := true

end NodeTag

/-- What the engine records about the execution of a node. -/
structure NodeState where
  /-- The result of the latest poll, `running` before the first. -/
  current : Status
  /-- Whether an activation is under way. -/
  started : Bool
  /-- How many activations have begun, held at the largest 32-bit number. -/
  activations : UInt32
  deriving DecidableEq

namespace NodeState

/-- A node that has never been polled. -/
def fresh : NodeState := ⟨.running, false, 0⟩

instance : Inhabited NodeState := ⟨fresh⟩

/-- Back to idle, so that the next poll begins an activation; the count stays. -/
def clear (s : NodeState) : NodeState := { s with current := .running, started := false }

def activate (s : NodeState) : NodeState :=
  { s with started := true
           activations := if s.activations.toNat + 1 < UInt32.size then s.activations + 1
             else s.activations }

def record (s : NodeState) (status : Status) : NodeState := { s with current := status }

def finish (s : NodeState) : NodeState := { s with started := false }

@[simp] theorem clear_activations (s : NodeState) : s.clear.activations = s.activations := rfl

@[simp] theorem clear_clear (s : NodeState) : s.clear.clear = s.clear := rfl

end NodeState

end BehaviorTree
