import BehaviorTree.Binary.Format
import BehaviorTree.Composite
import BehaviorTree.Decorator

/-!
# Authored graphs

An editor saves a tree as a `Graph`: a flat list of nodes that refer to their children by identity.
Nodes may be listed in any order and carry their place on the editor's canvas, which the engine
never reads.  Nothing in the type keeps a graph from being malformed;
`BehaviorTree.Graph.Validation` says which graphs make a tree.
-/

namespace BehaviorTree

/-- What an authored node is, with references to its children. -/
inductive GraphShape
  | root (child : Option NodeId)
  /-- A composite, its cascade flag left to the configuration unless given. -/
  | composite (kind : CompositeKind) (children : List NodeId) (cascade : Option Bool)
  | decorator (rule : DecoratorRule) (child : Option NodeId)
  /-- A leaf, by the name under which it is registered. -/
  | leaf (name : String)
  deriving DecidableEq

namespace GraphShape

/-- The referenced children in evaluation order. -/
def children : GraphShape → List NodeId
  | root child => child.toList
  | composite _ children _ => children
  | decorator _ child => child.toList
  | leaf _ => []

/-- Whether this is a root. -/
def isRoot : GraphShape → Bool
  | root _ => true
  | _ => false

end GraphShape

structure GraphNode where
  id : NodeId
  shape : GraphShape
  /-- The place on the editor's canvas. -/
  layout : Option (Binary32 × Binary32)
  deriving DecidableEq

namespace GraphNode

/-- Equality of places on the canvas, numeric on their coordinates. -/
def sameLayout : Option (Binary32 × Binary32) → Option (Binary32 × Binary32) → Bool
  | some (x, y), some (x', y') => x.same x' && y.same y'
  | none, none => true
  | _, _ => false

/-- Equality of authored nodes, numeric on the place on the canvas. -/
def same (a b : GraphNode) : Bool :=
  a.id == b.id && a.shape == b.shape && sameLayout a.layout b.layout

end GraphNode

structure Graph where
  nodes : List GraphNode
  deriving DecidableEq

namespace Graph

/-- The first listed node with an identity. -/
def find? (g : Graph) (id : NodeId) : Option GraphNode := g.nodes.find? fun node => node.id == id

/-- Equality of graphs, node by node, numeric on places on the canvas. -/
def same (a b : Graph) : Bool :=
  a.nodes.length == b.nodes.length && (a.nodes.zip b.nodes).all fun (x, y) => x.same y

end Graph

end BehaviorTree
