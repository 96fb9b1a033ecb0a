import BehaviorTree.Graph
import BehaviorTree.GraphError
import BehaviorTree.Leaf.Registry

/-!
# Which graphs make a tree

A graph makes a tree if its identities are distinct, exactly one of its nodes is a root, every
reference leads to a node that is not the root and that nothing else refers to, and every leaf name
is registered.  `Graph.validate` returns the identity of the root, or the first defect:

1. the first node, in the order of listing, whose identity occurred before;
2. no root, or several;
3. going through the nodes as listed, and through the references of each in order: a reference to
   nothing, to the root, or to a node that was referred to before; and after the references of a
   leaf, its unregistered name.

Nodes that the root does not reach are held to the same rules.
-/

namespace BehaviorTree.Graph

variable {L : Type}

/-- The references gone through so far: each child with the node that refers to it. -/
abbrev Parents := List (NodeId × NodeId)

/-- Judges one reference, given the references before it. -/
def judgeReference (g : Graph) (parent : NodeId) (seen : Parents) (child : NodeId) :
    Except GraphError Parents :=
  match g.find? child with
  | none => .error (.unknownNode parent child)
  | some node =>
    if node.shape.isRoot then .error (.rootReferenced parent child)
    else
      match seen.lookup child with
      | some first => .error (.sharedChild child first parent)
      | none => .ok (seen ++ [(child, parent)])

def judgeName (registry : LeafRegistry L) (node : GraphNode) : Except GraphError Unit :=
  match node.shape with
  | .leaf name => if registry.contains name then .ok () else .error (.unknownLeaf node.id name)
  | _ => .ok ()

/-- Judges one node: its references in order, then its name. -/
def judgeNode (g : Graph) (registry : LeafRegistry L) (seen : Parents) (node : GraphNode) :
    Except GraphError Parents := do
  let seen ← node.shape.children.foldlM (g.judgeReference node.id) seen
  judgeName registry node
  return seen

def rootIds (g : Graph) : List NodeId :=
  (g.nodes.filter fun node => node.shape.isRoot).map GraphNode.id

/-- The identity of the root of a well-formed graph, or the first defect. -/
def validate (g : Graph) (registry : LeafRegistry L) : Except GraphError NodeId := do
  match firstRepeat [] (g.nodes.map GraphNode.id) with
  | some id => .error (.duplicateId id)
  | none =>
    match g.rootIds with
    | [] => .error .missingRoot
    | [root] =>
      let _ ← g.nodes.foldlM (g.judgeNode registry) []
      return root
    | roots => .error (.multipleRoots roots)

end BehaviorTree.Graph
