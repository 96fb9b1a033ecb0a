import BehaviorTree.Config
import BehaviorTree.Graph.Validation
import BehaviorTree.Tree

/-!
# Graphs and templates

`Graph.build` makes a template of a well-formed graph: the nodes that the root reaches, in
depth-first pre-order, whatever the order in which they are listed.  The others are dropped, and
the outcome names them.  `Graph.ofTree` saves a tree as a graph again.

References may go round in circles among nodes that the root does not reach, so growing the nested
tree needs a reason to end: a branch is grown from a pool of nodes, and the node at its root is not
in the pool from which its children grow (`Graph.grow`).
-/

namespace BehaviorTree.Graph

variable {L δ : Type}

/-- The kind of an authored node: the cascade flag comes from the configuration unless the node has
its own, and a leaf from the registry. -/
def kindOf (registry : LeafRegistry L) (config : EngineConfig) (node : GraphNode) :
    Except GraphError (NodeKind L) :=
  match node.shape with
  | .root _ => .ok .root
  | .composite kind _ cascade => .ok (.composite kind (cascade.getD config.defaultCascade) 0)
  | .decorator rule _ => .ok (.decorator rule false)
  | .leaf name =>
    match registry.create? name with
    | some leaf => .ok (.leaf leaf)
    | none => .error (.unknownLeaf node.id name)

/-- The pool without the nodes of an identity. -/
def without (pool : List GraphNode) (id : NodeId) : List GraphNode :=
  pool.filter fun node => node.id != id

theorem length_without_lt {pool : List GraphNode} {id : NodeId} {node : GraphNode}
    (h : pool.find? (fun node => node.id == id) = some node) :
    (without pool id).length < pool.length := by
  rw [without, List.length_filter_lt_length_iff_exists]
  exact ⟨node, List.mem_of_find?_eq_some h, by simpa using List.find?_some h⟩

/-- Grows the branch at an authored node, its descendants taken from a pool. -/
def grow (registry : LeafRegistry L) (config : EngineConfig) (pool : List GraphNode)
    (node : GraphNode) : Except GraphError (Branch (Node L)) := do
  let kind ← kindOf registry config node
  let children ← node.shape.children.mapM fun id =>
    match _h : pool.find? fun node => node.id == id with
    | none => .error (.unknownNode node.id id)
    | some child => grow registry config (without pool id) child
  return .node (.fresh node.id kind) children
termination_by pool.length
decreasing_by exact length_without_lt _h

structure Built (L : Type) where
  /-- The template. -/
  tree : Tree L
  /-- The identities of the nodes that the root does not reach, as listed. -/
  dropped : List NodeId

/-- The identities of a graph that a tree does not contain, as listed. -/
def dropped (g : Graph) (tree : Tree L) : List NodeId :=
  (g.nodes.map GraphNode.id).filter fun id => !(tree.arena.any fun slot => slot.label.id == id)

/-- The template of a well-formed graph. -/
def build (g : Graph) (registry : LeafRegistry L) (config : EngineConfig) :
    Except GraphError (Built L) := do
  let root ← g.validate registry
  match g.find? root with
  | none => .error .missingRoot
  | some node =>
    let branch ← grow registry config (without g.nodes root) node
    let tree ← Tree.ofArena (branch.layout 0)
    return ⟨tree, g.dropped tree⟩

/-- The line that reports dropped nodes, when there are any. -/
def Built.warning? (b : Built L) : Option String :=
  match b.dropped with
  | [] => none
  | ids => some ("dropping graph nodes unreachable from the root dropped=" ++ NodeId.renderList ids)

/-- What an authored node says of a node of a tree, given the identities of its children. -/
def shapeOf [Behavior L δ] (kind : NodeKind L) (children : List NodeId) : GraphShape :=
  match kind with
  | .root => .root children.head?
  | .composite kind cascade _ => .composite kind children (some cascade)
  | .decorator rule _ => .decorator rule children.head?
  | .leaf leaf => .leaf (Behavior.name leaf)

/-- A tree saved as a graph: its nodes in pre-order, leaves by name, without places on a canvas. -/
def ofTree [Behavior L δ] (tree : Tree L) : Graph :=
  ⟨tree.arena.map fun slot =>
    let children := slot.children.filterMap fun c => tree.arena[c]?.map fun s => s.label.id
    { id := slot.label.id, shape := shapeOf slot.label.kind children, layout := none }⟩

end BehaviorTree.Graph
