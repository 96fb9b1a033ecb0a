import BehaviorTree.Node

/-!
# Defects of authored trees

A `GraphError` names what is wrong with the structure of an authored graph or blueprint.  Only
building a tree can fail in these ways; running one never does.
-/

namespace BehaviorTree

/-- What is wrong with an authored graph or blueprint. -/
inductive GraphError
  | duplicateId (id : NodeId)
  | missingRoot
  | multipleRoots (ids : List NodeId)
  | unknownNode (parent child : NodeId)
  /-- A node is referred to a second time. -/
  | sharedChild (child first second : NodeId)
  | rootReferenced (parent root : NodeId)
  | unknownLeaf (id : NodeId) (name : String)
  deriving DecidableEq

namespace GraphError

def message : GraphError → String
  | duplicateId id => "node id " ++ id.render ++ " is used more than once"
  | missingRoot => "graph has no root node"
  | multipleRoots ids => "graph has more than one root node: " ++ NodeId.renderList ids
  | unknownNode parent child =>
    "node " ++ parent.render ++ " references unknown node " ++ child.render
  | sharedChild child first second =>
    "node " ++ child.render ++ " has two parents: " ++ first.render ++ " and " ++ second.render
  | rootReferenced parent root =>
    "node " ++ parent.render ++ " references the root node " ++ root.render
  | unknownLeaf id name =>
    "leaf " ++ id.render ++ " uses unregistered behavior '" ++ name ++ "'"

end GraphError

/-- The first identity of a list that occurred earlier in it, given the identities `seen` before. -/
def firstRepeat (seen : List NodeId) : List NodeId → Option NodeId
  | [] => none
  | id :: ids => if seen.contains id then some id else firstRepeat (id :: seen) ids

end BehaviorTree
