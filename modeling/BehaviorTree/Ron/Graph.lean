import BehaviorTree.Binary.Shortest
import BehaviorTree.Graph
import BehaviorTree.Ron.Rule

/-!
# Graphs in RON

A graph is saved as the record of its node list, each node a record of its identity, its kind and
its place on the canvas.  `Graph.render` writes the pretty text of a graph and `Graph.parse?` reads
one back.  Children, flags and places may be left out; an identity is a bare number.
-/

namespace BehaviorTree

open Ron

def NodeId.document (id : NodeId) : Document := .int id.val.toNat

def NodeId.reader : Reader NodeId := do return ⟨← Reader.uint64⟩

namespace GraphShape

def document : GraphShape → Document
  | root child => .record (some "Root") [("child", .option NodeId.document child)]
  | composite kind children cascade =>
    .record (some "Composite") [("kind", .word kind.word),
      ("children", .list (children.map NodeId.document)),
      ("cascade", .option Document.bool cascade)]
  | decorator rule child =>
    .record (some "Decorator") [("rule", rule.document), ("child", .option NodeId.document child)]
  | leaf name => .record (some "Leaf") [("name", .text name)]

structure Fields where
  child : Option (Option NodeId)
  kind : Option CompositeKind
  children : Option (List NodeId)
  cascade : Option (Option Bool)
  rule : Option DecoratorRule
  name : Option String

def field (name : String) (r : Fields) : Reader Fields :=
  match name with
  | "child" =>
    Reader.once r.child (Reader.option fun _ => NodeId.reader) fun v => { r with child := some v }
  | "kind" => Reader.once r.kind CompositeKind.reader fun v => { r with kind := some v }
  | "children" =>
    Reader.once r.children (Reader.list NodeId.reader) fun v => { r with children := some v }
  | "cascade" =>
    Reader.once r.cascade (Reader.option fun _ => Reader.bool) fun v => { r with cascade := some v }
  | "rule" => Reader.once r.rule DecoratorRule.reader fun v => { r with rule := some v }
  | "name" => Reader.once r.name Reader.text fun v => { r with name := some v }
  | _ => .fail

/-- Takes the fields of a kind, of which it knows those listed. -/
def fields (known : List String) : Reader Fields :=
  Reader.body (fun name => if known.contains name then some (field name) else none)
    ⟨none, none, none, none, none, none⟩

def reader : Reader GraphShape :=
  Reader.variant fun name =>
    match name with
    | "Root" => do return root ((← fields ["child"]).child.getD none)
    | "Composite" => do
      let r ← fields ["kind", "children", "cascade"]
      match r.kind with
      | some kind => return composite kind (r.children.getD []) (r.cascade.getD none)
      | none => .fail
    | "Decorator" => do
      let r ← fields ["rule", "child"]
      match r.rule with
      | some rule => return decorator rule (r.child.getD none)
      | none => .fail
    | "Leaf" => do
      match (← fields ["name"]).name with
      | some name => return leaf name
      | none => .fail
    | _ => .fail

end GraphShape

namespace GraphNode

/-- A place on the canvas as RON shows it. -/
def layoutDocument (place : Binary32 × Binary32) : Document :=
  .tuple [.float place.1.render, .float place.2.render]

def document (n : GraphNode) : Document :=
  .record none [("id", n.id.document), ("kind", n.shape.document),
    ("layout", .option layoutDocument n.layout)]

structure Fields where
  id : Option NodeId
  shape : Option GraphShape
  layout : Option (Option (Binary32 × Binary32))

def field (name : String) : Option (Fields → Reader Fields) :=
  match name with
  | "id" => some fun r => Reader.once r.id NodeId.reader fun v => { r with id := some v }
  | "kind" => some fun r =>
    Reader.once r.shape GraphShape.reader fun v => { r with shape := some v }
  | "layout" => some fun r =>
    Reader.once r.layout
      (Reader.option fun bare => Reader.pair bare Reader.binary32 Reader.binary32)
      fun v => { r with layout := some v }
  | _ => none

def reader : Reader GraphNode := do
  match ← Reader.record "NodeSpec" field ⟨none, none, none⟩ with
  | ⟨some id, some shape, layout⟩ => return ⟨id, shape, layout.getD none⟩
  | _ => .fail

end GraphNode

namespace Graph

def document (g : Graph) : Document := .record none [("nodes", .list (g.nodes.map (·.document)))]

def reader : Reader Graph := do
  let field (name : String) : Option (Option (List GraphNode) → Reader (Option (List GraphNode))) :=
    match name with
    | "nodes" => some fun found => Reader.once found (Reader.list GraphNode.reader) some
    | _ => none
  match ← Reader.record "GraphAsset" field none with
  | some nodes => return ⟨nodes⟩
  | none => .fail

def render (g : Graph) : String := g.document.renderPretty

def parse? (source : String) : Option Graph := Ron.parse? reader source

end Graph

end BehaviorTree
