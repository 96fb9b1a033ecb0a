import BehaviorTree.GraphError
import BehaviorTree.Poll

/-!
# Trees: templates and instances

A `Tree` is an arena whose first node is the root, the blackboard it was given when it was started,
and the cached result of its latest poll.  A tree that has not been started is a **template**;
`Tree.instantiate` makes a private instance of it, `Tree.start` gives the instance its blackboard,
and `Tree.update` polls it, for as long as its cached result is `running`.

* `Tree.halt` cancels a run: the cached result becomes a failure and no hook is called.
* `Tree.rearm` puts every node back to idle, so that a finished or halted tree can run again.
* `Tree.views`, `Tree.viewsFrom?`, `Tree.childIds` and `Tree.snapshot` are what tools read.
-/

namespace BehaviorTree

/-- What a tree may be asked for at the wrong time. -/
inductive Misuse
  /-- A start of a tree that has been started. -/
  | startedTwice
  /-- An update of a tree that has not been started. -/
  | notStarted
  deriving DecidableEq

namespace Misuse

def message : Misuse → String
  | startedTwice => "behavior tree instance started twice"
  | notStarted => "behavior tree updated before start"

end Misuse

/-- A behavior tree, template or instance. -/
structure Tree (L : Type) where
  /-- The nodes in pre-order, the root first. -/
  arena : Arena L
  /-- The blackboard, which a tree has once it has been started. -/
  board : Option Blackboard
  /-- The cached result of the tree. -/
  state : Status

/-- What a tool sees of a node. -/
structure View where
  id : NodeId
  index : Nat
  tag : NodeTag
  state : NodeState
  name : Option String
  /-- How far below the start of the walk the node stands. -/
  depth : Nat

/-- A position in running text: `@3`. -/
def View.position (v : View) : String := "@" ++ toString v.index

/-- Everything that the engine records about a node; private fields of leaves are not part of it. -/
structure Snapshot where
  id : NodeId
  tag : NodeTag
  state : NodeState
  cursor : Option Nat
  cachedGate : Option Bool
  deriving DecidableEq

structure Updated (L δ : Type) where
  status : Status
  tree : Tree L
  driver : δ
  trace : Trace

namespace Tree

variable {L δ : Type}

/-! ## Making trees -/

/-- The template with the given nodes, whose identities have to be distinct. -/
def ofArena (arena : Arena L) : Except GraphError (Tree L) :=
  match firstRepeat [] (arena.map fun slot => slot.label.id) with
  | some id => .error (.duplicateId id)
  | none => .ok ⟨arena, none, .running⟩

/-- The template laid out from a nested tree. -/
def ofBranch (t : Branch (Node L)) : Tree L := ⟨t.layout 0, none, .running⟩

/-- The nested tree, read off the arena from the root down. -/
def branch? (t : Tree L) : Option (Branch (Node L)) :=
  if h : 0 < t.arena.length then some (Slot.branchAt t.arena 0 h) else none

/-- A private copy in the state of a template: the nested tree with every node pristine, laid out
afresh.  Leaves keep their private fields. -/
def instantiate (t : Tree L) : Tree L :=
  match t.branch? with
  | some b => ofBranch (b.map Node.pristine)
  | none => ⟨[], none, .running⟩

/-! ## Running -/

def isStarted (t : Tree L) : Bool := t.board.isSome

/-- Gives an instance its blackboard; an instance is started once. -/
def start (t : Tree L) : Except Misuse (Tree L) :=
  match t.board with
  | some _ => .error .startedTwice
  | none => .ok { t with board := some .empty }

/-- Polls a started tree once.  A tree whose cached result is terminal is inert: it answers with
that result, and nothing happens. -/
def update [Behavior L δ] (t : Tree L) (driver : δ) : Except Misuse (Updated L δ) :=
  match t.board with
  | none => .error .notStarted
  | some board =>
    if t.state.isTerminal then .ok ⟨t.state, t, driver, []⟩
    else
      let p := poll t.arena.length 0 ⟨t.arena, ⟨board, driver⟩⟩
      .ok ⟨p.status, ⟨p.world.arena, some p.world.scene.board, p.status⟩, p.world.scene.driver,
        p.trace⟩

/-- Cancels the run: the cached result becomes a failure.  Nodes keep their state, and no hook is
called. -/
def halt (t : Tree L) : Tree L := { t with state := .failure }

/-- Makes the tree ready to run again: every node is idle and rewound.  Counts of activations, the
blackboard and the private fields of leaves stay. -/
def rearm (t : Tree L) : Tree L :=
  { t with arena := t.arena.relabelAll Node.rearm, state := .running }

/-- Edits the blackboard, if the tree has one. -/
def editBoard (t : Tree L) (f : Blackboard → Blackboard) : Tree L :=
  { t with board := t.board.map f }

/-! ## Looking at trees -/

def size (t : Tree L) : Nat := t.arena.length

/-- Whether the root has no child. -/
def isEmpty (t : Tree L) : Bool := t.size == 1

def indexOf? (t : Tree L) (id : NodeId) : Option Nat :=
  t.arena.findIdx? fun slot => slot.label.id == id

/-- The identities of the children of a node, in order; none for an unknown node. -/
def childIds (t : Tree L) (id : NodeId) : List NodeId :=
  match t.indexOf? id with
  | none => []
  | some i =>
    match t.arena[i]? with
    | none => []
    | some slot => slot.children.filterMap fun c => t.arena[c]?.map fun s => s.label.id

/-- What the engine records about every node, in pre-order. -/
def snapshot (t : Tree L) : List Snapshot :=
  t.arena.map fun slot =>
    let n := slot.label
    { id := n.id, tag := n.kind.tag, state := n.state,
      cursor := n.kind.cursor?, cachedGate := n.kind.cachedGate? }

/-- One line on the whole tree. -/
def summary (t : Tree L) : String :=
  let state := match t.state with
    | .running => "Running"
    | .success => "Success"
    | .failure => "Failure"
  "Tree \x7b nodes: " ++ toString t.size ++ ", started: " ++ toString t.isStarted ++
    ", state: " ++ state ++ " \x7d"

variable [Behavior L δ]

/-- What a tool sees of the node at a position, at a depth below the start of the walk. -/
def view? (t : Tree L) (position depth : Nat) : Option View :=
  t.arena[position]?.map fun slot =>
    let n := slot.label
    { id := n.id, index := position, tag := n.kind.tag, state := n.state,
      name := n.kind.leafName?, depth }

/-- The nodes below a position in pre-order, the node there first and at depth zero. -/
def viewsAt (t : Tree L) (position : Nat) : List View :=
  (Slot.walk t.arena position 0).filterMap fun (i, depth) => t.view? i depth

def views (t : Tree L) : List View := t.viewsAt 0

/-- The nodes below the node with an identity, in pre-order; nothing for an unknown node. -/
def viewsFrom? (t : Tree L) (id : NodeId) : Option (List View) := (t.indexOf? id).map t.viewsAt

def find? (t : Tree L) (id : NodeId) : Option View := (t.indexOf? id).bind fun i => t.view? i 0

end Tree

end BehaviorTree
