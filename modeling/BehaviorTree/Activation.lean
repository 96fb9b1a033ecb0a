import BehaviorTree.Composite
import BehaviorTree.Decorator
import BehaviorTree.Leaf
import BehaviorTree.Trace

/-!
# Activations of a single node

A `Node` is what stands at one place of a tree: its identity, its `NodeKind` with the fields that
execution changes (the cursor of a composite, the cached gate of a decorator, the private fields of
a leaf), and its `NodeState`.  This file holds what concerns one node alone: how an activation of it
begins (`Node.activate`), how a poll of it ends (`Node.conclude`), and how it is put back
(`Node.rearm`, `Node.pristine`).  How nodes poll each other is in `BehaviorTree.Poll`.
-/

namespace BehaviorTree

/-- The kind of a node, with the fields that execution changes. -/
inductive NodeKind (L : Type)
  /-- The root, with at most one child. -/
  | root
  /-- A composite, and how many of its children have been left behind. -/
  | composite (kind : CompositeKind) (cascade : Bool) (cursor : Nat)
  /-- A decorator with at most one child, and the gate evaluated when its activation began. -/
  | decorator (rule : DecoratorRule) (cachedGate : Bool)
  | leaf (leaf : L)

namespace NodeKind

variable {L : Type}

def tag : NodeKind L → NodeTag
  | root => .root
  | composite .sequence _ _ => .sequence
  | composite .selector _ _ => .selector
  | decorator rule _ => rule.tag
  | leaf _ => .leaf

def isRoot : NodeKind L → Bool
  | root => true
  | _ => false

/-- The kind of a copy, made anew from what is static: a composite is at its first child, and a
decorator has evaluated no gate.  A leaf is copied with its private fields. -/
def duplicate : NodeKind L → NodeKind L
  | root => root
  | composite kind cascade _ => composite kind cascade 0
  | decorator rule _ => decorator rule false
  | leaf l => leaf l

/-- The kind with the cursor and the cached gate as they were before any activation. -/
def rewind : NodeKind L → NodeKind L
  | composite kind cascade _ => composite kind cascade 0
  | decorator rule _ => decorator rule false
  | kind => kind

/-- A copy starts out as rearming leaves the node. -/
theorem duplicate_eq_rewind (kind : NodeKind L) : kind.duplicate = kind.rewind := by
  cases kind <;> rfl

def cursor? : NodeKind L → Option Nat
  | composite _ _ cursor => some cursor
  | _ => none

def cachedGate? : NodeKind L → Option Bool
  | decorator _ gate => some gate
  | _ => none

/-- A composite's kind with its cursor moved; other kinds have none. -/
def withCursor (cursor : Nat) : NodeKind L → NodeKind L
  | composite kind cascade _ => composite kind cascade cursor
  | kind => kind

def leafName? {δ : Type} [Behavior L δ] : NodeKind L → Option String
  | leaf l => some (Behavior.name l)
  | _ => none

end NodeKind

/-- What stands at one place of a tree. -/
structure Node (L : Type) where
  id : NodeId
  kind : NodeKind L
  state : NodeState

namespace Node

variable {L δ : Type}

/-- A node that has never been polled. -/
def fresh (id : NodeId) (kind : NodeKind L) : Node L := ⟨id, kind, .fresh⟩

/-- The node as a copy of its tree starts out with it: a duplicate, idle and never activated. -/
def pristine (n : Node L) : Node L := { n with kind := n.kind.duplicate, state := .fresh }

/-- Back to idle; cursor, cached gate and count stay. -/
def clear (n : Node L) : Node L := { n with state := n.state.clear }

/-- Back to idle and rewound; the count stays. -/
def rearm (n : Node L) : Node L := { n with kind := n.kind.rewind, state := n.state.clear }

/-- Whether a decorator lets its child be polled on this blackboard: by the gate cached when its
activation began if it is evaluated once, and by the gate now otherwise. -/
def admits (rule : DecoratorRule) (cachedGate : Bool) (board : Blackboard) : Bool :=
  if rule.evaluatesOnce then cachedGate else rule.gate board

variable [Behavior L δ]

/-- Begins an activation.  A composite goes back to its first child, a counting decorator counts,
a gate evaluated once is evaluated after that, and a leaf's hook is told whether this is its first
activation. -/
def activate (n : Node L) (scene : Scene δ) : Node L × Scene δ × Trace :=
  let state := n.state.activate
  match n.kind with
  | .root => ({ n with state }, scene, [.start n.id])
  | .composite kind cascade _ =>
    ({ n with kind := .composite kind cascade 0, state }, scene, [.start n.id])
  | .decorator rule gate =>
    let board := rule.onStart scene.board
    let gate := if rule.evaluatesOnce then rule.gate board else gate
    ({ n with kind := .decorator rule gate, state }, { scene with board }, [.start n.id])
  | .leaf l =>
    let first := n.state.activations == 0
    let (l, scene) := Behavior.onStart n.id first l scene
    ({ n with kind := .leaf l, state }, scene, [.start n.id, .hook n.id (.start first)])

/-- Ends a poll: its result is recorded, and a terminal one ends the activation, where a leaf's
hook is called first. -/
def conclude (n : Node L) (status : Status) (scene : Scene δ) : Node L × Scene δ × Trace :=
  let state := n.state.record status
  if status.isTerminal then
    match n.kind with
    | .leaf l =>
      let (l, scene) := Behavior.onStop n.id l scene
      ({ n with kind := .leaf l, state := state.finish }, scene, [.hook n.id .stop])
    | _ => ({ n with state := state.finish }, scene, [])
  else ({ n with state }, scene, [])

end Node

end BehaviorTree
