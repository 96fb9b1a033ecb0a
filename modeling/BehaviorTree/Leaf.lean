import BehaviorTree.Blackboard
import BehaviorTree.Node

/-!
# Leaves

A leaf is the work at the tip of a tree.  The engine calls three hooks of it: one when an
activation begins, one at every poll, and one right after a poll that ended the activation.  A hook
sees a `Scene`, the blackboard of the tree together with the driver's own context, and it may
change the scene and the leaf's private fields.

* `Behavior L δ` says that the values of `L` are leaves over a driver context `δ`.  Hooks are pure
  functions, so copying a leaf is keeping its value.
* `Constant`, `Condition` and `Action` are ready-made leaves: a constant outcome, a predicate and a
  step function with memory.
-/

namespace BehaviorTree

/-- What a hook sees: the blackboard of its tree and the driver's context. -/
structure Scene (δ : Type) where
  board : Blackboard
  driver : δ

/-- Leaves over a driver context.  Each hook is told the identity of the node. -/
class Behavior (L : Type) (δ : outParam Type) where
  /-- The name in listings and saved graphs. -/
  name : L → String := fun _ => "leaf"
  /-- Called when an activation begins, with whether it is the leaf's first one. -/
  onStart : NodeId → Bool → L → Scene δ → L × Scene δ := fun _ _ leaf scene => (leaf, scene)
  /-- Called at every poll; its status is the result of the poll. -/
  onUpdate : NodeId → L → Scene δ → Status × L × Scene δ
  /-- Called right after a poll that ended the activation. -/
  onStop : NodeId → L → Scene δ → L × Scene δ := fun _ leaf scene => (leaf, scene)

/-! ## Ready-made leaves -/

/-- A leaf with one outcome. -/
inductive Constant
  | succeed
  | fail
  | running
  deriving DecidableEq

namespace Constant

def status : Constant → Status
  | succeed => .success
  | fail => .failure
  | running => .running

def name : Constant → String
  | succeed => "succeed"
  | fail => "fail"
  | running => "running"

instance : Behavior Constant Unit where
  name := name
  onUpdate _ leaf scene := (leaf.status, leaf, scene)

end Constant

/-- A leaf that succeeds while a predicate holds and fails while it does not. -/
structure Condition (δ : Type) where
  name : String
  /-- The predicate on the blackboard and the driver's context. -/
  holds : Blackboard → δ → Bool

instance (δ : Type) : Behavior (Condition δ) δ where
  name := Condition.name
  onUpdate _ leaf scene :=
    (if leaf.holds scene.board scene.driver then .success else .failure, leaf, scene)

/-- A leaf that does one step per poll and remembers a value between polls. -/
structure Action (σ δ : Type) where
  name : String
  memory : σ
  run : NodeId → σ → Scene δ → Status × σ × Scene δ

instance (σ δ : Type) : Behavior (Action σ δ) δ where
  name := Action.name
  onUpdate id leaf scene :=
    let (status, memory, scene) := leaf.run id leaf.memory scene
    (status, { leaf with memory }, scene)

end BehaviorTree
