import BehaviorTree.Activation
import BehaviorTree.Branch

/-!
# Polling a tree

A running tree is an `Arena`: its nodes in pre-order, each with the positions of its children.  All
nodes share it, so a poll of one is a step from one `World` (arena, blackboard and driver context)
to the next.  `poll` is the single way in which any node is polled:

1. an idle node begins an activation;
2. the node runs: a leaf's hook is called, and any other node polls children and makes a result of
   theirs (`pollRoot`, `pollFrom`, `pollDecorated`);
3. the result is recorded, and a terminal one ends the activation; a failed reset then puts every
   node below it back to idle.

A child is polled only if the reference to it points forward and inside the arena
(`Slot.Forward`), which is why a poll ends on any arena whatever.  In an arena laid out from a
nested tree every reference does, and the `stray` event of a reference that does not never occurs.
-/

namespace BehaviorTree

/-- The nodes of a tree in pre-order. -/
abbrev Arena (L : Type) := List (Slot (Node L))

namespace Arena

variable {L : Type}

def relabel (a : Arena L) (i : Nat) (f : Node L → Node L) : Arena L :=
  a.modify i fun slot => { slot with label := f slot.label }

def relabelAll (a : Arena L) (f : Node L → Node L) : Arena L :=
  a.map fun slot => { slot with label := f slot.label }

/-- Puts every node strictly below a position back to idle. -/
def clearBelow (a : Arena L) (i : Nat) : Arena L :=
  (Slot.below a i).foldl (fun a j => a.relabel j Node.clear) a

end Arena

/-- Everything that a poll may change. -/
structure World (L δ : Type) where
  arena : Arena L
  scene : Scene δ

structure Polled (L δ : Type) where
  status : Status
  world : World L δ
  trace : Trace

/-- A way to poll the node at a position. -/
abbrev Poller (L δ : Type) := Nat → World L δ → Polled L δ

variable {L δ : Type}

namespace Polled

/-- The poll of a reference that leads nowhere: a failure that changes nothing. -/
def stray (i : Nat) (w : World L δ) : Polled L δ := ⟨.failure, w, [.stray i]⟩

/-- The same outcome with earlier events in front. -/
def after (p : Polled L δ) (earlier : Trace) : Polled L δ := { p with trace := earlier ++ p.trace }

end Polled

namespace World

def relabel (w : World L δ) (i : Nat) (f : Node L → Node L) : World L δ :=
  { w with arena := w.arena.relabel i f }

end World

/-! ## The nodes with children -/

/-- The root passes its child through, and succeeds without one. -/
def pollRoot (child : Poller L δ) (children : List Nat) (w : World L δ) : Polled L δ :=
  match children with
  | [] => ⟨.success, w, []⟩
  | c :: _ => child c w

/-- A composite at position `i` polls its remaining children, the first of them the one under the
cursor.

A child that does not produce the outcome the composite advances on gives the composite's result.
One that does is left behind for good: the cursor moves past it, and if a further child remains it
is polled right away by a cascading composite, and left to the next poll by any other. -/
def pollFrom (child : Poller L δ) (i : Nat) (id : NodeId) (kind : CompositeKind) (cascade : Bool) :
    (cursor : Nat) → (remaining : List Nat) → World L δ → Polled L δ
  | _, [], w => ⟨kind.advancesOn, w, []⟩
  | cursor, c :: rest, w =>
    let p := child c w
    if p.status ≠ kind.advancesOn then p
    else
      let w := p.world.relabel i fun n => { n with kind := n.kind.withCursor (cursor + 1) }
      if rest.isEmpty then ⟨kind.advancesOn, w, p.trace⟩
      else if cascade then (pollFrom child i id kind cascade (cursor + 1) rest w).after p.trace
      else ⟨.running, w, p.trace ++ [.advance id]⟩

/-- A decorator with a closed gate fails; any other polls its child, a missing one counting as a
success, and maps the result. -/
def pollDecorated (child : Poller L δ) (rule : DecoratorRule) (cachedGate : Bool)
    (children : List Nat) (w : World L δ) : Polled L δ :=
  if Node.admits rule cachedGate w.scene.board then
    match children with
    | [] => ⟨rule.map .success, w, []⟩
    | c :: _ => let p := child c w; { p with status := rule.map p.status }
  else ⟨.failure, w, []⟩

/-! ## The poll of a node -/

variable [Behavior L δ]

/-- Begins an activation of the node at a position, unless one is under way. -/
def World.activate (w : World L δ) (i : Nat) (n : Node L) : World L δ × Trace :=
  if n.state.started then (w, [])
  else
    let (n, scene, trace) := n.activate w.scene
    ({ arena := w.arena.relabel i fun _ => n, scene }, trace)

/-- Runs the node at a position, which has an activation under way. -/
def run (child : Poller L δ) (i : Nat) (w : World L δ) : Polled L δ :=
  match w.arena[i]? with
  | none => .stray i w
  | some slot =>
    let n := slot.label
    match n.kind with
    | .root => pollRoot child slot.children w
    | .composite kind cascade cursor =>
      pollFrom child i n.id kind cascade cursor (slot.children.drop cursor) w
    | .decorator rule gate => pollDecorated child rule gate slot.children w
    | .leaf l =>
      let (status, l, scene) := Behavior.onUpdate n.id l w.scene
      { status
        world := { arena := w.arena.relabel i fun n => { n with kind := .leaf l }, scene }
        trace := [.hook n.id (.update status)] }

/-- Ends the poll of the node at a position with a status. -/
def World.conclude (w : World L δ) (i : Nat) (status : Status) : World L δ × Trace :=
  match w.arena[i]? with
  | none => (w, [.stray i])
  | some slot =>
    let (n, scene, trace) := slot.label.conclude status w.scene
    let arena := w.arena.relabel i fun _ => n
    let resets := match n.kind with
      | .decorator rule _ => rule.resetsOn status
      | _ => false
    ({ arena := if resets then arena.clearBelow i else arena, scene }, trace)

/-- Polls the node at a position, given a way to poll its children. -/
def pollNode (child : Poller L δ) (i : Nat) (w : World L δ) : Polled L δ :=
  match w.arena[i]? with
  | none => .stray i w
  | some slot =>
    let id := slot.label.id
    let (begun, activation) := w.activate i slot.label
    let p := run child i begun
    let (ended, conclusion) := p.world.conclude i p.status
    { status := p.status
      world := ended
      trace := .enter id :: activation ++ p.trace ++ conclusion ++ [.leave id p.status] }

/-- Polls the node at position `i` of an arena of `n` nodes. -/
def poll (n i : Nat) (w : World L δ) : Polled L δ :=
  pollNode (fun c w => if _hc : Slot.Forward n i c then poll n c w else .stray c w) i w
termination_by n - i
decreasing_by exact Nat.sub_lt_sub_left (Nat.lt_trans _hc.1 _hc.2) _hc.1

end BehaviorTree
