import BehaviorTree.Node

/-!
# Traces: what happens during a poll

A poll answers with a status and changes the world; its `Event`s say in order how it got there.
They are kept apart from the world, so nothing in it can depend on them, and laws about the order
of hooks, about how often a node is polled and about progress are statements on traces.

* `Event.hookCall?` and `hookCalls` keep the calls of leaf hooks, the part of a trace that leaves
  themselves can see.
-/

namespace BehaviorTree

/-- A call of a hook of a leaf. -/
inductive HookCall
  /-- The hook at the beginning of an activation, with whether it was the first one. -/
  | start (first : Bool)
  /-- The hook of a poll, with the status it returned. -/
  | update (result : Status)
  /-- The hook at the end of an activation. -/
  | stop
  deriving DecidableEq

/-- One thing that happens during a poll. -/
inductive Event
  | enter (id : NodeId)
  | start (id : NodeId)
  | hook (id : NodeId) (call : HookCall)
  /-- A composite leaves its next child to the next poll. -/
  | advance (id : NodeId)
  /-- The poll of a node ends with a status. -/
  | leave (id : NodeId) (status : Status)
  /-- A reference leads to no later node of the tree. -/
  | stray (position : Nat)
  deriving DecidableEq

/-- The events of a poll, in order. -/
abbrev Trace := List Event

namespace Event

/-- The hook call that an event is, if it is one. -/
def hookCall? : Event → Option (NodeId × HookCall)
  | hook id call => some (id, call)
  | _ => none

end Event

namespace Trace

/-- The hook calls of a trace, in order. -/
def hookCalls (t : Trace) : List (NodeId × HookCall) := t.filterMap Event.hookCall?

@[simp] theorem hookCalls_nil : hookCalls [] = [] := rfl

@[simp] theorem hookCalls_append (s t : Trace) :
    hookCalls (s ++ t) = hookCalls s ++ hookCalls t := by
  simp [hookCalls]

end Trace

end BehaviorTree
