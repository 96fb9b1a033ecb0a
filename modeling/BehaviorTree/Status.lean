import BehaviorTree.Vocabulary

/-!
# Statuses

A poll of a node answers with a `Status`.  `running` hands control back to the parent and asks for
another poll; `success` and `failure` are **terminal** and end the node's activation.
-/

namespace BehaviorTree

/-- The result of polling a node. -/
inductive Status
  /-- Not finished: the node wants to be polled again. -/
  | running
  | success
  | failure
  deriving DecidableEq

namespace Status

/-- Every node and every tree starts out as `running`. -/
instance : Inhabited Status := ⟨running⟩

/-- Whether the node wants another poll. -/
def isRunning : Status → Bool
  | running => true
  | _ => false

def isSuccess : Status → Bool
  | success => true
  | _ => false

def isFailure : Status → Bool
  | failure => true
  | _ => false

/-- Whether the status ends an activation. -/
def isTerminal (s : Status) : Bool := !s.isRunning

/-- Exchanges success and failure; `running` stays. -/
def invert : Status → Status
  | running => running
  | success => failure
  | failure => success

def name : Status → String
  | running => "running"
  | success => "success"
  | failure => "failure"

/-- Status names are read without regard to case. -/
instance : Vocabulary Status where
  members := [running, success, failure]
  name := name
  ignoresCase := true

@[simp] theorem invert_invert (s : Status) : s.invert.invert = s := by
  cases s <;> rfl

@[simp] theorem isRunning_invert (s : Status) : s.invert.isRunning = s.isRunning := by
  cases s <;> rfl

theorem isRunning_iff {s : Status} : s.isRunning = true ↔ s = running := by
  cases s <;> simp [isRunning]

theorem isTerminal_eq_false_iff {s : Status} : s.isTerminal = false ↔ s = running := by
  cases s <;> simp [isTerminal, isRunning]

end Status

end BehaviorTree
