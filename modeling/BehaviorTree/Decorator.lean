import BehaviorTree.Blackboard
import BehaviorTree.Node

/-!
# Decorators

A decorator wraps at most one child.  Its `DecoratorRule` acts in one of four places:

* when an activation begins: `increment` counts it on the blackboard (`DecoratorRule.onStart`), and
  a gate that is evaluated once is evaluated now;
* before the child is polled: `compare` and `hasValue` are **gates** (`DecoratorRule.gate`), and a
  closed gate is a failure without a poll;
* on the child's result: `invert`, `repeat` and `alwaysSucceed` map it (`DecoratorRule.map`);
* when the activation ends: a failed `reset` clears everything below it
  (`DecoratorRule.resetsOn`).
-/

namespace BehaviorTree

/-- How a gate compares a value with its threshold. -/
inductive CompareOp
  | equal
  | notEqual
  | greater
  | less
  deriving DecidableEq

namespace CompareOp

def apply : CompareOp → Int64 → Int64 → Bool
  | equal, lhs, rhs => lhs == rhs
  | notEqual, lhs, rhs => lhs != rhs
  | greater, lhs, rhs => rhs < lhs
  | less, lhs, rhs => lhs < rhs

def sign : CompareOp → String
  | equal => "=="
  | notEqual => "!="
  | greater => ">"
  | less => "<"

/-- Operators are read by their exact sign. -/
instance : Vocabulary CompareOp where
  members := [equal, notEqual, greater, less]
  name := sign
  ignoresCase := false

end CompareOp

/-- The authored configuration of a decorator. -/
inductive DecoratorRule
  /-- Exchanges success and failure. -/
  | invert
  /-- Polls the child, drops its result and goes on running. -/
  | repeat
  /-- Passes the child through; on failure everything below goes back to idle. -/
  | reset
  /-- Turns failure into success. -/
  | alwaysSucceed
  /-- Lets the child be polled while the integer under `key` compares as asked. -/
  | compare (key : String) (op : CompareOp) (threshold : Int64) (evaluateOnce : Bool)
  /-- Lets the child be polled while `key` holds a value, or holds none if `absent`. -/
  | hasValue (key : String) (absent : Bool) (evaluateOnce : Bool)
  /-- Adds one to the integer under `key` at each activation. -/
  | increment (key : String)
  deriving DecidableEq

namespace DecoratorRule

def tag : DecoratorRule → NodeTag
  | invert => .invert
  | .repeat => .repeat
  | reset => .reset
  | alwaysSucceed => .alwaysSucceed
  | compare .. => .compare
  | hasValue .. => .hasValue
  | increment _ => .increment

/-- Whether the rule lets its child be polled on this blackboard. -/
def gate : DecoratorRule → Blackboard → Bool
  | compare key op threshold _, b => op.apply (b.intOr key 0) threshold
  | hasValue key absent _, b => b.contains key != absent
  | _, _ => true

/-- Whether the gate is evaluated when an activation begins, and not at every poll. -/
def evaluatesOnce : DecoratorRule → Bool
  | compare _ _ _ once => once
  | hasValue _ _ once => once
  | _ => false

/-- Makes a gate evaluate once; no other rule has such a choice. -/
def once : DecoratorRule → DecoratorRule
  | compare key op threshold _ => compare key op threshold true
  | hasValue key absent _ => hasValue key absent true
  | rule => rule

/-- The blackboard once an activation has begun: a counting rule has added one, at most up to the
largest integer. -/
def onStart : DecoratorRule → Blackboard → Blackboard
  | increment key, b => b.set key (.int (saturatingAdd (b.intOr key 0) 1))
  | _, b => b

/-- The decorator's result for the result of its child. -/
def map : DecoratorRule → Status → Status
  | invert, s => s.invert
  | .repeat, _ => .running
  | alwaysSucceed, .failure => .success
  | _, s => s

/-- Whether ending an activation with `status` clears everything below. -/
def resetsOn : DecoratorRule → Status → Bool
  | reset, .failure => true
  | _, _ => false

end DecoratorRule

end BehaviorTree
