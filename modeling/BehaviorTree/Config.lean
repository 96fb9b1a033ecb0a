/-!
# Configuration

A `Cadence` says on which ticks of its driver an agent thinks: those at which tick and offset add
up to a multiple of the interval.  `Cadence.staggered` gives agents with consecutive numbers
consecutive offsets, so that they share out the ticks of an interval among them.

An `EngineConfig` holds the defaults of a program: the cascade flag of composites that carry none
of their own, and the cadence of its agents.
-/

namespace BehaviorTree

/-- On which ticks an agent thinks. -/
structure Cadence where
  /-- The interval between thoughts; zero counts as one. -/
  every : UInt32
  /-- What is added to a tick before it is compared with the interval. -/
  offset : UInt32
  deriving DecidableEq

/-- What can go wrong when a cadence is asked about a tick. -/
inductive CadenceError
  /-- Tick and offset add up to more than the largest 64-bit number. -/
  | overflow
  deriving DecidableEq

namespace CadenceError

def message : CadenceError → String
  | overflow => "attempt to add with overflow"

end CadenceError

namespace Cadence

def everyTick : Cadence := ⟨1, 0⟩

/-- The interval in effect: never zero. -/
def interval (c : Cadence) : Nat := max c.every.toNat 1

/-- The cadence of the agent with a stable number, offset by that number within the interval. -/
def staggered (stableId : UInt64) (every : UInt32) : Cadence :=
  let every := max every 1
  ⟨every, (stableId % every.toUInt64).toUInt32⟩

/-- Whether an agent thinks on a tick.  The sum of tick and offset has to be a 64-bit number. -/
def thinksOn (c : Cadence) (tick : UInt64) : Except CadenceError Bool :=
  let sum := tick.toNat + c.offset.toNat
  if sum < UInt64.size then .ok (sum % c.interval == 0) else .error .overflow

end Cadence

/-- The defaults applied when trees are built. -/
structure EngineConfig where
  /-- The cascade flag of composites that carry none. -/
  defaultCascade : Bool
  /-- The cadence of agents. -/
  cadence : Cadence
  deriving DecidableEq

namespace EngineConfig

/-- Composites cascade, and agents think on every tick. -/
def standard : EngineConfig := ⟨true, .everyTick⟩

end EngineConfig

end BehaviorTree
