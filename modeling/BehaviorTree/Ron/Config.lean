import BehaviorTree.Config
import BehaviorTree.Ron.Document
import BehaviorTree.Ron.Reader

/-!
# Configuration in RON

A configuration and a cadence are records, in which every field may be left out and then has its
standard value.
-/

namespace BehaviorTree

open Ron

namespace Cadence

def document (c : Cadence) : Document :=
  .record none [("think_every_ticks", .int c.every.toNat),
    ("think_offset_ticks", .int c.offset.toNat)]

def field (name : String) :
    Option (Option UInt32 × Option UInt32 → Reader (Option UInt32 × Option UInt32)) :=
  match name with
  | "think_every_ticks" => some fun r => Reader.once r.1 Reader.uint32 fun v => (some v, r.2)
  | "think_offset_ticks" => some fun r => Reader.once r.2 Reader.uint32 fun v => (r.1, some v)
  | _ => none

def reader : Reader Cadence := do
  let (every, offset) ← Reader.record "BrainConfig" field (none, none)
  return ⟨every.getD everyTick.every, offset.getD everyTick.offset⟩

end Cadence

namespace EngineConfig

def document (c : EngineConfig) : Document :=
  .record none [("default_cascade", .bool c.defaultCascade), ("brain", c.cadence.document)]

def field (name : String) :
    Option (Option Bool × Option Cadence → Reader (Option Bool × Option Cadence)) :=
  match name with
  | "default_cascade" => some fun r => Reader.once r.1 Reader.bool fun v => (some v, r.2)
  | "brain" => some fun r => Reader.once r.2 Cadence.reader fun v => (r.1, some v)
  | _ => none

def reader : Reader EngineConfig := do
  let (cascade, cadence) ← Reader.record "EngineConfig" field (none, none)
  return ⟨cascade.getD standard.defaultCascade, cadence.getD standard.cadence⟩

end EngineConfig

end BehaviorTree
