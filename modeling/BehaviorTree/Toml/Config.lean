import BehaviorTree.Config
import BehaviorTree.Toml.Document

/-!
# Configuration in TOML

A configuration file sets `default_cascade` and the table `brain` with `think_every_ticks` and
`think_offset_ticks`.  Whatever it leaves out has its standard value, and keys that it does not
know are ignored, as long as their values can be represented at all.  The table may also be given
as an array of its values in order; what the array holds beyond them is never looked at.
-/

namespace BehaviorTree

open Toml

namespace Toml.Value

mutual

/-- Whether a value can be represented: an integer that is one, in 128 bits, signed or unsigned, and
a finite number in 64 bits without becoming infinite. -/
def isRepresentable : Value → Bool
  | integer (some n) => -(Nat.pow 2 127 : Int) ≤ n && n < Nat.pow 2 128
  | integer none => false
  | decimal d =>
    match (Binary64.nearest d).datum with
    | .infinity _ => false
    | _ => true
  | array items => areRepresentable items
  | tables earlier last => areRepresentable earlier && entriesRepresentable last
  | table _ entries => entriesRepresentable entries
  | _ => true

/-- Whether every value of a list can be represented. -/
def areRepresentable : List Value → Bool
  | [] => true
  | v :: vs => isRepresentable v && areRepresentable vs

/-- Whether the value of every entry can be represented. -/
def entriesRepresentable : List (String × Value) → Bool
  | [] => true
  | (_, v) :: es => isRepresentable v && entriesRepresentable es

end

/-- A number of ticks. -/
def uint32? : Value → Option UInt32
  | integer (some n) => if 0 ≤ n ∧ n < UInt32.size then some n.toNat.toUInt32 else none
  | _ => none

def bool? : Value → Option Bool
  | boolean b => some b
  | _ => none

end Toml.Value

namespace Cadence

/-- The cadence after one more entry of its table. -/
def withEntry (c : Cadence) (entry : String × Toml.Value) : Option Cadence :=
  match entry with
  | ("think_every_ticks", v) => v.uint32?.map fun every => { c with every }
  | ("think_offset_ticks", v) => v.uint32?.map fun offset => { c with offset }
  | (_, v) => if v.isRepresentable then some c else none

/-- The cadence that a value gives.  A date or time counts as a table with none of the known
keys. -/
def ofToml? : Toml.Value → Option Cadence
  | .table _ entries => entries.foldlM withEntry everyTick
  | .array [] => some everyTick
  | .array [every] => everyTick.withEntry ("think_every_ticks", every)
  | .array (every :: offset :: _) =>
    [("think_every_ticks", every), ("think_offset_ticks", offset)].foldlM withEntry everyTick
  | .datetime _ => some everyTick
  | _ => none

end Cadence

namespace EngineConfig

/-- The configuration after one more entry of its document. -/
def withEntry (c : EngineConfig) (entry : String × Toml.Value) : Option EngineConfig :=
  match entry with
  | ("default_cascade", v) => v.bool?.map fun defaultCascade => { c with defaultCascade }
  | ("brain", v) => (Cadence.ofToml? v).map fun cadence => { c with cadence }
  | (_, v) => if v.isRepresentable then some c else none

/-- The configuration of a document. -/
def parse? (source : String) : Option EngineConfig :=
  (Toml.parse? source).bind fun entries => entries.foldlM withEntry standard

end EngineConfig

end BehaviorTree
