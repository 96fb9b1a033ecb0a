import BehaviorTree.Leaf
import Std.Data.ExtTreeMap

/-!
# Registries of leaves

A graph names its leaves; a `LeafRegistry` says which leaf a name stands for.  Every leaf made from
a registry is a copy of the registered value, so leaves of different trees share nothing.
-/

namespace BehaviorTree

/-- Leaves by name. -/
structure LeafRegistry (L : Type) where
  entries : Std.ExtTreeMap String L

namespace LeafRegistry

variable {L : Type}

def empty : LeafRegistry L := ⟨∅⟩

/-- Registers a leaf under a name, in place of the one that had it. -/
def register (r : LeafRegistry L) (name : String) (leaf : L) : LeafRegistry L :=
  ⟨r.entries.insert name leaf⟩

/-- The registry of the constant leaves under their own names. -/
def standard (ofConstant : Constant → L) : LeafRegistry L :=
  [Constant.succeed, .fail, .running].foldl (fun r c => r.register c.name (ofConstant c)) empty

def create? (r : LeafRegistry L) (name : String) : Option L := r.entries[name]?

def contains (r : LeafRegistry L) (name : String) : Bool := (r.create? name).isSome

def names (r : LeafRegistry L) : List String := r.entries.toList.map Prod.fst

theorem create?_register (r : LeafRegistry L) (name k : String) (leaf : L) :
    (r.register name leaf).create? k = if name = k then some leaf else r.create? k := by
  simp [register, create?, Std.ExtTreeMap.getElem?_insert]

end LeafRegistry

end BehaviorTree
