import BehaviorTree.Value
import Std.Data.ExtTreeMap

/-!
# Blackboards

Every running tree owns one `Blackboard`, a map from keys to values that its nodes and its owner
share.  Entries are listed in the order of their keys, which is by code point.

* `get?`, `set`, `remove` and `contains` are the operations of a finite map, and each is pinned down
  by what `get?` answers afterwards.
* `intOr` reads a key the way gates do: coerced to an integer, with a default where the key is
  absent.
-/

namespace BehaviorTree

/-- A finite map from keys to values. -/
structure Blackboard where
  /-- The entries, sorted by key. -/
  entries : Std.ExtTreeMap String Value

namespace Blackboard

def empty : Blackboard := ⟨∅⟩

instance : Inhabited Blackboard := ⟨empty⟩

def get? (b : Blackboard) (key : String) : Option Value := b.entries[key]?

/-- The value under a key, or a default where the key is absent. -/
def getOr (b : Blackboard) (key : String) (default : Value) : Value := (b.get? key).getD default

/-- The value under a key as an integer, or a default where the key is absent. -/
def intOr (b : Blackboard) (key : String) (default : Int64) : Int64 :=
  match b.get? key with
  | some v => v.toInt64
  | none => default

def contains (b : Blackboard) (key : String) : Bool := (b.get? key).isSome

/-- Puts a value under a key, in place of the one it held. -/
def set (b : Blackboard) (key : String) (value : Value) : Blackboard := ⟨b.entries.insert key value⟩

def remove (b : Blackboard) (key : String) : Blackboard := ⟨b.entries.erase key⟩

def size (b : Blackboard) : Nat := b.entries.size

def isEmpty (b : Blackboard) : Bool := b.entries.isEmpty

def toList (b : Blackboard) : List (String × Value) := b.entries.toList

/-- A blackboard from entries, the last one winning where a key occurs again. -/
def ofList (entries : List (String × Value)) : Blackboard :=
  entries.foldl (fun b (key, value) => b.set key value) empty

/-- Equality of blackboards: the same keys, with equal values in the sense of `Value.same`. -/
def same (a b : Blackboard) : Bool :=
  a.toList.map Prod.fst == b.toList.map Prod.fst &&
    Value.sameAll (a.toList.map Prod.snd) (b.toList.map Prod.snd)

/-! ## What a reader sees after each operation -/

@[simp] theorem get?_empty (k : String) : empty.get? k = none := by
  simp [empty, get?]

theorem get?_set (b : Blackboard) (key k : String) (v : Value) :
    (b.set key v).get? k = if key = k then some v else b.get? k := by
  simp [set, get?, Std.ExtTreeMap.getElem?_insert]

theorem get?_remove (b : Blackboard) (key k : String) :
    (b.remove key).get? k = if key = k then none else b.get? k := by
  simp [remove, get?, Std.ExtTreeMap.getElem?_erase]

/-- Two blackboards that answer alike on every key are one. -/
theorem ext {a b : Blackboard} (h : ∀ k, a.get? k = b.get? k) : a = b := by
  cases a; cases b
  simp only [get?] at h
  rw [Std.ExtTreeMap.ext_getElem? h]

end Blackboard

end BehaviorTree
