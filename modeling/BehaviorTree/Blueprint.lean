import BehaviorTree.Config
import BehaviorTree.Tree

/-!
# Blueprints: trees authored in code

A `Blueprint` describes a node and everything below it.  `Tree.build` puts a root on top of it and
lays it out, after giving an identity to every node that has none **pinned**.

* Unpinned nodes, taken in pre-order with the root first, receive the smallest numbers that are
  pinned nowhere in the blueprint, in increasing order (`assignIds`).
* The only way to fail is to pin one identity twice; the error names the first node in pre-order
  whose identity occurred before.
-/

namespace BehaviorTree

/-- An authored node with everything below it. -/
inductive Blueprint (L : Type)
  /-- A composite, its cascade flag left to the configuration unless given. -/
  | composite (id : Option NodeId) (kind : CompositeKind) (cascade : Option Bool)
      (children : List (Blueprint L))
  | decorator (id : Option NodeId) (rule : DecoratorRule) (child : Option (Blueprint L))
  | leaf (id : Option NodeId) (leaf : L)

namespace Blueprint

variable {L : Type}

def sequence (children : List (Blueprint L)) : Blueprint L :=
  composite none .sequence none children

def selector (children : List (Blueprint L)) : Blueprint L :=
  composite none .selector none children

def decorate (rule : DecoratorRule) (child : Blueprint L) : Blueprint L :=
  decorator none rule (some child)

/-- A gate that compares the integer under a key with a threshold at every poll. -/
def compare (key : String) (op : CompareOp) (threshold : Int64) (child : Blueprint L) :
    Blueprint L :=
  decorate (.compare key op threshold false) child

/-- A gate that is open while a key holds a value. -/
def hasValue (key : String) (child : Blueprint L) : Blueprint L :=
  decorate (.hasValue key false false) child

/-- A gate that is open while a key holds no value. -/
def lacksValue (key : String) (child : Blueprint L) : Blueprint L :=
  decorate (.hasValue key true false) child

/-- Counts activations under a key. -/
def increment (key : String) (child : Blueprint L) : Blueprint L := decorate (.increment key) child

/-- Pins the identity of the node. -/
def withId (id : NodeId) : Blueprint L → Blueprint L
  | composite _ kind cascade children => composite (some id) kind cascade children
  | decorator _ rule child => decorator (some id) rule child
  | leaf _ l => leaf (some id) l

/-- Sets the cascade flag of a composite; other nodes have none. -/
def withCascade (cascade : Bool) : Blueprint L → Blueprint L
  | composite id kind _ children => composite id kind (some cascade) children
  | b => b

/-- Makes a gate evaluate once per activation; other nodes stay as they are. -/
def evaluatedOnce : Blueprint L → Blueprint L
  | decorator id rule child => decorator id rule.once child
  | b => b

mutual

/-- The nested tree of a blueprint: at each node the pinned identity and the kind. -/
def outline (config : EngineConfig) : Blueprint L → Branch (Option NodeId × NodeKind L)
  | composite id kind cascade children =>
    .node (id, .composite kind (cascade.getD config.defaultCascade) 0)
      (outlineAll config children)
  | decorator id rule child => .node (id, .decorator rule false) (outlineChild config child)
  | leaf id l => .node (id, .leaf l) []

def outlineAll (config : EngineConfig) :
    List (Blueprint L) → List (Branch (Option NodeId × NodeKind L))
  | [] => []
  | b :: bs => outline config b :: outlineAll config bs

def outlineChild (config : EngineConfig) :
    Option (Blueprint L) → List (Branch (Option NodeId × NodeKind L))
  | none => []
  | some b => [outline config b]

end

end Blueprint

/-- The numbers below `n`, as identities, that are not among the pinned ones. -/
def freeIds (n : Nat) (pinned : List NodeId) : List NodeId :=
  ((List.range n).map fun k => NodeId.mk k.toUInt64).filter fun id => !pinned.contains id

/-- Fills the places that have no identity from a supply, in order.  Every place is filled: past the
end of the supply with zero, which is then an identity that occurs again. -/
def fillIds : (pins : List (Option NodeId)) → (supply : List NodeId) → List NodeId
  | [], _ => []
  | some id :: pins, supply => id :: fillIds pins supply
  | none :: pins, id :: supply => id :: fillIds pins supply
  | none :: pins, [] => ⟨0⟩ :: fillIds pins []

/-- The identities of nodes with the given pins: among the first `n` numbers at least as many are
free as `n` nodes have places to fill. -/
def assignIds (pins : List (Option NodeId)) : List NodeId :=
  fillIds pins (freeIds pins.length (pins.filterMap id))

namespace Tree

variable {L : Type}

/-- A template from the blueprint of the root's child. -/
def build (config : EngineConfig) (child : Option (Blueprint L)) : Except GraphError (Tree L) :=
  let outline : Branch (Option NodeId × NodeKind L) :=
    .node (none, .root) (Blueprint.outlineChild config child)
  let slots := outline.layout 0
  let ids := assignIds (slots.map fun slot => slot.label.1)
  ofArena <| List.zipWith (fun id slot => ⟨Node.fresh id slot.label.2, slot.children⟩) ids slots

end Tree

end BehaviorTree
