import BehaviorTree.Proofs.Allocation
import BehaviorTree.Proofs.Registry

/-!
# Laying out blueprints

`Tree.build` lays a blueprint out at once and fills in the identities afterwards.  A builder that
goes through the blueprint does both in one go: it collects the pinned identities, then puts node
after node at the end of the arena, each with the identity that the allocator hands out at that
moment, and tells a node where its children stand once they are there.  In the end it walks the
tree and enters every node in a registry, and the first one whose identity is entered already is
what it complains about.  `Planter.build` is that builder.

* `Planter.Lays` — what such a step adds to the arena, and what it takes from the supply of
  identities.  **`flatten_lays`**: a blueprint is laid out where the arena ends.
* **`Planter.build_eq`** — the builder comes back in time, its counter stays in range, and it builds
  what `Tree.build` does.
* `Blueprint.Grown` — a nested tree has the shape of a blueprint.
* **`Tree.build_planted`** — what `Tree.build` does with any blueprint of fewer than `2 ^ 64` nodes.
-/

namespace BehaviorTree

open Branch

variable {L : Type}

namespace Blueprint

/-! ## What is pinned -/

mutual

/-- The pins of the nodes in pre-order. -/
def pins : Blueprint L → List (Option NodeId)
  | composite pin _ _ children => pin :: pinsAll children
  | decorator pin _ child => pin :: pinsChild child
  | leaf pin _ => [pin]

def pinsAll : List (Blueprint L) → List (Option NodeId)
  | [] => []
  | b :: bs => pins b ++ pinsAll bs

def pinsChild : Option (Blueprint L) → List (Option NodeId)
  | none => []
  | some b => pins b

end

mutual

/-- Collects the pinned identities in pre-order behind those that have been collected before. -/
def collect : Blueprint L → List NodeId → List NodeId
  | composite pin _ _ children, ids => collectAll children (ids ++ pin.toList)
  | decorator pin _ child, ids => collectChild child (ids ++ pin.toList)
  | leaf pin _, ids => ids ++ pin.toList

def collectAll : List (Blueprint L) → List NodeId → List NodeId
  | [], ids => ids
  | b :: bs, ids => collectAll bs (collect b ids)

def collectChild : Option (Blueprint L) → List NodeId → List NodeId
  | none, ids => ids
  | some b, ids => collect b ids

end

/-- The pins of the nodes of a tree with the root, which has none, on top of the blueprint of its
child. -/
def treePins (child : Option (Blueprint L)) : List (Option NodeId) := none :: pinsChild child

/-- The identities that are pinned, in pre-order. -/
def pinned (child : Option (Blueprint L)) : List NodeId := (treePins child).filterMap id

/-- The tree has the nodes of the blueprint, in its shape and as they have been authored. -/
inductive Grown (config : EngineConfig) : Blueprint L → Branch (Node L) → Prop
  | composite {pin : Option NodeId} {kind : CompositeKind} {cascade : Option Bool}
    {children : List (Blueprint L)} {id : NodeId} {ts : List (Branch (Node L))} :
    List.Forall₂ (Grown config) children ts →
    Grown config (.composite pin kind cascade children)
      (.node (.fresh id (.composite kind (cascade.getD config.defaultCascade) 0)) ts)
  | decorator {pin : Option NodeId} {rule : DecoratorRule} {child : Option (Blueprint L)}
    {id : NodeId} {ts : List (Branch (Node L))} :
    List.Forall₂ (Grown config) child.toList ts →
    Grown config (.decorator pin rule child) (.node (.fresh id (.decorator rule false)) ts)
  | leaf {pin : Option NodeId} {l : L} {id : NodeId} :
    Grown config (.leaf pin l) (.node (.fresh id (.leaf l)) [])

end Blueprint

/-! ## The builder -/

namespace Planter

/-- A tree in the making. -/
structure Plot (L : Type) where
  arena : Arena L
  ids : Allocator

/-- Puts a node at the end of the arena and then what is below it, and tells it where its children
stand.  The answer is where the node stands. -/
def plant (time : Nat) (pin : Option NodeId) (kind : NodeKind L)
    (below : Plot L → Except Breakdown (List Nat × Plot L)) (p : Plot L) :
    Except Breakdown (Nat × Plot L) := do
  let (id, ids) ← p.ids.name time pin
  let position := p.arena.length
  let (children, p) ← below ⟨p.arena ++ [⟨.fresh id kind, []⟩], ids⟩
  return (position, ⟨p.arena.modify position fun slot => ⟨slot.label, children⟩, p.ids⟩)

section Build

variable (time : Nat) (config : EngineConfig)

mutual

/-- Puts the nodes of a blueprint at the end of the arena. -/
def flatten : Blueprint L → Plot L → Except Breakdown (Nat × Plot L)
  | .composite pin kind cascade children, p =>
    plant time pin (.composite kind (cascade.getD config.defaultCascade) 0)
      (flattenAll children) p
  | .decorator pin rule child, p => plant time pin (.decorator rule false) (flattenChild child) p
  | .leaf pin l, p => plant time pin (.leaf l) (fun p => .ok ([], p)) p

def flattenAll : List (Blueprint L) → Plot L → Except Breakdown (List Nat × Plot L)
  | [], p => .ok ([], p)
  | b :: bs, p => do
    let (position, p) ← flatten b p
    let (positions, p) ← flattenAll bs p
    return (position :: positions, p)

def flattenChild : Option (Blueprint L) → Plot L → Except Breakdown (List Nat × Plot L)
  | none, p => .ok ([], p)
  | some b, p => do
    let (position, p) ← flatten b p
    return ([position], p)

end

/-- Enters nodes in a registry, one after the other. -/
def register : (order : List (NodeId × Nat)) → (registry : List (NodeId × Nat)) →
    Except GraphError (List (NodeId × Nat))
  | [], registry => .ok registry
  | (id, position) :: order, registry =>
    if (registry.lookup id).isSome then .error (.duplicateId id)
    else register order ((id, position) :: registry)

/-- The template with the given nodes, which are entered in its registry on a walk. -/
def fromArena (a : Arena L) : Except Breakdown (Except GraphError (Tree L)) :=
  match Slot.stackWalk a time [(0, 0)] with
  | none => .error .lost
  | some visited =>
    let order := visited.filterMap fun v => a[v.1]?.map fun slot => (slot.label.id, v.1)
    .ok ((register order []).map fun _ => ⟨a, none, .running⟩)

/-- The template from the blueprint of the root's child. -/
def build (child : Option (Blueprint L)) : Except Breakdown (Except GraphError (Tree L)) := do
  let ids := Allocator.make (Blueprint.collectChild child [])
  let (_, p) ← plant time none .root (flattenChild time config child) ⟨[], ids⟩
  fromArena time p.arena

end Build

/-! ## Filling slots with identities -/

/-- A node of a blueprint that has been laid out: what is pinned, and the kind. -/
abbrev Outlined (L : Type) := Slot (Option NodeId × NodeKind L)

/-- The nodes with identities, those that are not pinned from a supply. -/
def fillSlots (supply : List NodeId) (slots : List (Outlined L)) : Arena L :=
  List.zipWith (fun id slot => ⟨Node.fresh id slot.label.2, slot.children⟩)
    (fillIds (slots.map fun slot => slot.label.1) supply) slots

/-- How many of the nodes have no identity pinned. -/
def vacant (slots : List (Outlined L)) : Nat := vacancies (slots.map fun slot => slot.label.1)

lemma fillSlots_append (supply : List NodeId) (xs ys : List (Outlined L)) :
    fillSlots supply (xs ++ ys) =
      fillSlots supply xs ++ fillSlots (supply.drop (vacant xs)) ys := by
  rw [fillSlots, List.map_append, fillIds_append, List.zipWith_append]
  · rfl
  · simp [Tree.length_fillIds]

lemma length_fillSlots (supply : List NodeId) (slots : List (Outlined L)) :
    (fillSlots supply slots).length = slots.length := by
  simp [fillSlots, Tree.length_fillIds]

lemma vacant_append (xs ys : List (Outlined L)) : vacant (xs ++ ys) = vacant xs + vacant ys := by
  rw [vacant, List.map_append, vacancies_append]
  rfl

/-- A change at the place behind some others. -/
lemma modify_behind {α : Type} (f : α → α) (xs ys : List α) (x : α) :
    (xs ++ x :: ys).modify xs.length f = xs ++ f x :: ys := by
  induction xs with
  | nil => rfl
  | cons y xs ih => simp [ih]

/-! ## Laying out -/

variable {pinned : List NodeId} {limit time : Nat} {α : Type}

/-- Wherever the arena ends, a step of the builder puts the nodes at its end, with identities from
the supply, and gives the answer. -/
def Lays (pinned : List NodeId) (limit : Nat) (step : Plot L → Except Breakdown (α × Plot L))
    (answer : Nat → α) (slots : Nat → List (Outlined L)) : Prop :=
  ∀ (p : Plot L) (supply : List NodeId), p.ids.Supplies pinned limit supply →
    vacant (slots p.arena.length) ≤ supply.length →
    ∃ ids, step p = .ok (answer p.arena.length,
        ⟨p.arena ++ fillSlots supply (slots p.arena.length), ids⟩) ∧
      ids.Supplies pinned limit (supply.drop (vacant (slots p.arena.length)))

/-- The identity of a node is taken from the supply if it is not pinned. -/
lemma supplies_name {a : Allocator} {supply : List NodeId} (h : a.Supplies pinned limit supply)
    (hlimit : limit < UInt64.size) (htime : limit ≤ time) (pin : Option NodeId)
    (hpin : vacancies [pin] ≤ supply.length) :
    ∃ id a', a.name time pin = .ok (id, a') ∧ fillIds [pin] supply = [id] ∧
      a'.Supplies pinned limit (supply.drop (vacancies [pin])) := by
  cases pin with
  | some id => exact ⟨id, a, rfl, rfl, by simpa [vacancies] using h⟩
  | none =>
      cases supply with
      | nil => simp [vacancies] at hpin
      | cons id supply =>
          obtain ⟨a', hdraw, ha'⟩ := h.draw hlimit htime
          exact ⟨id, a', hdraw, rfl, by simpa [vacancies] using ha'⟩

lemma lays_nil : Lays pinned limit (fun p : Plot L => .ok ([], p))
    (fun base => roots base ([] : List (Branch (Option NodeId × NodeKind L))))
    fun base => layoutAll base [] := by
  intro p supply hsupply _
  exact ⟨p.ids, by simp [layoutAll, fillSlots, roots],
    by simpa [layoutAll, vacant, vacancies] using hsupply⟩

/-- Planting a node lays it out with what is below it. -/
lemma Lays.plant {below : Plot L → Except Breakdown (List Nat × Plot L)}
    {ts : List (Branch (Option NodeId × NodeKind L))}
    (h : Lays pinned limit below (fun base => roots base ts) fun base => layoutAll base ts)
    (hlimit : limit < UInt64.size) (htime : limit ≤ time) (pin : Option NodeId)
    (kind : NodeKind L) :
    Lays pinned limit (plant time pin kind below) (fun base => base) fun base =>
      layout base (.node (pin, kind) ts) := by
  intro p supply hsupply hvacant
  set base := p.arena.length with hbase
  set self : Outlined L := ⟨(pin, kind), roots (base + 1) ts⟩
  have hlayout : layout base (.node (pin, kind) ts) = [self] ++ layoutAll (base + 1) ts := rfl
  simp only [hlayout, vacant_append] at hvacant ⊢
  obtain ⟨id, ids, hname, hfill, hids⟩ := supplies_name hsupply hlimit htime pin
    (Nat.le_trans (Nat.le_add_right _ _) hvacant)
  have hself : fillSlots supply [self] = [⟨.fresh id kind, roots (base + 1) ts⟩] := by
    simp only [fillSlots, List.map_singleton, self, hfill]
    rfl
  have hlength : (p.arena ++ [(⟨.fresh id kind, []⟩ : Slot (Node L))]).length = base + 1 := by
    simp [hbase]
  -- what is below the node goes right behind it, with what the node has left of the supply
  have hrest : vacant (layoutAll (base + 1) ts) ≤ (supply.drop (vacancies [pin])).length := by
    rw [List.length_drop]
    exact Nat.le_sub_of_add_le' hvacant
  obtain ⟨ids', hbelow, hids'⟩ := h ⟨p.arena ++ [⟨.fresh id kind, []⟩], ids⟩ _ hids
    (by simpa only [hlength] using hrest)
  simp only [hlength] at hbelow hids'
  refine ⟨ids', ?_, by rwa [List.drop_drop] at hids'⟩
  rw [Planter.plant, hname]
  simp only [bind, Except.bind, hbelow, fillSlots_append, hself]
  -- and the children are recorded where the node stands, which is not the end any more
  rw [List.append_assoc, List.singleton_append, hbase, modify_behind]
  rfl

/-- A step lays out one tree, and then another step lays out those behind it. -/
lemma Lays.cons {first : Plot L → Except Breakdown (Nat × Plot L)}
    {later : Plot L → Except Breakdown (List Nat × Plot L)}
    {t : Branch (Option NodeId × NodeKind L)} {ts : List (Branch (Option NodeId × NodeKind L))}
    (hfirst : Lays pinned limit first (fun base => base) fun base => layout base t)
    (hlater : Lays pinned limit later (fun base => roots base ts) fun base => layoutAll base ts) :
    Lays pinned limit (fun p => do
        let (position, p) ← first p
        let (positions, p) ← later p
        return (position :: positions, p))
      (fun base => roots base (t :: ts)) fun base => layoutAll base (t :: ts) := by
  intro p supply hsupply hvacant
  simp only [layoutAll, vacant_append] at hvacant ⊢
  obtain ⟨ids, hnow, hids⟩ := hfirst p supply hsupply
    (Nat.le_trans (Nat.le_add_right _ _) hvacant)
  have hlength : (p.arena ++ fillSlots supply (layout p.arena.length t)).length =
      p.arena.length + t.size := by
    rw [List.length_append, length_fillSlots, length_layout]
  have hrest : vacant (layoutAll (p.arena.length + t.size) ts) ≤
      (supply.drop (vacant (layout p.arena.length t))).length := by
    rw [List.length_drop]
    exact Nat.le_sub_of_add_le' hvacant
  obtain ⟨ids', hthen, hids'⟩ := hlater
    ⟨p.arena ++ fillSlots supply (layout p.arena.length t), ids⟩ _ hids
    (by simpa only [hlength] using hrest)
  simp only [hlength] at hthen hids'
  refine ⟨ids', ?_, by rwa [List.drop_drop] at hids'⟩
  simp only [bind, Except.bind, hnow, hthen, fillSlots_append, List.append_assoc]
  rfl

mutual

/-- **A blueprint is laid out where the arena ends.** -/
theorem flatten_lays (config : EngineConfig) (hlimit : limit < UInt64.size)
    (htime : limit ≤ time) : ∀ b : Blueprint L,
    Lays pinned limit (flatten time config b) (fun base => base) fun base =>
      layout base (b.outline config)
  | .composite pin kind cascade children =>
      (flattenAll_lays config hlimit htime children).plant hlimit htime pin
        (.composite kind (cascade.getD config.defaultCascade) 0)
  | .decorator pin rule child =>
      (flattenChild_lays config hlimit htime child).plant hlimit htime pin (.decorator rule false)
  | .leaf pin l => lays_nil.plant hlimit htime pin (.leaf l)

theorem flattenAll_lays (config : EngineConfig) (hlimit : limit < UInt64.size)
    (htime : limit ≤ time) : ∀ bs : List (Blueprint L),
    Lays pinned limit (flattenAll time config bs)
      (fun base => roots base (Blueprint.outlineAll config bs)) fun base =>
        layoutAll base (Blueprint.outlineAll config bs)
  | [] => lays_nil
  | b :: bs => (flatten_lays config hlimit htime b).cons (flattenAll_lays config hlimit htime bs)

theorem flattenChild_lays (config : EngineConfig) (hlimit : limit < UInt64.size)
    (htime : limit ≤ time) : ∀ child : Option (Blueprint L),
    Lays pinned limit (flattenChild time config child)
      (fun base => roots base (Blueprint.outlineChild config child)) fun base =>
        layoutAll base (Blueprint.outlineChild config child)
  | none => lays_nil
  | some b => (flatten_lays config hlimit htime b).cons lays_nil

end

/-! ## The registry -/

/-- Entering nodes one after the other fails at the first identity that repeats. -/
lemma register_eq (order registry : List (NodeId × Nat)) :
    register order registry =
      match firstRepeat (registry.map Prod.fst) (order.map Prod.fst) with
      | some id => .error (.duplicateId id)
      | none => .ok (order.reverse ++ registry) := by
  induction order generalizing registry with
  | nil => rfl
  | cons entry order ih =>
      obtain ⟨id, position⟩ := entry
      rw [register, List.map_cons, firstRepeat]
      by_cases hid : id ∈ registry.map Prod.fst
      · have hsome : (registry.lookup id).isSome = true := by
          rw [Option.isSome_iff_ne_none]
          exact fun h => Graph.lookup_eq_none_iff_not_mem.mp h hid
        rw [if_pos hsome, if_pos (by simpa using hid)]
      · have hnone : registry.lookup id = none := Graph.lookup_eq_none_iff_not_mem.mpr hid
        rw [hnone, if_neg (by simp), if_neg (by simpa using hid), ih]
        simp

/-- The walk of a laid out tree ends in time, and what fails is what repeats in the arena. -/
lemma fromArena_layout {a : Arena L} {b : Branch (Node L)} (ha : a = b.layout 0) {time : Nat}
    (htime : b.size < time) : fromArena time a = .ok (Tree.ofArena a) := by
  have hwalk : Slot.stackWalk a time [(0, 0)] = some (Slot.walk a 0 0) := by
    rw [ha]
    exact Slot.stackWalk_eq_walk (Slot.holds_layout b) htime 0
  have hregister := register_eq (Tree.registry ⟨a, none, .running⟩) []
  rw [Tree.map_fst_registry ha] at hregister
  rw [fromArena, hwalk, Tree.ofArena]
  change Except.ok ((register (Tree.registry ⟨a, none, .running⟩) []).map _) = _
  rw [hregister, List.map_nil]
  cases firstRepeat [] (a.map fun slot => slot.label.id) <;> rfl

end Planter

/-! ## The two ways of building -/

namespace Blueprint

mutual

lemma pins_outline (config : EngineConfig) : ∀ b : Blueprint L,
    (b.outline config).labels.map Prod.fst = b.pins
  | composite pin kind cascade children => by
      rw [outline, labels, List.map_cons, pins_outlineAll config children, pins]
  | decorator pin rule child => by
      rw [outline, labels, List.map_cons, pins_outlineChild config child, pins]
  | leaf pin l => rfl

lemma pins_outlineAll (config : EngineConfig) : ∀ bs : List (Blueprint L),
    (labelsAll (outlineAll config bs)).map Prod.fst = pinsAll bs
  | [] => rfl
  | b :: bs => by
      rw [outlineAll, labelsAll, List.map_append, pins_outline config b,
        pins_outlineAll config bs, pinsAll]

lemma pins_outlineChild (config : EngineConfig) : ∀ child : Option (Blueprint L),
    (labelsAll (outlineChild config child)).map Prod.fst = pinsChild child
  | none => rfl
  | some b => by
      rw [outlineChild, labelsAll, labelsAll, List.append_nil, pins_outline config b, pinsChild]

end

mutual

lemma collect_eq : ∀ (b : Blueprint L) (ids : List NodeId),
    b.collect ids = ids ++ b.pins.filterMap id
  | composite pin kind cascade children, ids => by
      rw [collect, collectAll_eq children, pins]
      cases pin <;> simp
  | decorator pin rule child, ids => by
      rw [collect, collectChild_eq child, pins]
      cases pin <;> simp
  | leaf pin l, ids => by cases pin <;> simp [collect, pins]

lemma collectAll_eq : ∀ (bs : List (Blueprint L)) (ids : List NodeId),
    collectAll bs ids = ids ++ (pinsAll bs).filterMap id
  | [], ids => by simp [collectAll, pinsAll]
  | b :: bs, ids => by
      rw [collectAll, collectAll_eq bs, collect_eq b, pinsAll, List.filterMap_append,
        List.append_assoc]

lemma collectChild_eq : ∀ (child : Option (Blueprint L)) (ids : List NodeId),
    collectChild child ids = ids ++ (pinsChild child).filterMap id
  | none, ids => by simp [collectChild, pinsChild]
  | some b, ids => by rw [collectChild, collect_eq b, pinsChild]

end

/-- The nodes of a whole tree before they have identities. -/
def outlined (config : EngineConfig) (child : Option (Blueprint L)) :
    Branch (Option NodeId × NodeKind L) :=
  .node (none, .root) (outlineChild config child)

lemma pins_outlined (config : EngineConfig) (child : Option (Blueprint L)) :
    ((outlined config child).layout 0).map (fun slot => slot.label.1) = treePins child := by
  have hlabels : ((outlined config child).layout 0).map (fun slot => slot.label.1) =
      (outlined config child).labels.map Prod.fst := by
    rw [← map_label_layout 0, List.map_map]
    rfl
  rw [hlabels, outlined, labels, List.map_cons, pins_outlineChild config child]
  rfl

lemma collect_pinned (child : Option (Blueprint L)) : collectChild child [] = pinned child :=
  collectChild_eq child []

end Blueprint

namespace Planter

/-- The arena of the nodes with their identities, whether or not those are distinct. -/
def arena (config : EngineConfig) (child : Option (Blueprint L)) : Arena L :=
  fillSlots (freeIds (Blueprint.treePins child).length (Blueprint.pinned child))
    ((Blueprint.outlined config child).layout 0)

/-- The arena is the one that `Tree.build` makes. -/
lemma build_eq_ofArena (config : EngineConfig) (child : Option (Blueprint L)) :
    Tree.build config child = Tree.ofArena (arena config child) := by
  have hpins := Blueprint.pins_outlined config child
  rw [arena, fillSlots, hpins, Tree.build]
  rw [Blueprint.outlined] at hpins ⊢
  simp only [hpins, assignIds]
  rfl

/-- It is the layout of a nested tree. -/
lemma exists_arena (config : EngineConfig) (child : Option (Blueprint L)) :
    ∃ b : Branch (Node L), arena config child = b.layout 0 ∧
      b.map (fun n => (n.kind, n.state)) =
        (Blueprint.outlined config child).map (fun x => (x.2, NodeState.fresh)) ∧
      b.ids = assignIds (Blueprint.treePins child) := by
  have hpins := Blueprint.pins_outlined config child
  have hlength : (assignIds (Blueprint.treePins child)).length =
      ((Blueprint.outlined config child).layout 0).length := by
    rw [assignIds, Tree.length_fillIds, ← hpins, List.length_map]
  obtain ⟨b, hmap, hb⟩ := exists_layout_zipWith
    (g := fun id (x : Option NodeId × NodeKind L) => Node.fresh id x.2)
    (p := fun n : Node L => (n.kind, n.state)) (q := fun x => (x.2, NodeState.fresh))
    (fun _ _ => rfl) 0 (Blueprint.outlined config child) _ (hlength.trans (length_layout _ _))
  refine ⟨b, ?_, hmap, ?_⟩
  · rw [← hb, arena, fillSlots, hpins]
    rfl
  · rw [← map_id_layout 0 b, ← hb, List.map_zipWith, ← List.map_uncurry_zip_eq_zipWith]
    exact List.map_fst_zip (Nat.le_of_eq hlength)

/-- **The builder does what `Tree.build` does**, in time and with the counter in range. -/
theorem build_eq (config : EngineConfig) (child : Option (Blueprint L)) {time : Nat}
    (hnodes : (Blueprint.treePins child).length < UInt64.size)
    (htime : (Blueprint.treePins child).length < time) :
    build time config child = .ok (Tree.build config child) := by
  obtain ⟨b, hlaid, -, hids⟩ := exists_arena config child
  -- the arena is filled from the supply
  have hvacant : vacant ((Blueprint.outlined config child).layout 0) ≤
      (freeIds (Blueprint.treePins child).length (Blueprint.pinned child)).length := by
    rw [vacant, Blueprint.pins_outlined]
    exact vacancies_le (Nat.le_of_lt hnodes)
  obtain ⟨ids, hplant, -⟩ := (flattenChild_lays config hnodes (Nat.le_of_lt htime) child).plant
    hnodes (Nat.le_of_lt htime) none .root ⟨[], .make (Blueprint.pinned child)⟩ _
    (Allocator.supplies_make (Blueprint.pinned child) _) hvacant
  have hsize : b.size < time := by
    have hlength := congrArg List.length hids
    rw [← map_id_layout 0 b, List.length_map, length_layout, assignIds,
      Tree.length_fillIds] at hlength
    rwa [hlength]
  rw [build, Blueprint.collect_pinned, hplant, build_eq_ofArena]
  exact fromArena_layout hlaid hsize

end Planter

/-! ## What is built -/

namespace Blueprint

mutual

/-- A tree of the shape of a blueprint, with its kinds and untouched, is grown from it. -/
lemma grown_of_map (config : EngineConfig) : ∀ (b : Blueprint L) (t : Branch (Node L)),
    t.map (fun n => (n.kind, n.state)) =
      (b.outline config).map (fun x => (x.2, NodeState.fresh)) → Grown config b t
  | composite pin kind cascade children, .node ⟨id, k, state⟩ ts, h => by
      rw [outline, map_node, map_node, Branch.node.injEq, Prod.mk.injEq] at h
      obtain ⟨⟨rfl, rfl⟩, hts⟩ := h
      exact .composite (grownAll_of_map config children ts hts)
  | decorator pin rule child, .node ⟨id, k, state⟩ ts, h => by
      rw [outline, map_node, map_node, Branch.node.injEq, Prod.mk.injEq] at h
      obtain ⟨⟨rfl, rfl⟩, hts⟩ := h
      exact .decorator (grownChild_of_map config child ts hts)
  | leaf pin l, .node ⟨id, k, state⟩ ts, h => by
      rw [outline, map_node, map_node, Branch.node.injEq, Prod.mk.injEq, List.map_nil,
        List.map_eq_nil_iff] at h
      obtain ⟨⟨rfl, rfl⟩, rfl⟩ := h
      exact .leaf

lemma grownAll_of_map (config : EngineConfig) :
    ∀ (bs : List (Blueprint L)) (ts : List (Branch (Node L))),
      ts.map (fun t => t.map fun n => (n.kind, n.state)) =
        (outlineAll config bs).map (fun t => t.map fun x => (x.2, NodeState.fresh)) →
      List.Forall₂ (Grown config) bs ts
  | [], ts, h => by
      rw [outlineAll, List.map_nil, List.map_eq_nil_iff] at h
      rw [h]
      exact .nil
  | b :: bs, [], h => by simp [outlineAll] at h
  | b :: bs, t :: ts, h => by
      rw [outlineAll, List.map_cons, List.map_cons, List.cons.injEq] at h
      exact .cons (grown_of_map config b t h.1) (grownAll_of_map config bs ts h.2)

lemma grownChild_of_map (config : EngineConfig) :
    ∀ (child : Option (Blueprint L)) (ts : List (Branch (Node L))),
      ts.map (fun t => t.map fun n => (n.kind, n.state)) =
        (outlineChild config child).map (fun t => t.map fun x => (x.2, NodeState.fresh)) →
      List.Forall₂ (Grown config) child.toList ts
  | none, ts, h => by
      rw [outlineChild, List.map_nil, List.map_eq_nil_iff] at h
      rw [h]
      exact .nil
  | some b, [], h => by simp [outlineChild] at h
  | some b, t :: ts, h => by
      rw [outlineChild, List.map_cons, List.map_cons, List.cons.injEq, List.map_nil,
        List.map_eq_nil_iff] at h
      rw [h.2]
      exact .cons (grown_of_map config b t h.1) .nil

end

end Blueprint

namespace Planter

/-- The tree is built unless an identity is pinned twice, and it is grown from the blueprint. -/
lemma exists_built (config : EngineConfig) (child : Option (Blueprint L))
    (hnodes : (Blueprint.treePins child).length < UInt64.size) :
    ∃ id ts, Tree.build config child = (match firstRepeat [] (Blueprint.pinned child) with
        | some id => .error (.duplicateId id)
        | none => .ok (.ofBranch (.node (.fresh id .root) ts))) ∧
      List.Forall₂ (Blueprint.Grown config) child.toList ts ∧
      Allocated (Blueprint.treePins child) (Branch.node (Node.fresh id .root) ts).ids := by
  obtain ⟨⟨⟨id, k, state⟩, ts⟩, harena, hmap, hids⟩ := exists_arena config child
  rw [Blueprint.outlined, map_node, map_node, Branch.node.injEq, Prod.mk.injEq] at hmap
  obtain ⟨⟨rfl, rfl⟩, hts⟩ := hmap
  have hallocated := allocated_assignIds (Nat.le_of_lt hnodes)
  rw [← hids] at hallocated
  refine ⟨id, ts, ?_, Blueprint.grownChild_of_map config child ts hts, hallocated⟩
  rw [build_eq_ofArena, Tree.ofArena, harena, map_id_layout, hids,
    firstRepeat_assignIds (Nat.le_of_lt hnodes)]
  rfl

end Planter

namespace Tree

/-- What comes of building a tree from the blueprint of the root's child. -/
structure Planted (config : EngineConfig) (child : Option (Blueprint L)) : Prop where
  /-- Going through the blueprint node by node comes to the same: no search for a free identity goes
  on for longer than there are nodes, and the counter stays in range. -/
  builds : ∀ time, (Blueprint.treePins child).length < time →
    Planter.build time config child = .ok (Tree.build config child)
  succeeds : (∃ t, Tree.build config child = .ok t) ↔ (Blueprint.pinned child).Nodup
  /-- What is complained about is the first node whose pin occurs in front of it. -/
  fails : ∀ error, Tree.build config child = .error error → ∃ pre id post,
    Blueprint.pinned child = pre ++ id :: post ∧ pre.Nodup ∧ id ∈ pre ∧ error = .duplicateId id
  /-- The tree is the root with the blueprint below it, laid out in pre-order, and its identities
  are the pinned ones and the smallest of the others. -/
  tree : ∀ t, Tree.build config child = .ok t → ∃ id ts,
    t = ofBranch (.node (.fresh id .root) ts) ∧
      List.Forall₂ (Blueprint.Grown config) child.toList ts ∧
      Allocated (Blueprint.treePins child) (Branch.node (Node.fresh id .root) ts).ids

/-- **Building a tree from a blueprint** of fewer than `2 ^ 64` nodes.  It succeeds exactly if the
pinned identities are distinct, and otherwise names the first node in pre-order whose identity
occurred before.  The tree is the blueprint below a root, laid out in pre-order, where composites
take the flag of the configuration if they have none.  Pinned nodes keep their identities, and the
others have, in pre-order and with the root first, the smallest numbers that are pinned nowhere.
Handing them out one by one comes back with the same tree. -/
theorem build_planted (config : EngineConfig) (child : Option (Blueprint L))
    (hnodes : (Blueprint.treePins child).length < UInt64.size) : Planted config child := by
  obtain ⟨id, ts, hbuild, hgrown, hallocated⟩ := Planter.exists_built config child hnodes
  cases hfirst : firstRepeat [] (Blueprint.pinned child) with
  | none =>
      have hnodup := (firstRepeat_eq_none_iff.mp hfirst).1
      rw [hfirst] at hbuild
      refine ⟨fun time htime => Planter.build_eq config child hnodes htime, ?_, ?_, ?_⟩
      · exact iff_of_true ⟨_, hbuild⟩ hnodup
      · intro error herror
        rw [hbuild] at herror
        cases herror
      · intro t ht
        rw [hbuild, Except.ok.injEq] at ht
        exact ⟨id, ts, ht.symm, hgrown, hallocated⟩
  | some twice =>
      obtain ⟨pre, post, hsplit, hpre, htwice⟩ := exists_of_firstRepeat hfirst
      have hfront := htwice.resolve_left List.not_mem_nil
      rw [hfirst] at hbuild
      refine ⟨fun time htime => Planter.build_eq config child hnodes htime, ?_, ?_, ?_⟩
      · refine iff_of_false ?_ fun hnodup => ?_
        · rintro ⟨t, ht⟩
          rw [hbuild] at ht
          cases ht
        · rw [hsplit] at hnodup
          exact (List.nodup_append.mp hnodup).2.2 _ hfront _ List.mem_cons_self rfl
      · intro error herror
        rw [hbuild, Except.error.injEq] at herror
        exact ⟨pre, twice, post, hsplit, (firstRepeat_eq_none_iff.mp hpre).1, hfront, herror.symm⟩
      · intro t ht
        rw [hbuild] at ht
        cases ht

/-- A sequence with pins at its first and its last child, which leave the root the number two; and
one in which the first pin is repeated deep below, behind a pin that is repeated later. -/
theorem build_planted_pins :
    let config : EngineConfig := ⟨false, .everyTick⟩
    let child : Option (Blueprint Constant) := some (.sequence [
      .leaf (some ⟨1⟩) .succeed,
      .decorate .invert (.leaf none .fail),
      .composite (some ⟨0⟩) .selector (some true) []])
    let twice : Option (Blueprint Constant) := some (.sequence [
      .leaf (some ⟨7⟩) .succeed,
      .leaf (some ⟨8⟩) .succeed,
      .decorate .invert (.leaf (some ⟨8⟩) .fail),
      .leaf (some ⟨7⟩) .succeed])
    (Blueprint.treePins child).length < UInt64.size ∧
      Tree.build config child = .ok (ofBranch (.node (.fresh ⟨2⟩ .root)
        [.node (.fresh ⟨3⟩ (.composite .sequence false 0))
          [.node (.fresh ⟨1⟩ (.leaf .succeed)) [],
          .node (.fresh ⟨4⟩ (.decorator .invert false)) [.node (.fresh ⟨5⟩ (.leaf .fail)) []],
          .node (.fresh ⟨0⟩ (.composite .selector true 0)) []]])) ∧
      Planted config child ∧
      (Blueprint.treePins twice).length < UInt64.size ∧
      Tree.build config twice = .error (.duplicateId ⟨8⟩) ∧ Planted config twice := by
  exact ⟨by decide +kernel, rfl, build_planted _ _ (by decide +kernel), by decide +kernel, rfl,
    build_planted _ _ (by decide +kernel)⟩

end Tree

end BehaviorTree
