import BehaviorTree.Proofs.Unfolding

/-!
# The registry and the walks of a tree

The nodes of a tree are found by their identities, and tools see them one after the other.  Both
rest on where the nodes stand: `Tree.Indexed` says what holds of the arena of a tree, and what every
way of looking at the tree answers with.

* `Tree.registry` — the positions of identities, collected on a walk.
  **`Shows.lookup_registry`**: it tells the position of every node, and of nothing else.
* `Tree.Visits` — the views of a walk: the nodes of a stretch one after the other, each with its
  depth.  **`Shows.visits_viewsAt`**: so does a walk from any position go.
* `Tree.Rooted` — the first node is the root, and no other is.  **`Fresh.rooted`**: it comes with
  authoring, from blueprints and from graphs.
* **`Fresh.indexed_performAll`** — all of this holds of every tree, whatever it has been through.
-/

namespace BehaviorTree

open Branch

variable {L δ : Type}

/-! ## The specification -/

namespace Tree

/-- The registry: the identities that a walk over the tree comes across, with their positions. -/
def registry (t : Tree L) : List (NodeId × Nat) :=
  (Slot.walk t.arena 0 0).filterMap fun p => t.arena[p.1]?.map fun slot => (slot.label.id, p.1)

/-- The node at the first position is the root, and no other node is one. -/
def Rooted (t : Tree L) : Prop :=
  ∀ (i : Nat) (slot : Slot (Node L)), t.arena[i]? = some slot →
    (slot.label.kind.isRoot = true ↔ i = 0)

/-- How the nodes of a tree stand in its arena. -/
structure Laid (t : Tree L) : Prop where
  nonempty : 0 < t.size
  rooted : t.Rooted
  /-- Every position but the first is referred to by one node, and once. -/
  referred : (t.arena.flatMap Slot.children).Perm (List.range' 1 (t.size - 1))
  /-- The nodes at or below a position are a stretch that begins with it.  The first child stands
  right behind it, and every further child right behind what is below the one before. -/
  stretch : ∀ (i : Nat) (slot : Slot (Node L)), t.arena[i]? = some slot →
    ∃ hi ≤ t.size, t.arena.Spans i hi ∧ t.arena.Tiles (i + 1) slot.children hi
  ids : (t.arena.map fun slot => slot.label.id).Nodup

/-- What a tool sees is the node at the position. -/
def Displays [Behavior L δ] (t : Tree L) (v : View) : Prop :=
  ∃ slot, t.arena[v.index]? = some slot ∧ v.id = slot.label.id ∧ v.tag = slot.label.kind.tag ∧
    v.state = slot.label.state ∧ v.name = slot.label.kind.leafName?

/-- What a walk from position `i` sees: all that is at or below it, position by position, with the
depths counted from there. -/
structure Visits [Behavior L δ] (t : Tree L) (i hi : Nat) (vs : List View) : Prop where
  stretch : t.arena.Spans i hi
  order : vs.map View.index = List.range' i (hi - i)
  displays : ∀ v ∈ vs, t.Displays v
  depth : ∀ v ∈ vs, ∀ d, t.arena.AtDepth i d v.index ↔ d = v.depth

/-- Where the nodes of a tree stand, and what every way of looking at the tree answers with. -/
structure Indexed [Behavior L δ] (t : Tree L) : Prop extends Laid t where
  /-- The registry tells the position of every node, and of nothing else. -/
  registry : ∀ id i, t.registry.lookup id = some i ↔
    ∃ slot, t.arena[i]? = some slot ∧ slot.label.id = id
  indexOf : ∀ id, t.indexOf? id = t.registry.lookup id
  /-- The loop over a stack of positions ends, it meets no position outside of the arena, and it
  visits what the plain recursion visits. -/
  loop : ∀ i < t.size, ∀ time, t.size < time →
    Slot.stackWalk t.arena time [(i, 0)] = some (Slot.walk t.arena i 0)
  views : t.Visits 0 t.size t.views
  /-- Everything at or below a node is seen from it. -/
  viewsFrom : ∀ (i : Nat) (slot : Slot (Node L)), t.arena[i]? = some slot →
    ∃ hi vs, t.viewsFrom? slot.label.id = some vs ∧ t.Visits i hi vs
  find : ∀ (i : Nat) (slot : Slot (Node L)), t.arena[i]? = some slot →
    ∃ v, t.find? slot.label.id = some v ∧ v.index = i ∧ v.depth = 0 ∧ t.Displays v
  childIds : ∀ (i : Nat) (slot : Slot (Node L)), t.arena[i]? = some slot →
    (t.childIds slot.label.id).map some =
      slot.children.map fun c => t.arena[c]?.map fun s => s.label.id
  /-- Nothing is found under an identity that no node has. -/
  unknown : ∀ id, (∀ slot ∈ t.arena, slot.label.id ≠ id) →
    t.viewsFrom? id = none ∧ t.find? id = none ∧ t.childIds id = []
  isEmpty : t.isEmpty = true ↔ ∃ slot, t.arena[0]? = some slot ∧ slot.children = []

end Tree

/-! ## Lists -/

/-- With distinct keys a lookup finds what is listed. -/
lemma lookup_eq_some_iff_mem {α β : Type} [BEq α] [LawfulBEq α] {xs : List (α × β)} {x : α} {y : β}
    (h : (xs.map Prod.fst).Nodup) : xs.lookup x = some y ↔ (x, y) ∈ xs := by
  rw [List.lookup_eq_some_iff]
  constructor
  · rintro ⟨pre, post, rfl, -⟩
    simp
  · intro hmem
    obtain ⟨pre, post, rfl⟩ := List.append_of_mem hmem
    refine ⟨pre, post, rfl, fun p hp => ?_⟩
    rw [bne_iff_ne]
    rintro rfl
    rw [List.map_append, List.nodup_append'] at h
    exact h.2.2 (List.mem_map_of_mem hp) (by simp)

/-- Reading a list at each of its positions. -/
lemma filterMap_range_getElem? {α β : Type} (f : Nat → α → β) (xs : List α) :
    (List.range xs.length).filterMap (fun i => xs[i]?.map (f i)) = xs.mapIdx f := by
  induction xs using List.reverseRecOn with
  | nil => rfl
  | append_singleton xs x ih =>
      have hcongr : ∀ i ∈ List.range xs.length,
          (xs ++ [x])[i]?.map (f i) = xs[i]?.map (f i) := by
        intro i hi
        rw [List.getElem?_append_left (List.mem_range.mp hi)]
      rw [List.length_append, List.length_singleton, List.range_succ, List.filterMap_append,
        List.filterMap_congr hcongr, ih, List.mapIdx_append]
      simp

/-! ## Where the nodes stand -/

namespace Tree

section Shows

variable {t : Tree L} {b : Branch (Node L)}

lemma Shows.size_eq (h : t.Shows b) : t.size = b.size := by
  rw [Tree.size, h.arena, length_layout]

lemma Shows.holds (h : t.Shows b) : Slot.Holds t.arena 0 b := h.arena ▸ Slot.holds_layout b

lemma Shows.referred (h : t.Shows b) :
    (t.arena.flatMap Slot.children).Perm (List.range' 1 (t.size - 1)) := by
  rw [h.size_eq, h.arena]
  exact children_perm_layout 0 b

lemma Shows.lt_of_refers (h : t.Shows b) {p c : Nat} (hc : t.arena.Refers p c) : p < c := by
  obtain ⟨slot, hslot, hmem⟩ := hc
  obtain ⟨s, -, rfl, -⟩ := h.exists_part hslot
  exact le_of_mem_roots hmem

/-- No two positions refer to one. -/
lemma Shows.eq_of_refers (h : t.Shows b) {p q c : Nat} (hp : t.arena.Refers p c)
    (hq : t.arena.Refers q c) : p = q := by
  have hnodup : (t.arena.flatMap Slot.children).Nodup :=
    (h.referred.nodup_iff).mpr List.nodup_range'
  have hpairwise := List.pairwise_iff_getElem.mp (List.nodup_flatMap.mp hnodup).2
  obtain ⟨slot, hslot, hc⟩ := hp
  obtain ⟨slot', hslot', hc'⟩ := hq
  obtain ⟨hlt, rfl⟩ := List.getElem?_eq_some_iff.mp hslot
  obtain ⟨hlt', rfl⟩ := List.getElem?_eq_some_iff.mp hslot'
  rcases Nat.lt_trichotomy p q with hpq | rfl | hqp
  · exact absurd hc' (hpairwise p q hlt hlt' hpq hc)
  · rfl
  · exact absurd hc (hpairwise q p hlt' hlt hqp hc')

lemma Shows.laid (h : t.Shows b) (hrooted : t.Rooted) : t.Laid where
  nonempty := h.size_eq ▸ b.size_pos
  rooted := hrooted
  referred := h.referred
  stretch i slot hslot := by
    obtain ⟨s, -, rfl, hholds⟩ := h.exists_part hslot
    exact ⟨i + s.size, hholds.le, Arena.spans_of_holds hholds, Arena.tiles_of_holds hholds⟩
  ids := h.nodup_ids

/-! ## The registry -/

/-- The registry has the nodes of a laid out tree in order, whatever their identities. -/
lemma registry_eq_mapIdx (h : t.arena = b.layout 0) :
    t.registry = t.arena.mapIdx fun i slot => (slot.label.id, i) := by
  have hholds : Slot.Holds t.arena 0 b := h ▸ Slot.holds_layout b
  have hsize : t.size = b.size := by rw [Tree.size, h, length_layout]
  rw [← filterMap_range_getElem?, List.range_eq_range', ← Tree.size, hsize,
    ← Slot.walk_of_holds b 0 hholds, List.filterMap_map]
  rfl

lemma map_fst_registry (h : t.arena = b.layout 0) :
    t.registry.map Prod.fst = t.arena.map fun slot => slot.label.id := by
  rw [registry_eq_mapIdx h]
  apply List.ext_getElem?
  intro k
  simp only [List.getElem?_map, List.getElem?_mapIdx]
  cases t.arena[k]? <;> rfl

/-- **The registry tells the position of every node**, and of nothing else. -/
theorem Shows.lookup_registry (h : t.Shows b) (id : NodeId) (i : Nat) :
    t.registry.lookup id = some i ↔ ∃ slot, t.arena[i]? = some slot ∧ slot.label.id = id := by
  have hkeys := map_fst_registry h.arena
  rw [lookup_eq_some_iff_mem (hkeys ▸ h.nodup_ids), registry_eq_mapIdx h.arena,
    List.mem_iff_getElem?]
  simp only [List.getElem?_mapIdx, Option.map_eq_some_iff, Prod.mk.injEq]
  constructor
  · rintro ⟨k, slot, hslot, hid, rfl⟩
    exact ⟨slot, hslot, hid⟩
  · rintro ⟨slot, hslot, hid⟩
    exact ⟨i, slot, hslot, hid, rfl⟩

lemma Shows.indexOf?_eq_some_iff (h : t.Shows b) {id : NodeId} {i : Nat} :
    t.indexOf? id = some i ↔ ∃ slot, t.arena[i]? = some slot ∧ slot.label.id = id := by
  rw [Tree.indexOf?, List.findIdx?_eq_some_iff_getElem]
  constructor
  · rintro ⟨hlt, hid, -⟩
    exact ⟨t.arena[i], List.getElem?_eq_getElem hlt, by simpa using hid⟩
  · rintro ⟨slot, hslot, hid⟩
    obtain ⟨hlt, rfl⟩ := List.getElem?_eq_some_iff.mp hslot
    refine ⟨hlt, by simpa using hid, fun j hj heq => ?_⟩
    have := h.eq_of_id (List.getElem?_eq_getElem (hj.trans hlt)) hslot (by simpa [hid] using heq)
    omega

lemma Shows.indexOf?_of_slot (h : t.Shows b) {i : Nat} {slot : Slot (Node L)}
    (hslot : t.arena[i]? = some slot) : t.indexOf? slot.label.id = some i :=
  h.indexOf?_eq_some_iff.mpr ⟨slot, hslot, rfl⟩

lemma indexOf?_of_unknown {id : NodeId} (h : ∀ slot ∈ t.arena, slot.label.id ≠ id) :
    t.indexOf? id = none := by
  rw [Tree.indexOf?, List.findIdx?_eq_none_iff]
  intro slot hslot
  simpa using h slot hslot

/-- The children that are listed are those that the node refers to. -/
lemma Shows.map_some_childIds (h : t.Shows b) {i : Nat} {slot : Slot (Node L)}
    (hslot : t.arena[i]? = some slot) :
    (t.childIds slot.label.id).map some =
      slot.children.map fun c => t.arena[c]?.map fun s => s.label.id := by
  obtain ⟨s, -, rfl, hholds⟩ := h.exists_part hslot
  have hall : ∀ c ∈ (slotAt i s).children,
      (some <$> t.arena[c]?.map fun s => s.label.id) =
        some (t.arena[c]?.map fun s => s.label.id) := by
    intro c hc
    obtain ⟨j, hj⟩ := List.mem_iff_getElem?.mp hc
    obtain ⟨u, -, hu⟩ := hholds.children.get hj
    simp [hu.getElem?]
  simp only [Tree.childIds, h.indexOf?_of_slot hslot, hslot]
  rw [List.map_filterMap]
  exact List.filterMap_eq_map_iff_forall_eq_some.mpr hall

lemma Shows.isEmpty_iff (h : t.Shows b) :
    t.isEmpty = true ↔ ∃ slot, t.arena[0]? = some slot ∧ slot.children = [] := by
  have hslot := h.holds.getElem?
  rw [Tree.isEmpty, h.size_eq, beq_iff_eq]
  obtain ⟨n, ts⟩ := b
  rw [size_node]
  constructor
  · intro hsize
    refine ⟨_, hslot, ?_⟩
    cases ts with
    | nil => rfl
    | cons u ts =>
        have := u.size_pos
        rw [sizeAll_cons] at hsize
        omega
  · rintro ⟨slot, hslot', hnil⟩
    rw [hslot, Option.some.injEq] at hslot'
    subst hslot'
    cases ts with
    | nil => rfl
    | cons u ts => cases hnil

/-! ## Walks -/

variable [Behavior L δ]

lemma displays_view? {v : View} {position depth : Nat} (h : t.view? position depth = some v) :
    v.index = position ∧ v.depth = depth ∧ t.Displays v := by
  rw [Tree.view?, Option.map_eq_some_iff] at h
  obtain ⟨slot, hslot, rfl⟩ := h
  exact ⟨rfl, rfl, slot, hslot, rfl, rfl, rfl, rfl⟩

lemma exists_view? {i : Nat} (depth : Nat) {slot : Slot (Node L)} (h : t.arena[i]? = some slot) :
    ∃ v, t.view? i depth = some v := by
  rw [Tree.view?, h]
  exact ⟨_, rfl⟩

/-- **A walk from a position sees what is at or below it**, one position after the other, each with
its depth. -/
theorem Shows.visits_viewsAt (h : t.Shows b) {i : Nat} {s : Branch (Node L)}
    (hholds : Slot.Holds t.arena i s) : t.Visits i (i + s.size) (t.viewsAt i) where
  stretch := Arena.spans_of_holds hholds
  order := by
    have hwalk := Slot.walk_of_holds s 0 hholds
    have hall : ∀ p ∈ Slot.walk t.arena i 0, (t.view? p.1 p.2).map View.index = some p.1 := by
      intro p hp
      have hmem := List.mem_map_of_mem (f := Prod.fst) hp
      rw [hwalk, List.mem_range'_1] at hmem
      have hlt : p.1 < t.arena.length := hmem.2.trans_le hholds.le
      obtain ⟨v, hv⟩ := t.exists_view? p.2 (List.getElem?_eq_getElem hlt)
      rw [hv, Option.map_some, (displays_view? hv).1]
    rw [Tree.viewsAt, List.map_filterMap, Nat.add_sub_cancel_left, ← hwalk]
    exact List.filterMap_eq_map_iff_forall_eq_some.mpr hall
  displays v hv := by
    obtain ⟨p, -, hp⟩ := List.mem_filterMap.mp hv
    exact (displays_view? hp).2.2
  depth v hv d := by
    obtain ⟨p, hp, hview⟩ := List.mem_filterMap.mp hv
    obtain ⟨hindex, hdepth, -⟩ := displays_view? hview
    obtain ⟨e, he, hat⟩ := Arena.atDepth_of_mem_walk s hholds hp
    rw [Nat.zero_add] at he
    rw [hindex, hdepth, he]
    constructor
    · exact fun hd => hd.unique h.lt_of_refers h.eq_of_refers hat
    · rintro rfl
      exact hat

/-- **Every way of looking at a tree** answers with the nodes that stand in its arena. -/
theorem Shows.indexed (h : t.Shows b) (hrooted : t.Rooted) : t.Indexed where
  toLaid := h.laid hrooted
  registry := h.lookup_registry
  indexOf id := by
    refine Option.ext fun i => ?_
    rw [h.indexOf?_eq_some_iff, h.lookup_registry]
  loop i hi time htime := by
    obtain ⟨s, -, -, hholds⟩ := h.exists_part (List.getElem?_eq_getElem hi)
    have hle := hholds.le
    have hsize : t.arena.length = t.size := rfl
    exact Slot.stackWalk_eq_walk hholds (by omega) 0
  views := by
    have hvisits := h.visits_viewsAt h.holds
    rwa [Nat.zero_add, ← h.size_eq] at hvisits
  viewsFrom i slot hslot := by
    obtain ⟨s, -, -, hholds⟩ := h.exists_part hslot
    refine ⟨i + s.size, t.viewsAt i, ?_, h.visits_viewsAt hholds⟩
    rw [Tree.viewsFrom?, h.indexOf?_of_slot hslot]
    rfl
  find i slot hslot := by
    obtain ⟨v, hv⟩ := t.exists_view? 0 hslot
    refine ⟨v, ?_, displays_view? hv⟩
    rw [Tree.find?, h.indexOf?_of_slot hslot]
    exact hv
  childIds i slot hslot := h.map_some_childIds hslot
  unknown id hid := by
    rw [Tree.viewsFrom?, Tree.find?, Tree.childIds, indexOf?_of_unknown hid]
    exact ⟨rfl, rfl, rfl⟩
  isEmpty := h.isEmpty_iff

end Shows

/-! ## The root -/

/-- A tree of the same static nodes has its root where the other one has it. -/
lemma Shows.rooted_of_static {t u : Tree L} {b c : Branch (Node L)} (h : t.Shows b) (hu : u.Shows c)
    (hstatic : c.map Node.static = b.map Node.static) (hrooted : t.Rooted) : u.Rooted := by
  intro i now hnow
  obtain ⟨slot, hslot, heq, -⟩ := hu.exists_slot h hstatic.symm hnow
  have hkind : slot.label.kind.static = now.label.kind.static := congrArg Prod.snd heq
  have hroot : ∀ k : NodeKind L, k.static.isRoot = k.isRoot := by
    intro k
    cases k <;> rfl
  rw [← hroot, ← hkind, hroot]
  exact hrooted i slot hslot

lemma arena_of_ofArena {arena : Arena L} {t : Tree L} (h : ofArena arena = .ok t) :
    t.arena = arena := by
  rw [ofArena] at h
  split at h
  · cases h
  · cases h; rfl

lemma rooted_of_build {config : EngineConfig} {child : Option (Blueprint L)} {t : Tree L}
    (h : Tree.build config child = .ok t) : t.Rooted := by
  intro i slot hslot
  rw [arena_of_ofArena h, List.getElem?_zipWith_eq_some] at hslot
  obtain ⟨id, s, -, hs, rfl⟩ := hslot
  cases i with
  | zero =>
      cases hs
      exact iff_of_true rfl rfl
  | succ i =>
      have hlabel : s.label ∈ labelsAll (Blueprint.outlineChild config child) := by
        rw [← map_label_layoutAll 1]
        exact List.mem_map_of_mem (List.mem_of_getElem? hs)
      have hroot := (Blueprint.authored_outlineChild config child _ hlabel).2
      simp [Node.fresh, hroot]

end Tree

lemma Graph.Realizes.isRoot_eq {registry : LeafRegistry L} {config : EngineConfig}
    {shape : GraphShape} {kind : NodeKind L} (h : Realizes registry config shape kind) :
    kind.isRoot = shape.isRoot := by
  cases h <;> rfl

namespace Tree

/-- The identity of the root of a graph stands at the first position alone. -/
lemma rooted_of_exact {g : Graph} {registry : LeafRegistry L} {config : EngineConfig}
    {root : NodeId} {built : Graph.Built L} (h : g.WellFormed registry root)
    (hexact : g.Exact registry config root built) : built.tree.Rooted := by
  obtain ⟨b, hb, htree⟩ := hexact.tree
  have hshows : built.tree.Shows b := ⟨by rw [htree]; rfl, Graph.nodup_ids_of_unfolds h hb⟩
  obtain ⟨first, hfirst, hid⟩ := Option.map_eq_some_iff.mp hb.getElem?_zero
  rw [← hshows.arena] at hfirst
  intro i slot hslot
  have hslot' := hslot
  rw [hshows.arena] at hslot'
  obtain ⟨node, hnode, hnow, hkind, -⟩ := hb.slot hslot'
  rw [hkind.isRoot_eq, h.isRoot_iff node hnode, ← hnow, ← hid]
  constructor
  · exact fun heq => hshows.eq_of_id hslot hfirst heq
  · rintro rfl
    rw [hfirst, Option.some.injEq] at hslot
    rw [hslot]

lemma rooted_of_graph {g : Graph} {registry : LeafRegistry L} {config : EngineConfig}
    {built : Graph.Built L} (h : g.build registry config = .ok built) : built.tree.Rooted := by
  obtain ⟨root, hwell, hexact⟩ := Graph.exact_of_build h
  exact rooted_of_exact hwell hexact

variable [Behavior L δ] {t : Tree L}

/-- **The first node of a fresh tree is its root, and no other node is one.** -/
theorem Fresh.rooted (h : t.Fresh) : t.Rooted := by
  induction h with
  | built config child hbuild => exact rooted_of_build hbuild
  | grown g registry config hbuild => exact rooted_of_graph hbuild
  | @copied t calls hfresh ih =>
      obtain ⟨b, hb⟩ := hfresh.pristine
      obtain ⟨c, hc, hsteps⟩ := hb.toShows.performAll calls
      have hnow := hb.toShows.rooted_of_static hc hsteps.map_static ih
      exact hc.rooted_of_static hc.instantiate.toShows (map_static_map Node.static_pristine c) hnow

/-- **Every tree is indexed, whatever it has been through**: its nodes stand in pre-order, the
registry tells their positions, and every walk visits them in order. -/
theorem Fresh.indexed_performAll (h : t.Fresh) (calls : List (Call δ)) :
    (t.performAll calls).1.Indexed := by
  obtain ⟨b, hb⟩ := h.pristine
  obtain ⟨c, hc, hsteps⟩ := hb.toShows.performAll calls
  exact hc.indexed (hb.toShows.rooted_of_static hc hsteps.map_static h.rooted)

/-- A sequence, one of whose leaves is below a decorator, after a poll. -/
theorem indexed_sequence :
    let t : Tree Constant := ofBranch (.node (.fresh ⟨0⟩ .root)
      [.node (.fresh ⟨1⟩ (.composite .sequence true 0))
        [.node (.fresh ⟨2⟩ (.decorator .invert false)) [.node (.fresh ⟨3⟩ (.leaf .fail)) []],
          .node (.fresh ⟨4⟩ (.leaf .running)) []]])
    let now := (t.performAll [.start, .update ()]).1
    Tree.build .standard (some (.sequence [.decorate .invert (.leaf none Constant.fail),
      .leaf none .running])) = .ok t ∧ now.Indexed ∧
      now.arena.map (fun slot => slot.children) = [[1], [2, 4], [3], [], []] := by
  intro t now
  have hbuild : Tree.build .standard (some (.sequence [.decorate .invert
      (.leaf none Constant.fail), .leaf none .running])) = .ok t := rfl
  refine ⟨hbuild, (Fresh.built .standard _ hbuild).indexed_performAll _, ?_⟩
  decide +kernel

end Tree

end BehaviorTree
