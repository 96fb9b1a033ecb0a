import BehaviorTree.Proofs.Positions
import BehaviorTree.Proofs.Validity

/-!
# The tree that a graph makes

A graph names the children of its nodes, and a node may name any other.  Going down from the root
and looking every child up in the graph, without a record of where one has been, is `Unfolds`: a
derivation of it is the tree of these calls, so that there is one says that going down comes to an
end.

For well formed graphs it does, although nodes that the root does not reach may well go round in
circles.  The reason is that a node has at most one parent and the root has none: whoever leads back
to a node above has it for a second child (`Lineage.not_mem`).

* **`exists_unfolds`** — growing the tree of a well formed graph succeeds, and it unfolds the graph.
* **`nodup_ids_of_unfolds`** — no node stands at two places.
* `mem_ids_iff_reaches` — the nodes of the tree are those that the root reaches.
* `Unfolds.slot` — every node stands there as authored.
-/

namespace BehaviorTree

open Branch Relation

variable {L : Type}

namespace Graph

/-! ## The specification -/

/-- What an authored shape becomes in a tree: a composite that has no cascade flag of its own takes
the one of the configuration, and a leaf is the one registered under its name. -/
inductive Realizes (registry : LeafRegistry L) (config : EngineConfig) :
    GraphShape → NodeKind L → Prop
  | root (child : Option NodeId) : Realizes registry config (.root child) .root
  | ownFlag (kind : CompositeKind) (children : List NodeId) (cascade : Bool) :
    Realizes registry config (.composite kind children (some cascade)) (.composite kind cascade 0)
  | defaultFlag (kind : CompositeKind) (children : List NodeId) :
    Realizes registry config (.composite kind children none)
      (.composite kind config.defaultCascade 0)
  | decorator (rule : DecoratorRule) (child : Option NodeId) :
    Realizes registry config (.decorator rule child) (.decorator rule false)
  | leaf {name : String} {leaf : L} : registry.create? name = some leaf →
    Realizes registry config (.leaf name) (.leaf leaf)

/-- The tree that comes of going down from the node of an identity, where every child is looked up
in the whole graph. -/
inductive Unfolds (g : Graph) (registry : LeafRegistry L) (config : EngineConfig) :
    NodeId → Branch (Node L) → Prop
  | node {node : GraphNode} {kind : NodeKind L} {ts : List (Branch (Node L))} :
    node ∈ g.nodes → Realizes registry config node.shape kind →
    List.Forall₂ (Unfolds g registry config) node.shape.children ts →
    Unfolds g registry config node.id (.node (.fresh node.id kind) ts)

/-- A node refers to another one. -/
def Refers (g : Graph) (parent child : NodeId) : Prop :=
  ∃ node ∈ g.nodes, node.id = parent ∧ child ∈ node.shape.children

/-- A node is reached from another one through references. -/
def Reaches (g : Graph) : NodeId → NodeId → Prop := ReflTransGen g.Refers

/-- Writes the subtree of a child down behind the slots that are there, and notes its position.
Every child is looked up in the whole graph. -/
def emitChild (g : Graph) (emit : GraphNode → Arena L → Except (Option GraphError) (Nat × Arena L))
    (parent : NodeId) (done : List Nat × Arena L) (id : NodeId) :
    Except (Option GraphError) (List Nat × Arena L) :=
  match g.find? id with
  | none => .error (some (.unknownNode parent id))
  | some child => do
    let (c, slots) ← emit child done.2
    return (done.1 ++ [c], slots)

/-- Writes the subtree of a node down behind the slots that are there, in pre-order.  There is no
record of the nodes above: the recursion is cut off when the time is up, which is the error
`none`. -/
def emit (g : Graph) (registry : LeafRegistry L) (config : EngineConfig) :
    (time : Nat) → GraphNode → Arena L → Except (Option GraphError) (Nat × Arena L)
  | 0, _, _ => .error none
  | time + 1, n, slots => do
    let kind ← (kindOf registry config n).mapError some
    let (children, written) ← n.shape.children.foldlM
      (g.emitChild (g.emit registry config time) n.id) ([], slots ++ [⟨.fresh n.id kind, []⟩])
    return (slots.length, written.set slots.length ⟨.fresh n.id kind, children⟩)

/-- A template made exactly of what the root of a graph reaches. -/
structure Exact (g : Graph) (registry : LeafRegistry L) (config : EngineConfig) (root : NodeId)
    (built : Built L) : Prop where
  /-- The nodes stand in depth-first pre-order, as going down from the root meets them, and the
  template is untouched. -/
  tree : ∃ b, g.Unfolds registry config root b ∧ built.tree = .ofBranch b
  /-- The recursion that has no record of the nodes above writes them down and ends: it is at no
  time further down than there are nodes. -/
  emitted : ∃ node, g.find? root = some node ∧ ∀ time, g.nodes.length ≤ time →
    g.emit registry config time node [] = .ok (0, built.tree.arena)
  /-- Every node that the root reaches is there, and no other. -/
  reached : ∀ id, id ∈ built.tree.arena.map (fun slot => slot.label.id) ↔ g.Reaches root id
  /-- Each of them is there once. -/
  once : (built.tree.arena.map fun slot => slot.label.id).Nodup
  /-- Each of them is there as authored, with its children in the authored order. -/
  authored : ∀ slot ∈ built.tree.arena, ∃ node ∈ g.nodes,
    slot.label.id = node.id ∧ Realizes registry config node.shape slot.label.kind ∧
      slot.label.state = .fresh ∧
      slot.children.map (fun c => built.tree.arena[c]?.map fun s => s.label.id) =
        node.shape.children.map some
  /-- The others are reported as dropped, as listed. -/
  dropped_sublist : built.dropped.Sublist (g.nodes.map GraphNode.id)
  mem_dropped : ∀ node ∈ g.nodes, node.id ∈ built.dropped ↔ ¬ g.Reaches root node.id
  /-- No node is lost: each is in the tree or among the dropped ones. -/
  counted : built.tree.size + built.dropped.length = g.nodes.length
  /-- A warning is given if a node is dropped. -/
  warning : built.warning?.isSome = true ↔ ∃ node ∈ g.nodes, ¬ g.Reaches root node.id

/-! ## Growing the tree -/

section Grow

variable {g : Graph} {registry : LeafRegistry L} {config : EngineConfig} {root : NodeId}

lemma kindOf_eq_ok_iff {node : GraphNode} {kind : NodeKind L} :
    kindOf registry config node = .ok kind ↔ Realizes registry config node.shape kind := by
  obtain ⟨id, shape, layout⟩ := node
  rw [kindOf]
  constructor
  · intro h
    cases shape with
    | root child => cases h; exact .root child
    | composite kind children cascade =>
        cases h
        cases cascade with
        | none => exact .defaultFlag kind children
        | some cascade => exact .ownFlag kind children cascade
    | decorator rule child => cases h; exact .decorator rule child
    | leaf name =>
        simp only at h
        split at h
        · next leaf hleaf => cases h; exact .leaf hleaf
        · cases h
  · intro h
    cases h with
    | leaf hleaf => simp only [hleaf]
    | _ => rfl

lemma WellFormed.exists_realizes (h : g.WellFormed registry root) (config : EngineConfig)
    {node : GraphNode} (hnode : node ∈ g.nodes) :
    ∃ kind, Realizes registry config node.shape kind := by
  cases hshape : node.shape with
  | root child => exact ⟨_, .root child⟩
  | composite kind children cascade =>
      cases cascade with
      | none => exact ⟨_, .defaultFlag kind children⟩
      | some cascade => exact ⟨_, .ownFlag kind children cascade⟩
  | decorator rule child => exact ⟨_, .decorator rule child⟩
  | leaf name =>
      have hname := h.named node hnode name hshape
      rw [LeafRegistry.contains, Option.isSome_iff_exists] at hname
      obtain ⟨leaf, hleaf⟩ := hname
      exact ⟨_, .leaf hleaf⟩

/-- Nothing refers to the root. -/
lemma WellFormed.ne_root (h : g.WellFormed registry root) {node : GraphNode}
    (hnode : node ∈ g.nodes) {child : NodeId} (hchild : child ∈ node.shape.children) :
    child ≠ root := by
  rintro rfl
  obtain ⟨target, htarget, hid, hroot⟩ := h.resolves node hnode _ hchild
  rw [(h.isRoot_iff target htarget).mpr hid] at hroot
  cases hroot

/-- A node has at most one parent. -/
lemma WellFormed.parent_unique (h : g.WellFormed registry root) {a b : GraphNode}
    (ha : a ∈ g.nodes) (hb : b ∈ g.nodes) {child : NodeId} (hchild : child ∈ a.shape.children)
    (hchild' : child ∈ b.shape.children) : a = b := by
  by_contra hne
  have hdisjoint := (List.nodup_flatMap.mp h.single).2
  have hsymm : Std.Symm (Function.onFun List.Disjoint fun node : GraphNode =>
      node.shape.children) := ⟨fun _ _ => List.disjoint_symm⟩
  exact hdisjoint.forall ha hb hne hchild hchild'

/-- The identities that are taken out of the pool on the way down to a node: each but the root has
a parent among them, and it is not the node that has been reached. -/
structure Lineage (g : Graph) (root : NodeId) (taken : List NodeId) (node : GraphNode) : Prop where
  mem : node ∈ g.nodes
  here : node.id ∈ taken
  parent : ∀ id ∈ taken, id ≠ root → ∃ parent ∈ g.nodes,
    parent.id ∈ taken ∧ parent ≠ node ∧ id ∈ parent.shape.children

variable {taken : List NodeId} {node : GraphNode}

/-- **No reference leads back to a node above.** -/
lemma Lineage.not_mem (hl : g.Lineage root taken node) (h : g.WellFormed registry root)
    {child : NodeId} (hchild : child ∈ node.shape.children) : child ∉ taken := by
  intro htaken
  obtain ⟨parent, hmem, -, hne, hparent⟩ := hl.parent child htaken (h.ne_root hl.mem hchild)
  exact hne (h.parent_unique hmem hl.mem hparent hchild)

lemma Lineage.child (hl : g.Lineage root taken node) (h : g.WellFormed registry root)
    {child : GraphNode} (hmem : child ∈ g.nodes) (hchild : child.id ∈ node.shape.children) :
    g.Lineage root (child.id :: taken) child where
  mem := hmem
  here := List.mem_cons_self
  parent id hid hroot := by
    have hnew := hl.not_mem h hchild
    rcases List.mem_cons.mp hid with rfl | hid
    · refine ⟨node, hl.mem, List.mem_cons_of_mem _ hl.here, ?_, hchild⟩
      rintro rfl
      exact hnew hl.here
    · obtain ⟨parent, hparent, htaken, -, hrefers⟩ := hl.parent id hid hroot
      refine ⟨parent, hparent, List.mem_cons_of_mem _ htaken, ?_, hrefers⟩
      rintro rfl
      exact hnew htaken

/-- The nodes that are still in the pool. -/
def remaining (g : Graph) (taken : List NodeId) : List GraphNode :=
  g.nodes.filter fun node => !taken.contains node.id

lemma without_remaining (taken : List NodeId) (id : NodeId) :
    without (g.remaining taken) id = g.remaining (id :: taken) := by
  rw [without, remaining, remaining, List.filter_filter]
  refine List.filter_congr fun node _ => ?_
  rw [List.contains_cons, Bool.not_or, bne]

/-- A node that has not been taken out is found. -/
lemma find?_remaining (hids : (g.nodes.map GraphNode.id).Nodup) {child : GraphNode}
    (hmem : child ∈ g.nodes) (hnew : child.id ∉ taken) :
    (g.remaining taken).find? (fun node => node.id == child.id) = some child := by
  have hremaining : child ∈ g.remaining taken :=
    List.mem_filter.mpr ⟨hmem, by simpa using hnew⟩
  exact (find?_id_eq_some_iff (hids.sublist (List.filter_sublist.map _))).mpr ⟨hremaining, rfl⟩

/-- **Growing the tree of a well formed graph succeeds, and it unfolds the graph**: what is looked
up in the pool is what stands in the graph. -/
theorem exists_unfolds (h : g.WellFormed registry root) (pool : List GraphNode)
    (hl : g.Lineage root taken node) (hpool : pool = g.remaining taken) :
    ∃ b, grow registry config pool node = .ok b ∧ g.Unfolds registry config node.id b := by
  induction pool, node using grow.induct generalizing taken with
  | case1 pool node ih =>
      obtain ⟨kind, hkind⟩ := h.exists_realizes config hl.mem
      have hchildren : ∀ id ∈ node.shape.children, ∃ t : Branch (Node L),
          (∃ child, pool.find? (fun node => node.id == id) = some child ∧
            grow registry config (without pool id) child = .ok t) ∧
          g.Unfolds registry config id t := by
        intro id hid
        obtain ⟨child, hmem, rfl, -⟩ := h.resolves node hl.mem id hid
        have hfind := find?_remaining h.ids hmem (hl.not_mem h hid)
        rw [← hpool] at hfind
        obtain ⟨t, hgrow, hunfolds⟩ := ih child.id child hfind (hl.child h hmem hid)
          (by rw [hpool, without_remaining])
        exact ⟨t, ⟨child, hfind, hgrow⟩, hunfolds⟩
      obtain ⟨ts, hts⟩ := exists_forall₂ hchildren
      refine ⟨.node (.fresh node.id kind) ts, ?_, .node hl.mem hkind (hts.imp fun _ _ ht => ht.2)⟩
      rw [grow, kindOf_eq_ok_iff.mpr hkind]
      simp only [bind, Except.bind]
      rw [mapM_eq_ok_iff.mpr (hts.imp fun id t ht => ?_)]
      · rfl
      · obtain ⟨⟨child, hfind, hgrow⟩, -⟩ := ht
        split
        · next hnone => rw [hfind] at hnone; cases hnone
        · next other hother =>
            rw [hfind, Option.some.injEq] at hother
            rwa [← hother]

/-! ## What stands where -/

variable {b : Branch (Node L)} {id : NodeId}

lemma Unfolds.inversion (h : g.Unfolds registry config id b) :
    ∃ node ∈ g.nodes, ∃ (kind : NodeKind L) (ts : List (Branch (Node L))),
      id = node.id ∧ b = .node (.fresh node.id kind) ts ∧
      Realizes registry config node.shape kind ∧
      List.Forall₂ (g.Unfolds registry config) node.shape.children ts := by
  cases h with
  | node hnode hkind hts => exact ⟨_, hnode, _, _, rfl, rfl, hkind, hts⟩

lemma Unfolds.id_eq (h : g.Unfolds registry config id b) : b.label.id = id := by
  obtain ⟨node, -, kind, ts, rfl, rfl, -⟩ := h.inversion
  rfl

/-- What unfolds a node is made of what unfolds the nodes below. -/
lemma Unfolds.part (h : g.Unfolds registry config id b) :
    ∀ s ∈ b.parts, g.Unfolds registry config s.label.id s := by
  induction b generalizing id with
  | node n ts ih =>
      intro s hs
      rw [parts, List.mem_cons] at hs
      rcases hs with rfl | hs
      · rwa [h.id_eq]
      · obtain ⟨t, ht, hst⟩ := mem_partsAll.mp hs
        cases h with
        | node _ _ hts =>
            obtain ⟨c, -, hc⟩ := exists_of_forall₂ hts ht
            exact ih t ht hc s hst

lemma map_id_of_unfolds {ids : List NodeId} {ts : List (Branch (Node L))}
    (h : List.Forall₂ (g.Unfolds registry config) ids ts) : ts.map (fun t => t.label.id) = ids := by
  induction h with
  | nil => rfl
  | cons ht _ ih => rw [List.map_cons, ht.id_eq, ih]

/-- **Every node stands there as authored**, and its references lead to the nodes that it refers
to. -/
theorem Unfolds.slot (h : g.Unfolds registry config id b) {p : Nat} {slot : Slot (Node L)}
    (hslot : (b.layout 0)[p]? = some slot) :
    ∃ node ∈ g.nodes, slot.label.id = node.id ∧
      Realizes registry config node.shape slot.label.kind ∧ slot.label.state = .fresh ∧
      slot.children.map (fun c => (b.layout 0)[c]?.map fun s => s.label.id) =
        node.shape.children.map some := by
  rw [getElem?_layout, Nat.zero_add, Option.map_eq_some_iff] at hslot
  obtain ⟨s, hs, rfl⟩ := hslot
  have hholds := (Slot.holds_layout b).part hs
  obtain ⟨node, hnode, kind, ts, -, rfl, hkind, hts⟩ :=
    (h.part s (List.mem_of_getElem? hs)).inversion
  refine ⟨node, hnode, rfl, hkind, rfl, ?_⟩
  have hchildren := congrArg (List.map (Option.map Node.id)) hholds.children.map_getElem?_roots
  rw [← map_id_of_unfolds hts]
  simpa [Function.comp_def, slotAt] using hchildren

/-- The node behind a position that a node refers to. -/
lemma Unfolds.child (h : g.Unfolds registry config id b) {p k j : Nat} {slot : Slot (Node L)}
    (hslot : (b.layout 0)[p]? = some slot) (hj : slot.children[k]? = some j) :
    ∃ node ∈ g.nodes, slot.label.id = node.id ∧
      node.shape.children[k]? = (b.layout 0)[j]?.map fun s => s.label.id := by
  obtain ⟨node, hnode, hid, -, -, hchildren⟩ := h.slot hslot
  refine ⟨node, hnode, hid, ?_⟩
  have hk := congrArg (·[k]?) hchildren
  simp only [List.getElem?_map, hj, Option.map_some] at hk
  cases hchild : node.shape.children[k]? with
  | none => simp [hchild] at hk
  | some c => rw [hchild, Option.map_some, Option.some.injEq] at hk; exact hk.symm

lemma Unfolds.getElem?_zero (h : g.Unfolds registry config root b) :
    ((b.layout 0)[0]?.map fun slot => slot.label.id) = some root := by
  rw [(Slot.holds_layout b).getElem?, ← h.id_eq]
  rfl

/-- References that lead to equal nodes stand in equal places of equal nodes. -/
lemma Unfolds.parent_unique (hb : g.Unfolds registry config root b)
    (h : g.WellFormed registry root) {p q k l i j : Nat} {slot slot' : Slot (Node L)}
    (hslot : (b.layout 0)[p]? = some slot) (hi : slot.children[k]? = some i)
    (hslot' : (b.layout 0)[q]? = some slot') (hj : slot'.children[l]? = some j)
    {c : NodeId} (hci : ((b.layout 0)[i]?.map fun s => s.label.id) = some c)
    (hcj : ((b.layout 0)[j]?.map fun s => s.label.id) = some c) :
    slot.label.id = slot'.label.id ∧ k = l := by
  obtain ⟨node, hnode, hid, hchild⟩ := hb.child hslot hi
  obtain ⟨node', hnode', hid', hchild'⟩ := hb.child hslot' hj
  rw [hci] at hchild
  rw [hcj] at hchild'
  obtain rfl := h.parent_unique hnode hnode' (List.mem_of_getElem? hchild)
    (List.mem_of_getElem? hchild')
  have hnodup := (List.nodup_flatMap.mp h.single).1 node hnode
  exact ⟨hid.trans hid'.symm,
    (List.getElem?_inj (List.getElem?_eq_some_iff.mp hchild).1 hnodup).mp
      (hchild.trans hchild'.symm)⟩

/-- **No node stands at two places**: the parents of the two would be one node that refers to it
once, so that there are two places further up already. -/
theorem nodup_ids_of_unfolds (h : g.WellFormed registry root)
    (hb : g.Unfolds registry config root b) : b.ids.Nodup := by
  rw [← map_id_layout 0 b, List.nodup_iff_getElem?_ne_getElem?]
  intro i
  -- the induction is on the earlier one of the two places
  induction i using Nat.strong_induction_on with
  | _ i ih =>
      intro j hij hj heq
      rw [List.getElem?_map, List.getElem?_map] at heq
      rw [List.length_map] at hj
      obtain ⟨c, hc⟩ : ∃ c, ((b.layout 0)[i]?.map fun s => s.label.id) = some c :=
        ⟨_, by rw [List.getElem?_eq_getElem (hij.trans hj)]; rfl⟩
      have hc' := heq.symm.trans hc
      rw [length_layout] at hj
      obtain ⟨p, hpj, slot, k, hslot, hk⟩ := Slot.exists_parent b (by omega) hj
      rcases Nat.eq_zero_or_pos i with rfl | hi
      · obtain ⟨node, hnode, -, hchild⟩ := hb.child hslot hk
        rw [hc', ← hc, hb.getElem?_zero] at hchild
        exact h.ne_root hnode (List.mem_of_getElem? hchild) rfl
      · obtain ⟨q, hqi, slot', l, hslot', hl⟩ := Slot.exists_parent b hi (by omega)
        obtain ⟨hid, rfl⟩ := hb.parent_unique h hslot hk hslot' hl hc' hc
        have hids : (b.layout 0)[p]?.map (fun s => s.label.id) =
            (b.layout 0)[q]?.map fun s => s.label.id := by
          rw [hslot, hslot', Option.map_some, Option.map_some, hid]
        have hp := (List.getElem?_eq_some_iff.mp hslot).1
        have hq := (List.getElem?_eq_some_iff.mp hslot').1
        rcases Nat.lt_trichotomy p q with hpq | rfl | hqp
        · exact ih p (hpq.trans hqi) q hpq (by simpa using hq) (by simpa using hids)
        · rw [hslot, Option.some.injEq] at hslot'
          subst hslot'
          rw [hk, Option.some.injEq] at hl
          omega
        · exact ih q hqi p hqp (by simpa using hp) (by simpa using hids.symm)

/-- The root reaches what stands at any position: it reaches the parent, which stands earlier. -/
lemma reaches_of_getElem? (hb : g.Unfolds registry config root b) {j : Nat} {id : NodeId}
    (hj : ((b.layout 0)[j]?.map fun slot => slot.label.id) = some id) : g.Reaches root id := by
  induction j using Nat.strong_induction_on generalizing id with
  | _ j ih =>
      rcases Nat.eq_zero_or_pos j with rfl | hpos
      · rw [hb.getElem?_zero, Option.some.injEq] at hj
        exact hj ▸ .refl
      · obtain ⟨now, hnow, -⟩ := Option.map_eq_some_iff.mp hj
        have hlt := (List.getElem?_eq_some_iff.mp hnow).1
        rw [length_layout] at hlt
        obtain ⟨p, hpj, slot, k, hslot, hk⟩ := Slot.exists_parent b hpos hlt
        obtain ⟨node, hnode, hparent, hchild⟩ := hb.child hslot hk
        have hreaches := ih p hpj (by rw [hslot, Option.map_some, hparent])
        exact .tail hreaches ⟨node, hnode, rfl, List.mem_of_getElem? (hchild.trans hj)⟩

/-- What the tree refers to is in the tree. -/
lemma mem_ids_of_refers (h : g.WellFormed registry root) (hb : g.Unfolds registry config root b)
    {parent child : NodeId} (hparent : parent ∈ b.ids) (hrefers : g.Refers parent child) :
    child ∈ b.ids := by
  rw [← map_id_layout 0 b] at hparent ⊢
  obtain ⟨slot, hslot, rfl⟩ := List.mem_map.mp hparent
  obtain ⟨p, hp⟩ := List.mem_iff_getElem?.mp hslot
  obtain ⟨node, hnode, hid, -, -, hchildren⟩ := hb.slot hp
  obtain ⟨other, hother, heq, hchild⟩ := hrefers
  obtain rfl := eq_of_id h.ids hnode hother (hid.symm.trans heq.symm)
  have hmem := List.mem_map_of_mem (f := some) hchild
  rw [← hchildren] at hmem
  obtain ⟨c, -, hc⟩ := List.mem_map.mp hmem
  exact List.mem_of_getElem? (by rw [List.getElem?_map, hc])

/-- **The nodes of the tree are those that the root reaches.** -/
theorem mem_ids_iff_reaches (h : g.WellFormed registry root)
    (hb : g.Unfolds registry config root b) {id : NodeId} :
    id ∈ b.ids ↔ g.Reaches root id := by
  constructor
  · intro hid
    rw [← map_id_layout 0 b] at hid
    obtain ⟨j, hj⟩ := List.mem_iff_getElem?.mp hid
    exact reaches_of_getElem? hb (by rwa [← List.getElem?_map])
  · intro hid
    induction hid with
    | refl =>
        rw [← map_id_layout 0 b]
        exact List.mem_of_getElem? (by rw [List.getElem?_map, hb.getElem?_zero])
    | tail _ hrefers ih => exact mem_ids_of_refers h hb ih hrefers

/-! ## Writing the tree down without a record -/

variable {emit : GraphNode → Arena L → Except (Option GraphError) (Nat × Arena L)}

/-- The children of a node are written down one behind the other. -/
lemma foldlM_emitChild (hids : (g.nodes.map GraphNode.id).Nodup) (parent : NodeId)
    {cs : List NodeId} {ts : List (Branch (Node L))}
    (h : List.Forall₂ (g.Unfolds registry config) cs ts)
    (hemit : ∀ t ∈ ts, ∀ child ∈ g.nodes, g.Unfolds registry config child.id t → ∀ slots,
      emit child slots = .ok (slots.length, slots ++ t.layout slots.length)) :
    ∀ (done : List Nat) (slots : Arena L),
      cs.foldlM (g.emitChild emit parent) (done, slots) =
        .ok (done ++ roots slots.length ts, slots ++ layoutAll slots.length ts) := by
  induction h with
  | nil => intro done slots; simp [roots, layoutAll, pure, Except.pure]
  | @cons c t cs ts ht _ ih =>
      intro done slots
      obtain ⟨child, hchild, kind, us, rfl, hnode, -⟩ := ht.inversion
      rw [List.foldlM_cons, emitChild, (find?_eq_some_iff hids).mpr ⟨hchild, rfl⟩]
      simp only [hemit t List.mem_cons_self child hchild ht, bind, Except.bind, pure, Except.pure]
      rw [ih fun u hu => hemit u (List.mem_cons_of_mem _ hu)]
      simp [roots, layoutAll]

/-- **Without a record of the nodes above, the subtree is written down all the same**, in as much
time as it has nodes. -/
theorem emit_of_unfolds (hids : (g.nodes.map GraphNode.id).Nodup) (time : Nat) :
    ∀ {n : GraphNode} {b : Branch (Node L)}, g.Unfolds registry config n.id b →
      n ∈ g.nodes → b.size ≤ time → ∀ slots : Arena L,
      g.emit registry config time n slots =
        .ok (slots.length, slots ++ b.layout slots.length) := by
  induction time with
  | zero =>
      intro n b _ _ htime
      have := b.size_pos
      omega
  | succ time ih =>
      intro n b hb hn htime slots
      obtain ⟨n', hn', kind, ts, hid, rfl, hkind, hts⟩ := hb.inversion
      obtain rfl := eq_of_id hids hn hn' hid
      have hbelow : ∀ t ∈ ts, ∀ child ∈ g.nodes, g.Unfolds registry config child.id t → ∀ slots,
          g.emit registry config time child slots =
            .ok (slots.length, slots ++ t.layout slots.length) := by
        intro t ht child hchild hunfolds slots
        have hle := size_le_sizeAll ht
        rw [size_node] at htime
        exact ih hunfolds hchild (by omega) slots
      have hchildren := foldlM_emitChild hids n.id hts hbelow [] (slots ++ [⟨.fresh n.id kind, []⟩])
      rw [Graph.emit, kindOf_eq_ok_iff.mpr hkind]
      simp only [Except.mapError, bind, Except.bind, hchildren, pure, Except.pure]
      simp [layout]

/-! ## Building a template -/

lemma lineage_root {n : GraphNode} (hn : n ∈ g.nodes) (hid : n.id = root) :
    g.Lineage root [root] n where
  mem := hn
  here := by simp [hid]
  parent id hmem hne := absurd (List.mem_singleton.mp hmem) hne

/-- The identities of the tree are among those of the graph. -/
lemma ids_subset_of_unfolds (hb : g.Unfolds registry config root b) :
    b.ids ⊆ g.nodes.map GraphNode.id := by
  intro id hid
  rw [← map_id_layout 0 b] at hid
  obtain ⟨slot, hslot, rfl⟩ := List.mem_map.mp hid
  obtain ⟨p, hp⟩ := List.mem_iff_getElem?.mp hslot
  obtain ⟨node, hnode, heq, -⟩ := hb.slot hp
  exact heq ▸ List.mem_map_of_mem hnode

/-- The template that is made of a well formed graph. -/
lemma exists_build (h : g.WellFormed registry root) :
    ∃ b, g.Unfolds registry config root b ∧
      g.build registry config = .ok ⟨.ofBranch b, g.dropped (Tree.ofBranch b)⟩ := by
  obtain ⟨n, hn, rfl⟩ := h.root_mem
  have hpool : without g.nodes n.id = g.remaining [n.id] := by
    have hall : g.nodes = g.remaining [] := by simp [remaining]
    exact (congrArg (without · n.id) hall).trans (without_remaining [] n.id)
  obtain ⟨b, hgrow, hunfolds⟩ : ∃ b, grow registry config (without g.nodes n.id) n = .ok b ∧
      g.Unfolds registry config n.id b := exists_unfolds h _ (lineage_root hn rfl) hpool
  have hfirst : firstRepeat [] ((b.layout 0).map fun slot => slot.label.id) = none := by
    rw [map_id_layout]
    exact firstRepeat_eq_none_iff.mpr ⟨nodup_ids_of_unfolds h hunfolds, by simp⟩
  refine ⟨b, hunfolds, ?_⟩
  rw [build, validate_eq_ok_iff.mpr h]
  simp only [bind, Except.bind, (find?_eq_some_iff h.ids).mpr ⟨hn, rfl⟩, hgrow, Tree.ofArena,
    hfirst]
  rfl

lemma mem_dropped_iff (h : g.WellFormed registry root) (hb : g.Unfolds registry config root b)
    {n : GraphNode} (hn : n ∈ g.nodes) :
    n.id ∈ g.dropped (Tree.ofBranch b) ↔ ¬ g.Reaches root n.id := by
  rw [← mem_ids_iff_reaches h hb, ← map_id_layout 0 b, dropped, List.mem_filter]
  simp [List.mem_map_of_mem hn, Tree.ofBranch]

lemma dropped_ne_nil_iff (h : g.WellFormed registry root) (hb : g.Unfolds registry config root b) :
    g.dropped (Tree.ofBranch b) ≠ [] ↔ ∃ n ∈ g.nodes, ¬ g.Reaches root n.id := by
  constructor
  · intro hne
    obtain ⟨id, hid⟩ := List.exists_mem_of_ne_nil _ hne
    obtain ⟨n, hn, rfl⟩ := List.mem_map.mp (List.mem_of_mem_filter hid)
    exact ⟨n, hn, (mem_dropped_iff h hb hn).mp hid⟩
  · rintro ⟨n, hn, hnot⟩
    exact List.ne_nil_of_mem ((mem_dropped_iff h hb hn).mpr hnot)

lemma length_dropped (h : g.WellFormed registry root) (hb : g.Unfolds registry config root b) :
    (Tree.ofBranch b).size + (g.dropped (Tree.ofBranch b)).length = g.nodes.length := by
  set kept := (g.nodes.map GraphNode.id).filter fun id =>
    (Tree.ofBranch b).arena.any fun slot => slot.label.id == id with hkept
  have hperm : kept.Perm b.ids := by
    rw [List.perm_ext_iff_of_nodup (h.ids.sublist List.filter_sublist) (nodup_ids_of_unfolds h hb)]
    intro id
    have hsubset := @ids_subset_of_unfolds _ _ _ _ _ _ hb id
    rw [← map_id_layout 0 b] at hsubset ⊢
    rw [List.mem_filter]
    simpa [Tree.ofBranch] using hsubset
  calc (Tree.ofBranch b).size + (g.dropped (Tree.ofBranch b)).length
      = kept.length + (g.dropped (Tree.ofBranch b)).length := by
        rw [hperm.length_eq, ← map_id_layout 0 b, List.length_map]
        rfl
    _ = (g.nodes.map GraphNode.id).length := by
        rw [dropped, hkept]
        exact (List.length_eq_length_filter_add _).symm
    _ = g.nodes.length := List.length_map _

/-- A warning is given exactly if something is dropped. -/
lemma isSome_warning?_iff {built : Built L} :
    built.warning?.isSome = true ↔ built.dropped ≠ [] := by
  rw [Built.warning?]
  cases built.dropped <;> simp

/-- **Building a template succeeds on every well formed graph, and it is exact.** -/
theorem exact_of_wellFormed (h : g.WellFormed registry root) :
    ∃ built, g.build registry config = .ok built ∧ g.Exact registry config root built := by
  obtain ⟨b, hb, hbuild⟩ : ∃ b, g.Unfolds registry config root b ∧ g.build registry config =
      .ok ⟨.ofBranch b, g.dropped (Tree.ofBranch b)⟩ := exists_build h
  refine ⟨_, hbuild, ?_⟩
  have hids : (b.layout 0).map (fun slot => slot.label.id) = b.ids := map_id_layout 0 b
  constructor
  case tree => exact ⟨b, hb, rfl⟩
  case emitted =>
    obtain ⟨n, hn, rfl⟩ := h.root_mem
    refine ⟨n, (find?_eq_some_iff h.ids).mpr ⟨hn, rfl⟩, fun time htime => ?_⟩
    have hcounted := length_dropped h hb
    have hsize : (Tree.ofBranch b).size = b.size := length_layout 0 b
    exact emit_of_unfolds h.ids time hb hn (by omega) []
  case reached => exact fun id => hids ▸ mem_ids_iff_reaches h hb
  case once => exact hids ▸ nodup_ids_of_unfolds h hb
  case authored =>
    intro slot hslot
    obtain ⟨p, hp⟩ := List.mem_iff_getElem?.mp hslot
    exact hb.slot hp
  case dropped_sublist => exact List.filter_sublist
  case mem_dropped => exact fun n hn => mem_dropped_iff h hb hn
  case counted => exact length_dropped h hb
  case warning => exact isSome_warning?_iff.trans (dropped_ne_nil_iff h hb)

/-- What is built is the exact template of a well formed graph. -/
lemma exact_of_build {built : Built L} (h : g.build registry config = .ok built) :
    ∃ root, g.WellFormed registry root ∧ g.Exact registry config root built := by
  cases hroot : g.validate registry with
  | error e =>
      rw [build, hroot] at h
      cases h
  | ok root =>
      have hwell := validate_eq_ok_iff.mp hroot
      obtain ⟨built', hbuilt', hexact⟩ :
          ∃ built', g.build registry config = .ok built' ∧ g.Exact registry config root built' :=
        exact_of_wellFormed hwell
      rw [h, Except.ok.injEq] at hbuilt'
      exact ⟨root, hwell, hbuilt' ▸ hexact⟩

end Grow

/-- **Building a template is total and exact on the graphs that are accepted**, and it answers with
the defect of the others. -/
theorem build_exact (g : Graph) (registry : LeafRegistry L) (config : EngineConfig) :
    (∀ root, g.validate registry = .ok root →
      ∃ built, g.build registry config = .ok built ∧ g.Exact registry config root built) ∧
    ∀ e, g.validate registry = .error e → g.build registry config = .error e := by
  refine ⟨fun root h => exact_of_wellFormed (validate_eq_ok_iff.mp h), fun e h => ?_⟩
  rw [build, h]
  rfl

/-- A root over a leaf, beside two nodes that refer to each other. -/
theorem exact_beside_cycle :
    let g : Graph := ⟨[⟨⟨2⟩, .decorator .invert (some ⟨3⟩), none⟩, ⟨⟨0⟩, .root (some ⟨1⟩), none⟩,
      ⟨⟨3⟩, .decorator .invert (some ⟨2⟩), none⟩, ⟨⟨1⟩, .leaf "succeed", none⟩]⟩
    let registry := LeafRegistry.standard id
    (g.Refers ⟨2⟩ ⟨3⟩ ∧ g.Refers ⟨3⟩ ⟨2⟩) ∧ g.validate registry = .ok ⟨0⟩ ∧
      ∃ built, g.build registry .standard = .ok built ∧ g.Exact registry .standard ⟨0⟩ built := by
  intro g registry
  have hvalid : g.validate registry = .ok ⟨0⟩ := rfl
  refine ⟨⟨?_, ?_⟩, hvalid, (build_exact g registry .standard).1 ⟨0⟩ hvalid⟩
  · exact ⟨_, List.mem_cons_self, rfl, List.mem_cons_self⟩
  · exact ⟨g.nodes[2], List.getElem_mem _, rfl, List.mem_cons_self⟩

end Graph

end BehaviorTree
