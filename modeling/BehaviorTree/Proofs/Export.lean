import BehaviorTree.Proofs.Copying

/-!
# Saving a tree and building it again

A tree saves as a graph, where a node names its children by their identities and a leaf stands by
its name.  What the tree has been through is not saved, and every composite is saved with the
cascade flag that it has.  So the graph can be built again with any configuration, by any registry
that knows the names: it makes an untouched tree of the same nodes in the same order.

* `NodeKind.Fits` — how many children there is room for at a node.  The saved shape of a root or of
  a decorator has place for one child, and that of a leaf for none; **`Fresh.fitted`**: more than
  these no tree has.
* `Branch.saved` — a node of a nested tree as it is saved.  **`Shows.nodes_ofTree`**: the graph
  lists the parts of the nested tree in pre-order.
* **`wellFormed_ofTree`** — the graph is well formed.
* **`unfolds_ofTree`** and **`Unfolds.unique`** — going down from its root leads to the nested tree
  with its leaves made anew, and to no other tree.
* **`Descends.ofTree_eq`** — a tree saves as its template does, if its leaves keep their names.
* **`Fresh.rebuilds`** — the graph is built again, whatever the tree has been through.
-/

namespace BehaviorTree

open Branch Relation
open scoped List

variable {L δ : Type}

/-! ## How many children a node has -/

/-- There is room for a number of children at a node of the kind. -/
def NodeKind.Fits : NodeKind L → Nat → Prop
  | .root, count => count ≤ 1
  | .composite _ _ _, _ => True
  | .decorator _ _, count => count ≤ 1
  | .leaf _, count => count = 0

/-- No node has more children than there is room for. -/
def Tree.Fitted (t : Tree L) : Prop := ∀ slot ∈ t.static, slot.label.2.Fits slot.children.length

lemma NodeKind.fits_static (kind : NodeKind L) (count : Nat) :
    kind.static.Fits count ↔ kind.Fits count := by
  cases kind <;> rfl

namespace Blueprint

mutual

/-- The nodes of a blueprint have the children that there is room for. -/
lemma fits_outline (config : EngineConfig) : ∀ b : Blueprint L,
    ∀ s ∈ (b.outline config).parts, s.label.2.Fits s.children.length
  | composite id kind cascade bs, s, h => by
      rw [outline, parts, List.mem_cons] at h
      rcases h with rfl | h
      · trivial
      · exact fits_outlineAll config bs s h
  | decorator id rule child, s, h => by
      rw [outline, parts, List.mem_cons] at h
      rcases h with rfl | h
      · exact length_outlineChild config child
      · exact fits_outlineChild config child s h
  | leaf id l, s, h => by
      simp only [outline, parts, partsAll, List.mem_singleton] at h
      subst h
      rfl

lemma fits_outlineAll (config : EngineConfig) : ∀ bs : List (Blueprint L),
    ∀ s ∈ partsAll (outlineAll config bs), s.label.2.Fits s.children.length
  | [], s, h => by simp [outlineAll, partsAll] at h
  | b :: bs, s, h => by
      rw [outlineAll, partsAll, List.mem_append] at h
      rcases h with h | h
      · exact fits_outline config b s h
      · exact fits_outlineAll config bs s h

lemma fits_outlineChild (config : EngineConfig) : ∀ child : Option (Blueprint L),
    ∀ s ∈ partsAll (outlineChild config child), s.label.2.Fits s.children.length
  | none, s, h => by simp [outlineChild, partsAll] at h
  | some b, s, h => by
      simp only [outlineChild, partsAll, List.append_nil] at h
      exact fits_outline config b s h

lemma length_outlineChild (config : EngineConfig) : ∀ child : Option (Blueprint L),
    (outlineChild config child).length ≤ 1
  | none => by simp [outlineChild]
  | some b => by simp [outlineChild]

end

end Blueprint

/-- What an authored shape becomes has room for the children of the shape. -/
lemma Graph.Realizes.fits {registry : LeafRegistry L} {config : EngineConfig} {shape : GraphShape}
    {kind : NodeKind L} (h : Realizes registry config shape kind) :
    kind.Fits shape.children.length := by
  cases h with
  | root child => cases child <;> simp [NodeKind.Fits, GraphShape.children]
  | decorator rule child => cases child <;> simp [NodeKind.Fits, GraphShape.children]
  | leaf => rfl
  | _ => trivial

namespace Tree

lemma fitted_of_slots {t : Tree L}
    (h : ∀ slot ∈ t.arena, slot.label.kind.Fits slot.children.length) : t.Fitted := by
  intro slot hslot
  obtain ⟨s, hs, rfl⟩ := List.mem_map.mp hslot
  exact (NodeKind.fits_static s.label.kind _).mpr (h s hs)

lemma fitted_of_build {config : EngineConfig} {child : Option (Blueprint L)} {t : Tree L}
    (h : Tree.build config child = .ok t) : t.Fitted := by
  refine fitted_of_slots fun slot hslot => ?_
  obtain ⟨i, hi⟩ := List.mem_iff_getElem?.mp hslot
  rw [arena_of_ofArena h, List.getElem?_zipWith_eq_some] at hi
  obtain ⟨id, s, -, hs, rfl⟩ := hi
  rw [getElem?_layout, Option.map_eq_some_iff] at hs
  obtain ⟨part, hpart, rfl⟩ := hs
  have hmem := List.mem_of_getElem? hpart
  simp only [slotAt, length_roots]
  rw [parts, List.mem_cons] at hmem
  rcases hmem with rfl | hmem
  · exact Blueprint.length_outlineChild config child
  · exact Blueprint.fits_outlineChild config child part hmem

lemma fitted_of_graph {g : Graph} {registry : LeafRegistry L} {config : EngineConfig}
    {built : Graph.Built L} (h : g.build registry config = .ok built) : built.tree.Fitted := by
  obtain ⟨root, -, hexact⟩ := Graph.exact_of_build h
  refine fitted_of_slots fun slot hslot => ?_
  obtain ⟨node, -, -, hkind, -, hchildren⟩ := hexact.authored slot hslot
  have hlen := congrArg List.length hchildren
  rw [List.length_map, List.length_map] at hlen
  exact hlen ▸ hkind.fits

/-- **No tree has more children at a node than there is room for.** -/
theorem Fresh.fitted [Behavior L δ] {t : Tree L} (h : t.Fresh) : t.Fitted := by
  induction h with
  | built config child hbuild => exact fitted_of_build hbuild
  | grown g registry config hbuild => exact fitted_of_graph hbuild
  | @copied t calls hfresh ih =>
      obtain ⟨b, hb⟩ := hfresh.pristine
      have hstatic := (Descends.copied (.performed calls .self)).static_eq hb.toShows
      rwa [Fitted, hstatic]

end Tree

/-! ## The saved nodes -/

section Saved

variable [Behavior L δ]

/-- A node of a nested tree as it is saved. -/
def Branch.saved (s : Branch (Node L)) : GraphNode :=
  ⟨s.label.id, Graph.shapeOf s.label.kind (s.children.map fun t => t.label.id), none⟩

/-- The saved shape has the children for which there is room. -/
lemma Graph.children_shapeOf {kind : NodeKind L} {ids : List NodeId} (h : kind.Fits ids.length) :
    (shapeOf kind ids).children = ids := by
  have hhead : ids.length ≤ 1 → ids.head?.toList = ids := by
    intro hlen
    cases ids with
    | nil => rfl
    | cons id ids =>
        obtain rfl : ids = [] := List.eq_nil_of_length_eq_zero (by simpa using hlen)
        rfl
  cases kind with
  | root => exact hhead h
  | composite => rfl
  | decorator => exact hhead h
  | leaf => exact (List.eq_nil_of_length_eq_zero h).symm

lemma Graph.isRoot_shapeOf (kind : NodeKind L) (ids : List NodeId) :
    (shapeOf kind ids).isRoot = kind.isRoot := by
  cases kind <;> rfl

namespace Tree

variable {t : Tree L} {b s : Branch (Node L)}

/-- **The graph lists the parts of the nested tree in pre-order.** -/
theorem Shows.nodes_ofTree (h : t.Shows b) : (Graph.ofTree t).nodes = b.parts.map saved := by
  refine List.ext_getElem? fun i => ?_
  have hslots : t.arena[i]? = b.parts[i]?.map (slotAt i) := by
    rw [h.arena, getElem?_layout, Nat.zero_add]
  simp only [Graph.ofTree, List.getElem?_map, hslots]
  cases hs : b.parts[i]? with
  | none => rfl
  | some s =>
      have hroots := congrArg (List.map (Option.map Node.id))
        (h.holds_part hs).children.map_getElem?_roots
      have hchildren : (slotAt i s).children.filterMap
          (fun c => t.arena[c]?.map fun slot => slot.label.id) =
            s.children.map fun t => t.label.id := by
        have := congrArg (List.filterMap id) hroots
        simpa [slotAt, List.filterMap_map, Function.comp_def] using this
      simp only [Option.map_some, hchildren]
      rfl

lemma Shows.fits (h : t.Shows b) (hfitted : t.Fitted) (hs : s ∈ b.parts) :
    s.label.kind.Fits s.children.length := by
  obtain ⟨i, hi⟩ := List.mem_iff_getElem?.mp hs
  have hslot := List.mem_of_getElem? (h.holds_part hi).getElem?
  have hfits := hfitted _ (List.mem_map_of_mem hslot)
  rw [slotAt, length_roots] at hfits
  exact (NodeKind.fits_static _ _).mp hfits

/-- The leaf that a part is belongs to the leaves of the tree. -/
lemma Shows.mem_leaves (h : t.Shows b) (hs : s ∈ b.parts) {l : L}
    (hl : s.label.kind.leaf? = some l) : some l ∈ t.leaves := by
  have hlabel : s.label ∈ b.labels := labels_eq_map_parts b ▸ List.mem_map_of_mem hs
  obtain ⟨slot, hslot, heq⟩ := h.exists_of_label hlabel
  exact List.mem_map.mpr ⟨slot, hslot, by rw [heq, hl]⟩

/-- The saved node refers to the children of the part. -/
lemma Shows.children_saved (h : t.Shows b) (hfitted : t.Fitted) (hs : s ∈ b.parts) :
    s.saved.shape.children = s.children.map fun t => t.label.id := by
  refine Graph.children_shapeOf ?_
  rw [List.length_map]
  exact h.fits hfitted hs

/-- The root is the part with its identity, and no other part is one. -/
lemma Shows.isRoot_iff (h : t.Shows b) (hrooted : t.Rooted) (hs : s ∈ b.parts) :
    s.label.kind.isRoot = true ↔ s.label.id = b.label.id := by
  obtain ⟨i, hi⟩ := List.mem_iff_getElem?.mp hs
  have hslot := (h.holds_part hi).getElem?
  refine (hrooted i _ hslot).trans ⟨?_, fun hid => h.eq_of_id hslot h.holds.getElem? hid⟩
  rintro rfl
  have hfirst := h.holds.getElem?
  rw [hslot, Option.some.injEq] at hfirst
  exact congrArg (fun slot => slot.label.id) hfirst

/-- The references among the saved nodes lead to the parts below the root, once to each. -/
lemma Shows.refers_perm (h : t.Shows b) (hfitted : t.Fitted) :
    ((Graph.ofTree t).nodes.flatMap fun node => node.shape.children).Perm
      (idsAll b.children) := by
  rw [h.nodes_ofTree, List.flatMap_map]
  have hrefs : (b.parts.flatMap fun s => s.saved.shape.children) =
      (b.parts.flatMap fun s => s.children.map label).map Node.id := by
    rw [List.map_flatMap]
    refine List.flatMap_congr fun s hs => ?_
    rw [h.children_saved hfitted hs, List.map_map]
    rfl
  rw [hrefs]
  exact (children_perm_labels b).map Node.id

end Tree

namespace Graph

variable {t : Tree L} {b : Branch (Node L)} {registry : LeafRegistry L}

/-- **A tree saves as a well formed graph.** -/
theorem wellFormed_ofTree (h : t.Shows b) (hrooted : t.Rooted) (hfitted : t.Fitted)
    (hnames : ∀ l, some l ∈ t.leaves → registry.contains (Behavior.name l) = true) :
    (ofTree t).WellFormed registry b.label.id := by
  have hnodes := h.nodes_ofTree
  have hperm := h.refers_perm hfitted
  have hids : b.ids = b.label.id :: idsAll b.children := by
    obtain ⟨n, ts⟩ := b
    rfl
  have hnodup := h.nodup
  rw [hids, List.nodup_cons] at hnodup
  constructor
  case ids =>
    have hmap : (ofTree t).nodes.map GraphNode.id = b.ids := by
      rw [hnodes, ids, labels_eq_map_parts, List.map_map, List.map_map]
      rfl
    exact hmap ▸ h.nodup
  case root_mem => exact ⟨b.saved, hnodes ▸ List.mem_map_of_mem b.self_mem_parts, rfl⟩
  case isRoot_iff =>
    intro node hnode
    rw [hnodes] at hnode
    obtain ⟨s, hs, rfl⟩ := List.mem_map.mp hnode
    rw [saved, isRoot_shapeOf]
    exact h.isRoot_iff hrooted hs
  case resolves =>
    intro node hnode child hchild
    have hbelow := hperm.mem_iff.mp (List.mem_flatMap.mpr ⟨node, hnode, hchild⟩)
    rw [hnodes] at hnode
    obtain ⟨s, hs, rfl⟩ := List.mem_map.mp hnode
    rw [h.children_saved hfitted hs] at hchild
    obtain ⟨u, hu, rfl⟩ := List.mem_map.mp hchild
    have hpart := mem_parts_of_children hs hu
    refine ⟨u.saved, hnodes ▸ List.mem_map_of_mem hpart, rfl, ?_⟩
    rw [saved, isRoot_shapeOf, Bool.eq_false_iff]
    intro hroot
    rw [(h.isRoot_iff hrooted hpart).mp hroot] at hbelow
    exact hnodup.1 hbelow
  case single => exact hperm.nodup_iff.mpr hnodup.2
  case named =>
    intro node hnode name hname
    rw [hnodes] at hnode
    obtain ⟨s, hs, rfl⟩ := List.mem_map.mp hnode
    cases hkind : s.label.kind with
    | leaf l =>
        rw [saved, hkind] at hname
        cases hname
        exact hnames l (h.mem_leaves hs (by rw [hkind]; rfl))
    | _ =>
        rw [saved, hkind] at hname
        cases hname

end Graph

/-! ## The rebuilt tree -/

/-- The kind rewound, with a leaf made anew by its name. -/
def NodeKind.remade (registry : LeafRegistry L) : NodeKind L → NodeKind L
  | .leaf l => .leaf ((registry.create? (Behavior.name l)).getD l)
  | kind => kind.rewind

/-- The node made anew. -/
def Node.remade (registry : LeafRegistry L) (n : Node L) : Node L :=
  .fresh n.id (n.kind.remade registry)

/-- The leaf stands in the registry by its name, and what is made by it has that name again. -/
def LeafRegistry.Remakes (registry : LeafRegistry L) (l : L) : Prop :=
  ∃ made, registry.create? (Behavior.name l) = some made ∧ Behavior.name made = Behavior.name l

/-- The registry knows every leaf of the tree by its name. -/
def Tree.Named (t : Tree L) (registry : LeafRegistry L) : Prop :=
  ∀ l, some l ∈ t.leaves → registry.Remakes l

namespace Graph

variable {t : Tree L} {b s : Branch (Node L)} {registry : LeafRegistry L} {config : EngineConfig}

lemma realizes_remade {kind : NodeKind L} (ids : List NodeId)
    (h : ∀ l, kind.leaf? = some l → registry.Remakes l) :
    Realizes registry config (shapeOf kind ids) (kind.remade registry) := by
  cases kind with
  | root => exact .root _
  | composite kind cascade => exact .ownFlag kind ids cascade
  | decorator rule => exact .decorator rule _
  | leaf l =>
      obtain ⟨made, hmade, -⟩ := h l rfl
      rw [NodeKind.remade, hmade]
      exact .leaf hmade

/-- **Going down from a node of the graph leads to the part, made anew.** -/
theorem unfolds_ofTree (h : t.Shows b) (hfitted : t.Fitted) (hnamed : t.Named registry)
    (hs : s ∈ b.parts) :
    (ofTree t).Unfolds registry config s.label.id (s.map (Node.remade registry)) := by
  induction s with
  | node n ts ih =>
      have hnode : (node n ts).saved ∈ (ofTree t).nodes :=
        h.nodes_ofTree ▸ List.mem_map_of_mem hs
      have hchildren := h.children_saved hfitted hs
      have hkind : Realizes registry config (node n ts).saved.shape (n.kind.remade registry) :=
        realizes_remade _ fun l hl => hnamed l (h.mem_leaves hs hl)
      have hbelow : List.Forall₂ ((ofTree t).Unfolds registry config)
          (node n ts).saved.shape.children (ts.map (map (Node.remade registry))) := by
        rw [hchildren, children_node, List.forall₂_map_left_iff, List.forall₂_map_right_iff,
          List.forall₂_same]
        exact fun u hu => ih u hu (mem_parts_of_children hs hu)
      rw [map_node]
      exact .node hnode hkind hbelow

/-- Going down from the root leads to one tree alone: it is the one that is written down without a
record of the nodes above. -/
lemma Unfolds.unique {g : Graph} {root : NodeId} {c d : Branch (Node L)}
    (hids : (g.nodes.map GraphNode.id).Nodup) (hc : g.Unfolds registry config root c)
    (hd : g.Unfolds registry config root d) : Tree.ofBranch d = Tree.ofBranch c := by
  obtain ⟨n, hn, -, -, rfl, -⟩ := hc.inversion
  have hc' := emit_of_unfolds hids (c.size + d.size) hc hn (by omega) []
  have hd' := emit_of_unfolds hids (c.size + d.size) hd hn (by omega) []
  rw [hc', Except.ok.injEq] at hd'
  have hlayout : c.layout 0 = d.layout 0 := congrArg Prod.snd hd'
  rw [Tree.ofBranch, Tree.ofBranch, hlayout]

/-- **A saved tree is built again, without dropping a node.** -/
theorem build_ofTree (h : t.Shows b) (hrooted : t.Rooted) (hfitted : t.Fitted)
    (hnamed : t.Named registry) :
    (ofTree t).build registry config = .ok ⟨.ofBranch (b.map (Node.remade registry)), []⟩ := by
  have hwell : (ofTree t).WellFormed registry b.label.id := by
    refine wellFormed_ofTree h hrooted hfitted fun l hl => ?_
    obtain ⟨made, hmade, -⟩ := hnamed l hl
    rw [LeafRegistry.contains, hmade]
    rfl
  obtain ⟨c, hc, hbuild⟩ : ∃ c, (ofTree t).Unfolds registry config b.label.id c ∧
      (ofTree t).build registry config =
        .ok ⟨.ofBranch c, (ofTree t).dropped (Tree.ofBranch c)⟩ := exists_build hwell
  have hunique := hc.unique hwell.ids (unfolds_ofTree h hfitted hnamed b.self_mem_parts)
  rw [← hunique] at hbuild
  have hcounted := length_dropped hwell hc
  rw [← hunique, h.nodes_ofTree, List.length_map, length_parts] at hcounted
  have hsize : (Tree.ofBranch (b.map (Node.remade registry))).size = b.size := by
    rw [Tree.size, Tree.ofBranch, length_layout, size_map]
  have hdropped : (ofTree t).dropped (Tree.ofBranch (b.map (Node.remade registry))) = [] :=
    List.eq_nil_of_length_eq_zero (by omega)
  rw [hbuild, hdropped]

end Graph

/-! ## Names -/

/-- The leaf keeps its name, whatever its hooks make of it. -/
def Behavior.KeepsName (l : L) : Prop :=
  ∀ l', ReflTransGen Behavior.Hooked l l' → Behavior.name l' = Behavior.name l

/-- The nodes have the same static fields, and the same name if they are leaves. -/
structure Node.Namesake (n n' : Node L) : Prop where
  static : n'.static = n.static
  name : n'.kind.leafName? = n.kind.leafName?

lemma Node.Namesake.shapeOf_eq {n n' : Node L} (h : n.Namesake n') (ids : List NodeId) :
    Graph.shapeOf n'.kind ids = Graph.shapeOf n.kind ids := by
  have hkind := kind_eq_of_static h.static
  have hname := h.name
  obtain ⟨id, kind, state⟩ := n
  obtain ⟨id', kind', state'⟩ := n'
  simp only at hkind hname ⊢
  cases kind <;> cases kind' <;> simp_all [NodeKind.static, NodeKind.leafName?, Graph.shapeOf]

namespace Node

variable {registry : LeafRegistry L}

lemma static_remade (n : Node L) : (n.remade registry).static = n.static := by
  obtain ⟨id, kind, state⟩ := n
  cases kind <;> rfl

lemma pristine_remade (n : Node L) : (n.remade registry).pristine = n.remade registry := by
  obtain ⟨id, kind, state⟩ := n
  cases kind <;> rfl

lemma namesake_remade {n : Node L} (h : ∀ l, n.kind.leaf? = some l → registry.Remakes l) :
    n.Namesake (n.remade registry) := by
  refine ⟨n.static_remade, ?_⟩
  obtain ⟨id, kind, state⟩ := n
  cases kind with
  | leaf l =>
      obtain ⟨made, hmade, hname⟩ := h l rfl
      simp only [remade, fresh, NodeKind.remade, hmade, Option.getD_some, NodeKind.leafName?, hname]
  | _ => rfl

end Node

namespace Tree

variable {template t : Tree L} {b : Branch (Node L)}

/-- A leaf comes of the one that stood there in the template, by its hooks. -/
lemma Descends.hooked (hd : template.Descends t) (h : template.Shows b) {i : Nat}
    {first now : Slot (Node L)} {l l' : L} (hfirst : template.arena[i]? = some first)
    (hl : first.label.kind.leaf? = some l) (hnow : t.arena[i]? = some now)
    (hl' : now.label.kind.leaf? = some l') : ReflTransGen Behavior.Hooked l l' := by
  induction hd generalizing now l' with
  | self =>
      rw [hfirst, Option.some.injEq] at hnow
      subst hnow
      rw [hl, Option.some.injEq] at hl'
      exact hl' ▸ .refl
  | @performed t calls hd ih =>
      obtain ⟨c, hc, hstatic⟩ := hd.exists_shows h
      obtain ⟨d, hd', hsteps⟩ := hc.performAll calls
      have hlasting : Lasting (δ := δ) fun n : Node L => ∀ l', n.kind.leaf? = some l' →
          n.id = first.label.id → ReflTransGen Behavior.Hooked l l' :=
        lasting_of_hooked
          (Q := fun id l' => id = first.label.id → ReflTransGen Behavior.Hooked l l')
          fun _ _ _ hhook hold hid => (hold hid).tail hhook
      have hbefore : ∀ slot ∈ t.arena, ∀ l', slot.label.kind.leaf? = some l' →
          slot.label.id = first.label.id → ReflTransGen Behavior.Hooked l l' := by
        intro slot hslot l' hl' hid
        obtain ⟨j, hj⟩ := List.mem_iff_getElem?.mp hslot
        obtain ⟨there, hthere, heq, -⟩ := h.exists_slot hc hstatic hfirst
        obtain rfl := hc.eq_of_id hj hthere (hid.trans (Node.id_eq_of_static heq).symm)
        exact ih hj hl'
      obtain ⟨there, hthere, heq, -⟩ := h.exists_slot hd' (hsteps.map_static.trans hstatic) hfirst
      rw [hnow, Option.some.injEq] at hthere
      subst hthere
      exact hlasting.performAll hbefore calls now (List.mem_of_getElem? hnow) l' hl'
        (Node.id_eq_of_static heq)
  | copied hd ih =>
      obtain ⟨c, hc, -⟩ := hd.exists_shows h
      rw [hc.arena_instantiate, Arena.relabelAll, List.getElem?_map, Option.map_eq_some_iff] at hnow
      obtain ⟨slot, hslot, rfl⟩ := hnow
      exact ih hslot (by rwa [Node.kind_pristine, NodeKind.leaf?_rewind] at hl')

/-- **Whatever a tree has been through, its nodes are namesakes of those of its template**, if its
leaves keep their names. -/
theorem Descends.related_namesake (hd : template.Descends t) (h : template.Shows b)
    (hnames : ∀ l, some l ∈ template.leaves → Behavior.KeepsName l) :
    template.arena.Related Node.Namesake t.arena := by
  have hrelated := related_of_static (hd.static_eq h)
  refine ⟨hrelated.children, fun i first now hfirst hnow => ?_⟩
  have heq := hrelated.nodes i first now hfirst hnow
  refine ⟨heq, ?_⟩
  have hkind := Node.kind_eq_of_static heq
  cases hl : first.label.kind with
  | leaf l =>
      obtain ⟨l', hl'⟩ : ∃ l', now.label.kind = .leaf l' := by
        rw [hl] at hkind
        cases hnow : now.label.kind with
        | leaf l' => exact ⟨l', rfl⟩
        | _ => rw [hnow] at hkind; cases hkind
      have hmem : some l ∈ template.leaves :=
        List.mem_map.mpr ⟨first, List.mem_of_getElem? hfirst, by rw [hl]; rfl⟩
      have hhooked := hd.hooked h hfirst (by rw [hl]; rfl) hnow (by rw [hl']; rfl)
      rw [hl']
      exact congrArg some (hnames l hmem l' hhooked)
  | _ =>
      rw [hl] at hkind
      cases hnow : now.label.kind with
      | leaf l' => rw [hnow] at hkind; cases hkind
      | _ => rfl

/-- **A tree saves as its template does**, if its leaves keep their names. -/
theorem Descends.ofTree_eq (hd : template.Descends t) (h : template.Shows b)
    (hnames : ∀ l, some l ∈ template.leaves → Behavior.KeepsName l) :
    Graph.ofTree t = Graph.ofTree template :=
  Graph.ofTree_of_related (hd.related_namesake h hnames) fun _ _ hnamesake =>
    ⟨Node.id_eq_of_static hnamesake.static, hnamesake.shapeOf_eq⟩

end Tree

/-! ## Building again -/

/-- What it is to build again a tree that was saved. -/
structure Graph.Rebuilds (registry : LeafRegistry L) (t : Tree L) (built : Built L) : Prop where
  build : ∀ config, (ofTree t).build registry config = .ok built
  dropped : built.dropped = []
  /-- The rebuilt tree looks like a copy of the tree. -/
  snapshot : built.tree.snapshot = t.instantiate.snapshot
  /-- The identities, the rules, the cascade flags and the references to children are the same at
  every position. -/
  static : built.tree.static = t.static
  saved : ofTree built.tree = ofTree t

namespace Tree

variable {template : Tree L} {registry : LeafRegistry L}

/-- **A tree that was saved is built again**, in the same way whatever it has been through and with
whatever configuration.  No node is dropped, and the rebuilt tree looks like a copy of the tree and
saves as the same graph. -/
theorem Fresh.rebuilds (h : template.Fresh)
    (hnames : ∀ l, some l ∈ template.leaves → Behavior.KeepsName l)
    (hnamed : template.Named registry) :
    ∃ built : Graph.Built L, ∀ t, template.Descends t → Graph.Rebuilds registry t built := by
  obtain ⟨b, hb⟩ := h.pristine
  set tree := Tree.ofBranch (b.map (Node.remade registry)) with htree
  have harena : tree.arena = template.arena.relabelAll (Node.remade registry) := by
    rw [htree, ofBranch, layout_map, ← hb.arena]
    rfl
  have hstatic : tree.static = template.static := static_of_relabelAll harena Node.static_remade
  have hremade : tree.Pristine (b.map (Node.remade registry)) := by
    have hshows := hb.toShows.of_static (map_static_map Node.static_remade b) (u := tree) rfl
    refine ⟨hshows, fun n hn => ?_, rfl, rfl⟩
    obtain ⟨m, -, rfl⟩ := mem_labels_map.mp hn
    exact m.pristine_remade
  have hnamesakes : template.arena.Related Node.Namesake tree.arena := by
    rw [harena]
    refine Arena.related_relabelAll fun slot hslot => Node.namesake_remade fun l hl => ?_
    exact hnamed l (hl ▸ List.mem_map_of_mem hslot)
  refine ⟨⟨tree, []⟩, fun t hd => ?_⟩
  have heq := hd.ofTree_eq hb.toShows hnames
  obtain ⟨c, hc, -⟩ := hd.exists_shows hb.toShows
  have hcopy := static_of_relabelAll hc.arena_instantiate Node.static_pristine
  constructor
  case build =>
    intro config
    rw [heq]
    exact Graph.build_ofTree hb.toShows h.rooted h.fitted hnamed
  case dropped => rfl
  case snapshot =>
    rw [hremade.snapshot_eq, hc.instantiate.snapshot_eq, hcopy, hstatic, hd.static_eq hb.toShows]
  case static => rw [hstatic, hd.static_eq hb.toShows]
  case saved =>
    rw [heq]
    exact Graph.ofTree_of_related hnamesakes fun _ _ hnamesake =>
      ⟨Node.id_eq_of_static hnamesake.static, hnamesake.shapeOf_eq⟩

/-- The constant leaves stay as they are, and the standard registry knows them all. -/
theorem rebuilds_mid_run :
    let template : Tree Constant := ofBranch (.node (.fresh ⟨0⟩ .root)
      [.node (.fresh ⟨1⟩ (.composite .sequence false 0))
        [.node (.fresh ⟨2⟩ (.decorator .invert false)) [.node (.fresh ⟨3⟩ (.leaf .fail)) []],
          .node (.fresh ⟨4⟩ (.leaf .running)) []]])
    let t := (template.instantiate.performAll [.start, .update (), .update ()]).1
    let registry := LeafRegistry.standard id
    Tree.build .standard (some (.withCascade false (.sequence
        [.decorate .invert (.leaf none Constant.fail), .leaf none .running]))) = .ok template ∧
      t.snapshot.map Snapshot.cursor = [none, some 1, none, none, none] ∧
      (∀ l, some l ∈ template.leaves → Behavior.KeepsName l) ∧ template.Named registry ∧
      ∃ built, Graph.Rebuilds registry template built ∧ Graph.Rebuilds registry t built := by
  intro template t registry
  have hbuild : Tree.build .standard (some (.withCascade false (.sequence
      [.decorate .invert (.leaf none Constant.fail), .leaf none .running]))) = .ok template := rfl
  have hkeeps : ∀ l, some l ∈ template.leaves → Behavior.KeepsName l := by
    intro l _ l' hl'
    induction hl' with
    | refl => rfl
    | tail _ hhook ih => cases hhook <;> exact ih
  have hnamed : template.Named registry := by
    intro l _
    cases l <;> exact ⟨_, rfl, rfl⟩
  obtain ⟨built, hbuilt⟩ := (Fresh.built .standard _ hbuild).rebuilds hkeeps hnamed
  exact ⟨hbuild, by decide +kernel, hkeeps, hnamed, built, hbuilt _ .self,
    hbuilt _ (.performed _ (.copied .self))⟩

end Tree

end Saved

end BehaviorTree
