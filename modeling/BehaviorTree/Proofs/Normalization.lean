import BehaviorTree.Proofs.Export

/-!
# Building a graph and saving the tree again

A graph may list its nodes in any order, among them nodes that its root does not reach, with places
on the canvas and with cascade flags left to the configuration.  The template that is built of it
saves as the **normal form** of the graph: the nodes that the root reaches, in depth-first
pre-order, without places and with every flag written out.

* `Graph.Preorder` — what going down from some nodes meets, in order.  `Preorder.unique`: there is
  one answer.
* `GraphNode.normalize` — a node without its place, its flag written out.  `saved_of_unfolds`: this
  is how a node of the built tree is saved.
* `Graph.Normal` — the graphs that are their own normal form.
* **`ofTree_of_build`** — what is built of a graph saves as its normal form; on a graph in normal
  form, building and saving change nothing.
-/

namespace BehaviorTree

open Branch

variable {L δ : Type}

/-! ## Normal forms -/

/-- The shape with its cascade flag written out. -/
def GraphShape.normalize (config : EngineConfig) : GraphShape → GraphShape
  | composite kind children cascade =>
    composite kind children (some (cascade.getD config.defaultCascade))
  | shape => shape

/-- The node without its place on the canvas, its cascade flag written out. -/
def GraphNode.normalize (config : EngineConfig) (n : GraphNode) : GraphNode :=
  ⟨n.id, n.shape.normalize config, none⟩

/-- A composite says whether it cascades. -/
def GraphShape.Explicit : GraphShape → Prop
  | composite _ _ cascade => cascade.isSome = true
  | _ => True

namespace Graph

/-- The nodes that going down from some nodes, one after the other, meets in depth-first pre-order:
each of them, followed by what its children lead to. -/
inductive Preorder (g : Graph) : List NodeId → List GraphNode → Prop
  | nil : Preorder g [] []
  | cons {n : GraphNode} {ids : List NodeId} {below rest : List GraphNode} :
    n ∈ g.nodes → Preorder g n.shape.children below → Preorder g ids rest →
    Preorder g (n.id :: ids) (n :: (below ++ rest))

/-- The graph lists its nodes as going down from the root meets them; none of them has a place, and
every flag is written out. -/
structure Normal (g : Graph) (root : NodeId) : Prop where
  preorder : g.Preorder [root] g.nodes
  layout : ∀ n ∈ g.nodes, n.layout = none
  explicit : ∀ n ∈ g.nodes, n.shape.Explicit

end Graph

/-- Every leaf of the registry has the name under which it is registered. -/
def LeafRegistry.Faithful [Behavior L δ] (registry : LeafRegistry L) : Prop :=
  ∀ name l, registry.create? name = some l → Behavior.name l = name

/-- The constant leaves are registered under their own names. -/
lemma LeafRegistry.faithful_standard : (standard id : LeafRegistry Constant).Faithful := by
  intro name l h
  simp only [standard, List.foldl_cons, List.foldl_nil, create?_register] at h
  split_ifs at h with hrunning hfail hsucceed
  · cases h
    exact hrunning
  · cases h
    exact hfail
  · cases h
    exact hsucceed
  · simp [empty, create?] at h

section Normalize

variable {config : EngineConfig}

@[simp] lemma GraphShape.children_normalize (shape : GraphShape) :
    (shape.normalize config).children = shape.children := by
  cases shape <;> rfl

lemma GraphShape.explicit_normalize (shape : GraphShape) : (shape.normalize config).Explicit := by
  cases shape <;> simp [normalize, Explicit]

lemma GraphShape.normalize_of_explicit {shape : GraphShape} (h : shape.Explicit) :
    shape.normalize config = shape := by
  cases shape with
  | composite kind children cascade =>
      cases cascade with
      | none => simp [Explicit] at h
      | some cascade => rfl
  | _ => rfl

lemma GraphNode.normalize_eq_self {n : GraphNode} (hlayout : n.layout = none)
    (hexplicit : n.shape.Explicit) : n.normalize config = n := by
  obtain ⟨id, shape, layout⟩ := n
  simp only at hlayout hexplicit
  rw [normalize, GraphShape.normalize_of_explicit hexplicit, hlayout]

end Normalize

/-! ## Depth-first pre-order -/

namespace Graph

variable {g h : Graph} {ids : List NodeId} {nodes : List GraphNode}

lemma Preorder.mem (hnodes : g.Preorder ids nodes) : ∀ n ∈ nodes, n ∈ g.nodes := by
  induction hnodes with
  | nil => simp
  | cons hn _ _ ihbelow ihrest =>
      intro m hm
      rw [List.mem_cons, List.mem_append] at hm
      rcases hm with rfl | hm | hm
      · exact hn
      · exact ihbelow m hm
      · exact ihrest m hm

/-- What is met first of all is the first node, and then what it leads to. -/
lemma Preorder.append {more : List NodeId} {others : List GraphNode}
    (hnodes : g.Preorder ids nodes) (hothers : g.Preorder more others) :
    g.Preorder (ids ++ more) (nodes ++ others) := by
  induction hnodes with
  | nil => exact hothers
  | cons hn hbelow _ _ ihrest =>
      rw [List.cons_append, List.cons_append, List.append_assoc]
      exact .cons hn hbelow ihrest

/-- **Going down meets the same nodes every time**, if no identity is used twice. -/
theorem Preorder.unique (hids : (g.nodes.map GraphNode.id).Nodup)
    (hnodes : g.Preorder ids nodes) {nodes' : List GraphNode} (hnodes' : g.Preorder ids nodes') :
    nodes = nodes' := by
  induction hnodes generalizing nodes' with
  | nil =>
      cases hnodes'
      rfl
  | @cons n ids below rest hn hbelow hrest ihbelow ihrest =>
      generalize hhead : n.id = id at hnodes'
      cases hnodes' with
      | cons hn' hbelow' hrest' =>
          obtain rfl := eq_of_id hids hn hn' hhead
          rw [ihbelow hbelow', ihrest hrest']

/-- Normalizing the nodes keeps the order in which they are met. -/
lemma Preorder.normalize {config : EngineConfig} (hnodes : g.Preorder ids nodes)
    (hmem : ∀ n ∈ nodes, n.normalize config ∈ h.nodes) :
    h.Preorder ids (nodes.map (GraphNode.normalize config)) := by
  induction hnodes with
  | nil => exact .nil
  | @cons n ids below rest hn _ _ ihbelow ihrest =>
      rw [List.map_cons, List.map_append]
      have hbelow := ihbelow fun m hm => hmem m (by simp [hm])
      have hrest := ihrest fun m hm => hmem m (by simp [hm])
      refine Preorder.cons (n := n.normalize config) (hmem n (by simp)) ?_ hrest
      rwa [GraphNode.normalize, GraphShape.children_normalize]

/-! ## The saved nodes of a built tree -/

section Saved

variable [Behavior L δ] {registry : LeafRegistry L} {config : EngineConfig}

/-- What a shape becomes is saved as the shape in normal form. -/
lemma Realizes.shapeOf_eq (hnamed : registry.Faithful) {shape : GraphShape} {kind : NodeKind L}
    (hkind : Realizes registry config shape kind) :
    shapeOf kind shape.children = shape.normalize config := by
  cases hkind with
  | root child => cases child <;> rfl
  | ownFlag => rfl
  | defaultFlag => rfl
  | decorator rule child => cases child <;> rfl
  | leaf hleaf => exact congrArg GraphShape.leaf (hnamed _ _ hleaf)

lemma saved_of_unfolds_all {ts : List (Branch (Node L))}
    (ih : ∀ t ∈ ts, ∀ id, g.Unfolds registry config id t →
      ∃ nodes, g.Preorder [id] nodes ∧ t.parts.map saved = nodes.map (GraphNode.normalize config))
    (hts : List.Forall₂ (g.Unfolds registry config) ids ts) :
    ∃ nodes, g.Preorder ids nodes ∧
      (partsAll ts).map saved = nodes.map (GraphNode.normalize config) := by
  induction hts with
  | nil => exact ⟨[], .nil, rfl⟩
  | @cons id t ids ts ht _ ihs =>
      obtain ⟨first, hfirst, hsaved⟩ := ih t List.mem_cons_self id ht
      obtain ⟨rest, hrest, hsaveds⟩ := ihs fun u hu => ih u (List.mem_cons_of_mem _ hu)
      refine ⟨first ++ rest, hfirst.append hrest, ?_⟩
      rw [partsAll, List.map_append, hsaved, hsaveds, List.map_append]

/-- **The parts of a tree that unfolds a graph are saved as the nodes that going down meets**, in
normal form and in the same order. -/
theorem saved_of_unfolds (hnamed : registry.Faithful) {b : Branch (Node L)} {id : NodeId}
    (hb : g.Unfolds registry config id b) :
    ∃ nodes, g.Preorder [id] nodes ∧
      b.parts.map saved = nodes.map (GraphNode.normalize config) := by
  induction b generalizing id with
  | node n ts ih =>
      obtain ⟨node, hnode, kind, ts, rfl, heq, hkind, hts⟩ := hb.inversion
      cases heq
      obtain ⟨below, hbelow, hsaved⟩ := saved_of_unfolds_all (fun t ht id => ih t ht) hts
      have hpreorder := Preorder.cons hnode hbelow .nil
      refine ⟨node :: (below ++ []), hpreorder, ?_⟩
      have hshape := hkind.shapeOf_eq hnamed
      rw [parts, List.map_cons, hsaved, List.append_nil, List.map_cons, saved, children_node,
        map_id_of_unfolds hts]
      simp only [label_node, Node.fresh, hshape, GraphNode.normalize]

end Saved

/-! ## Building and saving -/

variable [Behavior L δ] {registry : LeafRegistry L} {config : EngineConfig} {built : Built L}

/-- **The template that is built of a graph saves as the normal form of the graph**: the nodes that
the root reaches, each of them once, in depth-first pre-order, without places and with the flags
that they have or get from the configuration.  A graph in normal form is saved as it was. -/
theorem ofTree_of_build (hnamed : registry.Faithful)
    (hbuild : g.build registry config = .ok built) :
    ∃ root nodes, g.validate registry = .ok root ∧ g.Preorder [root] nodes ∧ nodes.Nodup ∧
      (∀ n, n ∈ nodes ↔ n ∈ g.nodes ∧ g.Reaches root n.id) ∧
      ofTree built.tree = ⟨nodes.map (GraphNode.normalize config)⟩ ∧
      (ofTree built.tree).Normal root ∧ (g.Normal root → ofTree built.tree = g) := by
  obtain ⟨root, hwell, hexact⟩ := exact_of_build hbuild
  obtain ⟨b, hb, htree⟩ := hexact.tree
  have hshows : built.tree.Shows b := ⟨congrArg Tree.arena htree, nodup_ids_of_unfolds hwell hb⟩
  obtain ⟨nodes, hnodes, hmap⟩ := saved_of_unfolds hnamed hb
  have hsaved : ofTree built.tree = ⟨nodes.map (GraphNode.normalize config)⟩ := by
    rw [← hmap, ← hshows.nodes_ofTree]
  have hids : nodes.map GraphNode.id = b.ids := by
    have hmap' := congrArg (List.map GraphNode.id) hmap
    rw [List.map_map, List.map_map] at hmap'
    rw [ids, labels_eq_map_parts, List.map_map]
    exact hmap'.symm
  refine ⟨root, nodes, validate_eq_ok_iff.mpr hwell, hnodes, ?_, ?_, hsaved, ?_, ?_⟩
  · have hnodup := hshows.nodup
    rw [← hids] at hnodup
    exact hnodup.of_map
  · intro n
    constructor
    · intro hn
      refine ⟨hnodes.mem n hn, (mem_ids_iff_reaches hwell hb).mp ?_⟩
      rw [← hids]
      exact List.mem_map_of_mem hn
    · rintro ⟨hn, hreaches⟩
      have hmem := (mem_ids_iff_reaches hwell hb).mpr hreaches
      rw [← hids, List.mem_map] at hmem
      obtain ⟨m, hm, heq⟩ := hmem
      rwa [← eq_of_id hwell.ids (hnodes.mem m hm) hn heq]
  · rw [hsaved]
    constructor
    case preorder => exact hnodes.normalize fun n hn => List.mem_map_of_mem hn
    case layout =>
      intro n hn
      obtain ⟨m, -, rfl⟩ := List.mem_map.mp hn
      rfl
    case explicit =>
      intro n hn
      obtain ⟨m, -, rfl⟩ := List.mem_map.mp hn
      exact m.shape.explicit_normalize
  · intro hnormal
    have heq := hnodes.unique hwell.ids hnormal.preorder
    have hself : nodes.map (GraphNode.normalize config) = nodes := by
      refine (List.map_congr_left fun n hn => ?_).trans (List.map_id nodes)
      rw [heq] at hn
      exact GraphNode.normalize_eq_self (hnormal.layout n hn) (hnormal.explicit n hn)
    rw [hsaved, hself, heq]

/-- The nodes are listed out of order, two of them refer to each other, one decorator has no child,
and two leaves share a name. -/
theorem ofTree_of_build_beside_cycle :
    let sequence : GraphNode :=
      ⟨⟨1⟩, .composite .sequence [⟨3⟩, ⟨2⟩, ⟨4⟩] none, some (⟨0⟩, ⟨0x3f800000⟩)⟩
    let g : Graph := ⟨[⟨⟨2⟩, .decorator .invert none, none⟩,
      ⟨⟨9⟩, .decorator .invert (some ⟨8⟩), none⟩, ⟨⟨0⟩, .root (some ⟨1⟩), none⟩,
      ⟨⟨8⟩, .decorator .invert (some ⟨9⟩), none⟩, sequence, ⟨⟨4⟩, .leaf "fail", none⟩,
      ⟨⟨3⟩, .leaf "fail", none⟩]⟩
    let registry := LeafRegistry.standard id
    registry.Faithful ∧ ∃ built, g.build registry .standard = .ok built ∧
      (ofTree built.tree).Normal ⟨0⟩ ∧
      (ofTree built.tree).nodes = [⟨⟨0⟩, .root (some ⟨1⟩), none⟩,
        ⟨⟨1⟩, .composite .sequence [⟨3⟩, ⟨2⟩, ⟨4⟩] (some true), none⟩,
        ⟨⟨3⟩, .leaf "fail", none⟩, ⟨⟨2⟩, .decorator .invert none, none⟩,
        ⟨⟨4⟩, .leaf "fail", none⟩] := by
  intro sequence g registry
  have hnamed : registry.Faithful := LeafRegistry.faithful_standard
  have hvalid : g.validate registry = .ok ⟨0⟩ := rfl
  obtain ⟨built, hbuild, -⟩ := (build_exact g registry .standard).1 ⟨0⟩ hvalid
  obtain ⟨root, nodes, hroot, hnodes, -, -, hsaved, hnormal, -⟩ := ofTree_of_build hnamed hbuild
  rw [hvalid, Except.ok.injEq] at hroot
  subst hroot
  refine ⟨hnamed, built, hbuild, hnormal, ?_⟩
  have hbelow : g.Preorder [⟨3⟩, ⟨2⟩, ⟨4⟩] [g.nodes[6], g.nodes[0], g.nodes[5]] :=
    .cons (n := g.nodes[6]) (by decide) .nil (.cons (n := g.nodes[0]) (by decide) .nil
      (.cons (n := g.nodes[5]) (by decide) .nil .nil))
  have hmet : g.Preorder [⟨0⟩] [g.nodes[2], sequence, g.nodes[6], g.nodes[0], g.nodes[5]] :=
    .cons (n := g.nodes[2]) (by decide) (.cons (n := sequence) (by decide) hbelow .nil) .nil
  have heq := hnodes.unique (by decide) hmet
  rw [hsaved, heq]
  rfl

end Graph

end BehaviorTree
