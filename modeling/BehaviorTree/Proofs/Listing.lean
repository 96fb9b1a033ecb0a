import BehaviorTree.Proofs.Export

/-!
# Graphs that list the same nodes in another order

A graph is a set of nodes that refer to each other, written down as a list.  What is required of it
is required of the set (`WellFormed.perm`), and going down from the root follows the references
alone (`Unfolds.mono`), so the template does not depend on the order of the list.  Two things do:
which of several defects is the first one, and the order in which the dropped nodes are named.

* **`build_perm`** — graphs that list the same nodes are built alike.
-/

namespace BehaviorTree.Graph

open Branch

variable {L : Type} {g h : Graph} {registry : LeafRegistry L} {config : EngineConfig}
  {root : NodeId}

/-- **What is required of a graph is not required of the order of its nodes.** -/
theorem WellFormed.perm (hwell : g.WellFormed registry root) (hperm : g.nodes.Perm h.nodes) :
    h.WellFormed registry root where
  ids := (hperm.map GraphNode.id).nodup_iff.mp hwell.ids
  root_mem := by
    obtain ⟨node, hnode, hid⟩ := hwell.root_mem
    exact ⟨node, hperm.mem_iff.mp hnode, hid⟩
  isRoot_iff node hnode := hwell.isRoot_iff node (hperm.mem_iff.mpr hnode)
  resolves node hnode child hchild := by
    obtain ⟨target, htarget, hresolved⟩ :=
      hwell.resolves node (hperm.mem_iff.mpr hnode) child hchild
    exact ⟨target, hperm.mem_iff.mp htarget, hresolved⟩
  single := (hperm.flatMap_right _).nodup_iff.mp hwell.single
  named node hnode := hwell.named node (hperm.mem_iff.mpr hnode)

lemma wellFormed_perm_iff (hperm : g.nodes.Perm h.nodes) :
    g.WellFormed registry root ↔ h.WellFormed registry root :=
  ⟨fun hwell => hwell.perm hperm, fun hwell => hwell.perm hperm.symm⟩

/-- What a graph unfolds to, every graph unfolds to that has its nodes among others. -/
lemma Unfolds.mono (hnodes : g.nodes ⊆ h.nodes) {b : Branch (Node L)} {id : NodeId}
    (hb : g.Unfolds registry config id b) : h.Unfolds registry config id b := by
  induction b generalizing id with
  | node n ts ih =>
      cases hb with
      | node hnode hkind hts =>
          have hbelow := (List.forall₂_and_left (p := fun t => ∀ id,
            g.Unfolds registry config id t → h.Unfolds registry config id t) ts _).mpr
              ⟨fun t ht id => ih t ht, hts.flip⟩
          exact .node (hnodes hnode) hkind (hbelow.imp fun t id ht => ht.1 id ht.2).flip

/-- How two graphs are built that list the same nodes. -/
structure BuiltAlike (g h : Graph) (registry : LeafRegistry L) (config : EngineConfig) : Prop where
  /-- They are accepted alike, with one root. -/
  accepted : ∀ root, g.validate registry = .ok root ↔ h.validate registry = .ok root
  /-- A template is made of both or of neither. -/
  builds : (∃ built, g.build registry config = .ok built) ↔
    ∃ built, h.build registry config = .ok built
  /-- It is one template, slot for slot. -/
  tree : ∀ built built', g.build registry config = .ok built →
    h.build registry config = .ok built' → built.tree = built'.tree
  /-- The same nodes are dropped, each of them once, and a warning is given for both or for
  neither. -/
  dropped : ∀ built built', g.build registry config = .ok built →
    h.build registry config = .ok built' → built.dropped.Perm built'.dropped ∧
      built.dropped.Nodup ∧ built.warning?.isSome = built'.warning?.isSome

lemma exists_build_iff :
    (∃ built, g.build registry config = .ok built) ↔ ∃ root, g.WellFormed registry root := by
  constructor
  · rintro ⟨built, hbuilt⟩
    obtain ⟨root, hwell, -⟩ := exact_of_build hbuilt
    exact ⟨root, hwell⟩
  · rintro ⟨root, hwell⟩
    obtain ⟨b, -, hbuilt⟩ : ∃ b, g.Unfolds registry config root b ∧ _ := exists_build hwell
    exact ⟨_, hbuilt⟩

/-- **Graphs that list the same nodes are built alike.** -/
theorem build_perm (hperm : g.nodes.Perm h.nodes) (registry : LeafRegistry L)
    (config : EngineConfig) : BuiltAlike g h registry config := by
  have hboth : ∀ built built', g.build registry config = .ok built →
      h.build registry config = .ok built' → built.tree = built'.tree ∧
        built.dropped.Perm built'.dropped ∧ built.dropped.Nodup := by
    intro built built' hbuilt hbuilt'
    obtain ⟨root, hwell, -⟩ := exact_of_build hbuilt
    obtain ⟨b, hb, hgb⟩ : ∃ b, g.Unfolds registry config root b ∧ _ := exists_build hwell
    obtain ⟨b', hb', hhb⟩ : ∃ b, h.Unfolds registry config root b ∧ _ :=
      exists_build (hwell.perm hperm)
    have htree := hb.unique hwell.ids (hb'.mono hperm.symm.subset)
    rw [hbuilt, Except.ok.injEq] at hgb
    rw [hbuilt', Except.ok.injEq, htree] at hhb
    subst hgb hhb
    refine ⟨rfl, (hperm.map GraphNode.id).filter _, ?_⟩
    exact hwell.ids.sublist List.filter_sublist
  constructor
  case accepted =>
    intro root
    rw [validate_eq_ok_iff, validate_eq_ok_iff, wellFormed_perm_iff hperm]
  case builds =>
    simp only [exists_build_iff, wellFormed_perm_iff hperm]
  case tree => exact fun built built' hbuilt hbuilt' => (hboth built built' hbuilt hbuilt').1
  case dropped =>
    intro built built' hbuilt hbuilt'
    obtain ⟨-, hdropped, hnodup⟩ := hboth built built' hbuilt hbuilt'
    refine ⟨hdropped, hnodup, ?_⟩
    rw [Bool.eq_iff_iff, isSome_warning?_iff, isSome_warning?_iff, ← List.length_pos_iff,
      ← List.length_pos_iff, hdropped.length_eq]

/-- A root over a sequence of two leaves, beside two nodes that refer to each other, listed from
either end. -/
theorem build_perm_beside_cycle :
    let g : Graph := ⟨[⟨⟨3⟩, .leaf "succeed", none⟩, ⟨⟨8⟩, .decorator .invert (some ⟨9⟩), none⟩,
      ⟨⟨2⟩, .composite .sequence [⟨4⟩, ⟨3⟩] none, none⟩, ⟨⟨9⟩, .decorator .invert (some ⟨8⟩), none⟩,
      ⟨⟨1⟩, .root (some ⟨2⟩), none⟩, ⟨⟨4⟩, .leaf "fail", none⟩]⟩
    let h : Graph := ⟨g.nodes.reverse⟩
    let registry := LeafRegistry.standard id
    let seen (built : Built Constant) : List NodeId × List NodeId :=
      (built.tree.arena.map fun slot => slot.label.id, built.dropped)
    g.nodes.Perm h.nodes ∧ BuiltAlike g h registry .standard ∧
      (g.build registry .standard).toOption.map seen =
        some ([⟨1⟩, ⟨2⟩, ⟨4⟩, ⟨3⟩], [⟨8⟩, ⟨9⟩]) ∧
      (h.build registry .standard).toOption.map seen =
        some ([⟨1⟩, ⟨2⟩, ⟨4⟩, ⟨3⟩], [⟨9⟩, ⟨8⟩]) := by
  intro g h registry seen
  have hperm : g.nodes.Perm h.nodes := (List.reverse_perm g.nodes).symm
  exact ⟨hperm, build_perm hperm registry .standard, by decide +kernel, by decide +kernel⟩

/-- Of two leaves that are not registered, the one that is listed first is reported. -/
example :
    let a : GraphNode := ⟨⟨1⟩, .leaf "a", none⟩
    let b : GraphNode := ⟨⟨2⟩, .leaf "b", none⟩
    let root : GraphNode := ⟨⟨0⟩, .root (some ⟨1⟩), none⟩
    let registry := LeafRegistry.standard id
    validate ⟨[root, a, b]⟩ registry = .error (.unknownLeaf ⟨1⟩ "a") ∧
      validate ⟨[root, b, a]⟩ registry = .error (.unknownLeaf ⟨2⟩ "b") :=
  ⟨rfl, rfl⟩

end BehaviorTree.Graph
