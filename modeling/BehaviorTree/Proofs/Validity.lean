import BehaviorTree.Graph.Validation
import Mathlib.Data.List.Forall2
import Mathlib.Data.List.Induction
import Mathlib.Data.List.Nodup
import Mathlib.Tactic.Common

/-!
# Which graphs are accepted, and which defect is reported

`Graph.validate` answers with the identity of the root or with a defect.  This file says which,
without a word about how it finds out: a graph is accepted if it is `WellFormed`, and otherwise the
answer is its `FirstDefect`.

The scan over the references is the part that needs an argument, since what is wrong with a
reference depends on the references before it.  A graph is therefore written down as one list of
`Spot`s, each of which is judged given the spots in front of it (`DefectAt`), and the references
that the scan remembers are those of the spots it has passed (`judgeSpot_ok`).

* **`foldlM_eq_error_iff`**, **`foldlM_eq_ok_iff`** — a scan stops at the first member that it
  cannot judge, and goes through if there is none.
* `Flawless.resolves`, `Flawless.single`, `Flawless.named` — what is required of the references and
  the names holds where no spot has a defect; **`WellFormed.flawless`** is the other way round.
* **`wellFormed_or_firstDefect`** — there is no third kind of graph.
* **`validate_eq_ok_iff`**, **`validate_eq_error_iff`** — the two halves of the answer.
-/

namespace BehaviorTree

variable {L : Type}

/-! ## The first repetition in a list -/

/-- There is no repetition exactly if the identities are distinct and none has been seen before. -/
lemma firstRepeat_eq_none_iff {seen ids : List NodeId} :
    firstRepeat seen ids = none ↔ ids.Nodup ∧ ∀ id ∈ ids, id ∉ seen := by
  induction ids generalizing seen with
  | nil => simp [firstRepeat]
  | cons id ids ih =>
      rw [firstRepeat]
      by_cases hid : id ∈ seen
      · rw [if_pos (by simpa using hid)]
        simp [hid]
      · rw [if_neg (by simpa using hid), ih, List.nodup_cons, List.forall_mem_cons]
        constructor
        · rintro ⟨hnodup, hnew⟩
          refine ⟨⟨fun hmem => hnew id hmem List.mem_cons_self, hnodup⟩, hid, ?_⟩
          exact fun x hx hmem => hnew x hx (List.mem_cons_of_mem _ hmem)
        · rintro ⟨⟨hnot, hnodup⟩, -, hnew⟩
          refine ⟨hnodup, fun x hx hmem => ?_⟩
          rcases List.mem_cons.mp hmem with rfl | hmem
          · exact hnot hx
          · exact hnew x hx hmem

/-- What is found is an identity that stands for the second time, and it is the first one. -/
lemma exists_of_firstRepeat {seen ids : List NodeId} {id : NodeId}
    (h : firstRepeat seen ids = some id) :
    ∃ pre post, ids = pre ++ id :: post ∧ firstRepeat seen pre = none ∧ (id ∈ seen ∨ id ∈ pre) := by
  induction ids generalizing seen with
  | nil => cases h
  | cons x ids ih =>
      rw [firstRepeat] at h
      split at h
      · next hx =>
          cases h
          exact ⟨[], ids, rfl, rfl, .inl (by simpa using hx)⟩
      · next hx =>
          obtain ⟨pre, post, rfl, hpre, hid⟩ := ih h
          refine ⟨x :: pre, post, rfl, by rwa [firstRepeat, if_neg hx], ?_⟩
          rw [List.mem_cons] at hid ⊢
          tauto

lemma firstRepeat_append_cons {seen pre post : List NodeId} {id : NodeId}
    (hpre : firstRepeat seen pre = none) (hid : id ∈ seen ∨ id ∈ pre) :
    firstRepeat seen (pre ++ id :: post) = some id := by
  induction pre generalizing seen with
  | nil =>
      have hseen : id ∈ seen := hid.resolve_right List.not_mem_nil
      rw [List.nil_append, firstRepeat, if_pos (by simpa using hseen)]
  | cons x pre ih =>
      rw [firstRepeat] at hpre
      rw [List.cons_append, firstRepeat]
      split at hpre
      · cases hpre
      · next hx =>
          rw [if_neg hx]
          refine ih hpre ?_
          rw [List.mem_cons] at hid ⊢
          tauto

lemma eq_singleton_of_nodup {α : Type} {xs : List α} {x : α} (hnodup : xs.Nodup)
    (hmem : ∀ y, y ∈ xs ↔ y = x) : xs = [x] :=
  List.perm_singleton.mp
    ((List.perm_ext_iff_of_nodup hnodup (List.nodup_singleton x)).mpr fun y => by simp [hmem])

/-! ## Scans -/

section Scan

variable {σ α ε : Type} {f : σ → α → Except ε σ} {memory : List α → σ}

/-- Nothing stops a scan of the members of a list, each judged with the memory of those before
it. -/
def ScansThrough (f : σ → α → Except ε σ) (memory : List α → σ) (before xs : List α) : Prop :=
  ∀ pre x post, xs = pre ++ x :: post → ∃ s, f (memory (before ++ pre)) x = .ok s

lemma scansThrough_nil (before : List α) : ScansThrough f memory before [] := by
  intro pre x post h
  simp at h

lemma scansThrough_cons {before xs : List α} {x : α} :
    ScansThrough f memory before (x :: xs) ↔
      (∃ s, f (memory before) x = .ok s) ∧ ScansThrough f memory (before ++ [x]) xs := by
  constructor
  · refine fun h => ⟨by simpa using h [] x xs rfl, fun pre y post heq => ?_⟩
    have := h (x :: pre) y post (by rw [heq, List.cons_append])
    simpa using this
  · rintro ⟨hx, hxs⟩ pre y post heq
    cases pre with
    | nil =>
        obtain ⟨rfl, -⟩ := List.cons.inj heq
        simpa using hx
    | cons z pre =>
        obtain ⟨rfl, rfl⟩ := List.cons.inj heq
        have := hxs pre y post rfl
        simpa using this

variable (hf : ∀ before x s, f (memory before) x = .ok s → s = memory (before ++ [x]))

include hf

/-- **A scan goes through if nothing stops it**, and then it remembers all it has passed. -/
theorem foldlM_eq_ok_iff {before xs : List α} {s : σ} :
    xs.foldlM f (memory before) = .ok s ↔
      ScansThrough f memory before xs ∧ s = memory (before ++ xs) := by
  induction xs generalizing before with
  | nil => simp [scansThrough_nil, pure, Except.pure, eq_comm]
  | cons x xs ih =>
      rw [List.foldlM_cons, scansThrough_cons]
      cases hx : f (memory before) x with
      | error e => simp [bind, Except.bind]
      | ok s' =>
          obtain rfl := hf before x s' hx
          simp only [bind, Except.bind]
          rw [ih]
          simp

/-- **A scan stops at the first member that it cannot judge.** -/
theorem foldlM_eq_error_iff {before xs : List α} {e : ε} :
    xs.foldlM f (memory before) = .error e ↔
      ∃ pre x post, xs = pre ++ x :: post ∧ ScansThrough f memory before pre ∧
        f (memory (before ++ pre)) x = .error e := by
  constructor
  · intro h
    induction xs generalizing before with
    | nil => cases h
    | cons x xs ih =>
        rw [List.foldlM_cons] at h
        cases hx : f (memory before) x with
        | error e' =>
            rw [hx] at h
            obtain rfl : e' = e := Except.error.inj h
            exact ⟨[], x, xs, rfl, scansThrough_nil before, by rwa [List.append_nil]⟩
        | ok s =>
            rw [hx] at h
            obtain rfl := hf before x s hx
            obtain ⟨pre, y, post, rfl, hpre, hy⟩ := ih h
            exact ⟨x :: pre, y, post, rfl, scansThrough_cons.mpr ⟨⟨_, hx⟩, hpre⟩, by simpa using hy⟩
  · rintro ⟨pre, x, post, rfl, hpre, hx⟩
    rw [List.foldlM_append, (foldlM_eq_ok_iff hf).mpr ⟨hpre, rfl⟩]
    simp only [bind, Except.bind, List.foldlM_cons, hx]

end Scan

/-- A list is gone through with success exactly if every member is. -/
lemma mapM_eq_ok_iff {α β ε : Type} {f : α → Except ε β} {xs : List α} {ys : List β} :
    xs.mapM f = .ok ys ↔ List.Forall₂ (fun x y => f x = .ok y) xs ys := by
  induction xs generalizing ys with
  | nil => simp [pure, Except.pure, eq_comm]
  | cons x xs ih =>
      rw [List.mapM_cons, List.forall₂_cons_left_iff]
      cases hx : f x with
      | error e => simp [bind, Except.bind]
      | ok y =>
          simp only [← ih]
          cases xs.mapM f with
          | error e => simp [bind, Except.bind]
          | ok ys' => simp [bind, Except.bind, pure, Except.pure, eq_comm]

lemma exists_forall₂ {α β : Type} {R : α → β → Prop} {xs : List α} (h : ∀ x ∈ xs, ∃ y, R x y) :
    ∃ ys, List.Forall₂ R xs ys := by
  induction xs with
  | nil => exact ⟨[], .nil⟩
  | cons x xs ih =>
      obtain ⟨y, hy⟩ := h x List.mem_cons_self
      obtain ⟨ys, hys⟩ := ih fun x hx => h x (List.mem_cons_of_mem _ hx)
      exact ⟨y :: ys, .cons hy hys⟩

lemma exists_of_forall₂ {α β : Type} {R : α → β → Prop} {xs : List α} {ys : List β}
    (h : List.Forall₂ R xs ys) {y : β} (hy : y ∈ ys) : ∃ x ∈ xs, R x y := by
  induction h with
  | nil => exact absurd hy List.not_mem_nil
  | cons hxy _ ih =>
      rcases List.mem_cons.mp hy with rfl | hy
      · exact ⟨_, List.mem_cons_self, hxy⟩
      · obtain ⟨x, hx, hxy⟩ := ih hy
        exact ⟨x, List.mem_cons_of_mem _ hx, hxy⟩

/-! ## What is required of a graph -/

/-- One thing that the scan over a graph judges. -/
inductive Spot
  /-- A reference of a node to a child. -/
  | reference (parent child : NodeId)
  /-- The name of a leaf. -/
  | name (id : NodeId) (name : String)
  deriving DecidableEq

/-- What is to be judged at a node: its references in order, then its name. -/
def GraphNode.spots (node : GraphNode) : List Spot :=
  node.shape.children.map (.reference node.id) ++
    match node.shape with
    | .leaf name => [.name node.id name]
    | _ => []

namespace Spot

/-- The reference that a spot is, from its child to its parent. -/
def link? : Spot → Option (NodeId × NodeId)
  | reference parent child => some (child, parent)
  | name _ _ => none

/-- The parent, if the spot is a reference to the given child. -/
def parent? (child : NodeId) : Spot → Option NodeId
  | reference parent c => if child == c then some parent else none
  | name _ _ => none

lemma parent?_eq_some_iff {child parent : NodeId} {s : Spot} :
    s.parent? child = some parent ↔ s = reference parent child := by
  cases s with
  | name => simp [parent?]
  | reference p c =>
      rw [parent?]
      split
      · next h =>
          obtain rfl := eq_of_beq h
          simp
      · next h =>
          simp only [reduceCtorEq, reference.injEq, false_iff, not_and]
          rintro - rfl
          exact h (beq_self_eq_true c)

end Spot

namespace Graph

/-- What is to be judged in a graph, node by node as listed. -/
def spots (g : Graph) : List Spot := g.nodes.flatMap GraphNode.spots

/-- Everything that is required of a graph, with the identity of its root.  Nodes that the root does
not reach are held to the same rules. -/
structure WellFormed (g : Graph) (registry : LeafRegistry L) (root : NodeId) : Prop where
  ids : (g.nodes.map GraphNode.id).Nodup
  /-- The identity is that of a node. -/
  root_mem : ∃ node ∈ g.nodes, node.id = root
  /-- That node is a root, and there is no other. -/
  isRoot_iff : ∀ node ∈ g.nodes, node.shape.isRoot = true ↔ node.id = root
  /-- Every reference leads to a node that is not the root. -/
  resolves : ∀ node ∈ g.nodes, ∀ child ∈ node.shape.children,
    ∃ target ∈ g.nodes, target.id = child ∧ target.shape.isRoot = false
  /-- No identity is referred to twice, neither by two nodes nor by one. -/
  single : (g.nodes.flatMap fun node => node.shape.children).Nodup
  /-- Every leaf is registered. -/
  named : ∀ node ∈ g.nodes, ∀ name, node.shape = .leaf name → registry.contains name = true

/-- What is wrong with a spot, given the spots in front of it. -/
inductive DefectAt (g : Graph) (registry : LeafRegistry L) (before : List Spot) :
    Spot → GraphError → Prop
  /-- The reference leads to no node. -/
  | unknownNode {parent child : NodeId} : (∀ node ∈ g.nodes, node.id ≠ child) →
    DefectAt g registry before (.reference parent child) (.unknownNode parent child)
  /-- The reference leads to a root. -/
  | rootReferenced {parent child : NodeId} {target : GraphNode} : target ∈ g.nodes →
    target.id = child → target.shape.isRoot = true →
    DefectAt g registry before (.reference parent child) (.rootReferenced parent child)
  /-- The reference leads to another node, to which the earliest reference is one in front of it. -/
  | sharedChild {parent child first : NodeId} {target : GraphNode} {earlier between : List Spot} :
    target ∈ g.nodes → target.id = child → target.shape.isRoot = false →
    before = earlier ++ .reference first child :: between →
    (∀ p, Spot.reference p child ∉ earlier) →
    DefectAt g registry before (.reference parent child) (.sharedChild child first parent)
  | unknownLeaf {id : NodeId} {name : String} : registry.contains name = false →
    DefectAt g registry before (.name id name) (.unknownLeaf id name)

/-- Nothing is wrong with any of several spots. -/
def Flawless (g : Graph) (registry : LeafRegistry L) (spots : List Spot) : Prop :=
  ∀ pre s post e, spots = pre ++ s :: post → ¬ DefectAt g registry pre s e

/-- The defect that is reported of a graph that is not well formed. -/
inductive FirstDefect (g : Graph) (registry : LeafRegistry L) : GraphError → Prop
  /-- An identity that occurred before, the first one in the order of listing. -/
  | duplicateId {id : NodeId} {pre post : List NodeId} :
    g.nodes.map GraphNode.id = pre ++ id :: post → pre.Nodup → id ∈ pre →
    FirstDefect g registry (.duplicateId id)
  | missingRoot : (g.nodes.map GraphNode.id).Nodup →
    (∀ node ∈ g.nodes, node.shape.isRoot = false) → FirstDefect g registry .missingRoot
  /-- All roots, as listed. -/
  | multipleRoots {ids : List NodeId} : (g.nodes.map GraphNode.id).Nodup →
    ids = (g.nodes.filter fun node => node.shape.isRoot).map GraphNode.id → 2 ≤ ids.length →
    FirstDefect g registry (.multipleRoots ids)
  /-- The defect of the first spot that has one. -/
  | scanned {root : NodeId} {pre post : List Spot} {s : Spot} {e : GraphError} :
    (g.nodes.map GraphNode.id).Nodup →
    (g.nodes.filter fun node => node.shape.isRoot).map GraphNode.id = [root] →
    g.spots = pre ++ s :: post → Flawless g registry pre → DefectAt g registry pre s e →
    FirstDefect g registry e

/-! ## Finding nodes -/

section Find

variable {g : Graph} {id : NodeId} {node : GraphNode}

/-- With distinct identities, what is found under one is the node that has it. -/
lemma find?_id_eq_some_iff {nodes : List GraphNode} (hids : (nodes.map GraphNode.id).Nodup) :
    nodes.find? (fun node => node.id == id) = some node ↔ node ∈ nodes ∧ node.id = id := by
  constructor
  · exact fun h => ⟨List.mem_of_find?_eq_some h, by simpa using List.find?_some h⟩
  · rintro ⟨hmem, rfl⟩
    cases hfind : nodes.find? fun other => other.id == node.id with
    | none => exact absurd (beq_self_eq_true node.id) (List.find?_eq_none.mp hfind node hmem)
    | some other =>
        have hid : other.id = node.id := by simpa using List.find?_some hfind
        rw [List.inj_on_of_nodup_map hids (List.mem_of_find?_eq_some hfind) hmem hid]

lemma find?_eq_none_iff : g.find? id = none ↔ ∀ node ∈ g.nodes, node.id ≠ id := by
  rw [find?, List.find?_eq_none]
  simp

lemma find?_eq_some_iff (hids : (g.nodes.map GraphNode.id).Nodup) :
    g.find? id = some node ↔ node ∈ g.nodes ∧ node.id = id := find?_id_eq_some_iff hids

/-- Nodes with one identity are one node. -/
lemma eq_of_id (hids : (g.nodes.map GraphNode.id).Nodup) {a b : GraphNode} (ha : a ∈ g.nodes)
    (hb : b ∈ g.nodes) (h : a.id = b.id) : a = b :=
  List.inj_on_of_nodup_map hids ha hb h

end Find

/-! ## The scan of a graph -/

/-- The references among the spots. -/
def links (spots : List Spot) : Parents := spots.filterMap Spot.link?

def judgeSpot (g : Graph) (registry : LeafRegistry L) (seen : Parents) :
    Spot → Except GraphError Parents
  | .reference parent child => g.judgeReference parent seen child
  | .name id name => if registry.contains name then .ok seen else .error (.unknownLeaf id name)

/-- Judging a node is judging its spots. -/
lemma judgeNode_eq_foldlM (g : Graph) (registry : LeafRegistry L) (seen : Parents)
    (node : GraphNode) :
    g.judgeNode registry seen node = node.spots.foldlM (g.judgeSpot registry) seen := by
  obtain ⟨id, shape, layout⟩ := node
  have hrefs : ∀ (cs : List NodeId) (seen : Parents),
      (cs.map (Spot.reference id)).foldlM (g.judgeSpot registry) seen =
        cs.foldlM (g.judgeReference id) seen := fun cs seen => List.foldlM_map ..
  rw [judgeNode, GraphNode.spots, List.foldlM_append]
  simp only [hrefs]
  cases shape with
  | leaf name =>
      simp only [GraphShape.children, List.foldlM_nil, judgeName, List.foldlM_cons, judgeSpot,
        bind, Except.bind, pure, Except.pure]
      cases registry.contains name <;> rfl
  | _ => rfl

lemma foldlM_judgeNode (g : Graph) (registry : LeafRegistry L) (nodes : List GraphNode)
    (seen : Parents) :
    nodes.foldlM (g.judgeNode registry) seen =
      (nodes.flatMap GraphNode.spots).foldlM (g.judgeSpot registry) seen := by
  induction nodes generalizing seen with
  | nil => rfl
  | cons node nodes ih =>
      rw [List.foldlM_cons, List.flatMap_cons, List.foldlM_append, judgeNode_eq_foldlM]
      exact congrArg _ (funext ih)

lemma links_append (before after : List Spot) :
    links (before ++ after) = links before ++ links after := List.filterMap_append

lemma lookup_links (before : List Spot) (child : NodeId) :
    (links before).lookup child = before.findSome? (Spot.parent? child) := by
  induction before with
  | nil => rfl
  | cons s before ih =>
      rw [links, List.filterMap_cons, List.findSome?_cons, ← ih]
      cases s with
      | name => rfl
      | reference parent c =>
          simp only [Spot.link?, Spot.parent?, List.lookup_cons]
          cases child == c <;> rfl

/-- The parent that is found for a child is that of the earliest reference to it. -/
lemma lookup_links_eq_some_iff {before : List Spot} {child first : NodeId} :
    (links before).lookup child = some first ↔
      ∃ earlier between, before = earlier ++ .reference first child :: between ∧
        ∀ p, Spot.reference p child ∉ earlier := by
  rw [lookup_links, List.findSome?_eq_some_iff]
  constructor
  · rintro ⟨earlier, s, between, rfl, hs, hnot⟩
    rw [Spot.parent?_eq_some_iff] at hs
    subst hs
    refine ⟨earlier, between, rfl, fun p hp => ?_⟩
    have hparent : Spot.parent? child (.reference p child) = some p :=
      Spot.parent?_eq_some_iff.mpr rfl
    rw [hnot _ hp] at hparent
    cases hparent
  · rintro ⟨earlier, between, rfl, hnot⟩
    refine ⟨earlier, _, between, rfl, Spot.parent?_eq_some_iff.mpr rfl, fun s hs => ?_⟩
    cases hparent : Spot.parent? child s with
    | none => rfl
    | some p =>
        rw [Spot.parent?_eq_some_iff] at hparent
        subst hparent
        exact absurd hs (hnot p)

section Judge

variable {g : Graph} {registry : LeafRegistry L}

/-- **What the scan remembers are the references it has passed.** -/
theorem judgeSpot_ok (before : List Spot) (s : Spot) (seen : Parents)
    (h : g.judgeSpot registry (links before) s = .ok seen) : seen = links (before ++ [s]) := by
  rw [links_append]
  cases s with
  | reference parent child =>
      simp only [judgeSpot, judgeReference] at h
      split at h
      · cases h
      · split at h
        · cases h
        · split at h
          · cases h
          · cases h
            rfl
  | name id name =>
      simp only [judgeSpot] at h
      split at h
      · cases h
        simp [links, Spot.link?]
      · cases h

/-- What is wrong with a reference, by the node that is found for it. -/
lemma defectAt_reference_iff (hids : (g.nodes.map GraphNode.id).Nodup) {before : List Spot}
    {parent child : NodeId} {e : GraphError} :
    DefectAt g registry before (.reference parent child) e ↔
      match g.find? child with
      | none => e = .unknownNode parent child
      | some node =>
        if node.shape.isRoot then e = .rootReferenced parent child
        else ∃ first, (links before).lookup child = some first ∧ e = .sharedChild child first parent
      := by
  constructor
  · intro h
    cases h with
    | unknownNode hnone => rw [find?_eq_none_iff.mpr hnone]
    | rootReferenced hmem hid hroot =>
        rw [(find?_eq_some_iff hids).mpr ⟨hmem, hid⟩]
        exact (if_pos hroot).mpr rfl
    | sharedChild hmem hid hroot hsplit hnot =>
        rw [(find?_eq_some_iff hids).mpr ⟨hmem, hid⟩]
        simp only [hroot, Bool.false_eq_true, if_false]
        exact ⟨_, lookup_links_eq_some_iff.mpr ⟨_, _, hsplit, hnot⟩, rfl⟩
  · intro h
    split at h
    · next hfind =>
        subst h
        exact .unknownNode (find?_eq_none_iff.mp hfind)
    · next node hfind =>
        obtain ⟨hmem, hid⟩ := (find?_eq_some_iff hids).mp hfind
        split at h
        · next hroot =>
            subst h
            exact .rootReferenced hmem hid hroot
        · next hroot =>
            obtain ⟨first, hlookup, rfl⟩ := h
            obtain ⟨earlier, between, hsplit, hnot⟩ := lookup_links_eq_some_iff.mp hlookup
            exact .sharedChild hmem hid (by simpa using hroot) hsplit hnot

lemma defectAt_name_iff {before : List Spot} {id : NodeId} {name : String} {e : GraphError} :
    DefectAt g registry before (.name id name) e ↔
      registry.contains name = false ∧ e = .unknownLeaf id name := by
  constructor
  · intro h
    cases h with
    | unknownLeaf hname => exact ⟨hname, rfl⟩
  · rintro ⟨hname, rfl⟩
    exact .unknownLeaf hname

/-- **A spot is judged by the spots in front of it.** -/
theorem judgeSpot_eq_error_iff (hids : (g.nodes.map GraphNode.id).Nodup) {before : List Spot}
    {s : Spot} {e : GraphError} :
    g.judgeSpot registry (links before) s = .error e ↔ DefectAt g registry before s e := by
  cases s with
  | name id name =>
      rw [defectAt_name_iff, judgeSpot]
      cases registry.contains name <;> simp [eq_comm]
  | reference parent child =>
      rw [defectAt_reference_iff hids, judgeSpot, judgeReference]
      cases g.find? child with
      | none => simp [eq_comm]
      | some node =>
          cases hroot : node.shape.isRoot with
          | true => simp [hroot, eq_comm]
          | false => cases (links before).lookup child <;> simp [hroot, eq_comm]

/-- Nothing stops the scan of spots with which nothing is wrong, and the other way round. -/
lemma scansThrough_iff (hids : (g.nodes.map GraphNode.id).Nodup) {spots : List Spot} :
    ScansThrough (g.judgeSpot registry) links [] spots ↔ g.Flawless registry spots := by
  have hjudge : ∀ pre s, (∃ seen, g.judgeSpot registry (links pre) s = .ok seen) ↔
      ∀ e, ¬ DefectAt g registry pre s e := by
    intro pre s
    simp only [← judgeSpot_eq_error_iff hids]
    cases g.judgeSpot registry (links pre) s <;> simp
  simp only [ScansThrough, Flawless, List.nil_append, hjudge]
  exact ⟨fun h pre s post e heq => h pre s post heq e,
    fun h pre s post heq e => h pre s post e heq⟩

end Judge

/-! ## Graphs without a defect -/

section Flawless

variable {g : Graph} {registry : LeafRegistry L}

lemma reference_mem_spots {parent child : NodeId} :
    Spot.reference parent child ∈ g.spots ↔
      ∃ node ∈ g.nodes, node.id = parent ∧ child ∈ node.shape.children := by
  have hnode : ∀ node : GraphNode, Spot.reference parent child ∈ node.spots ↔
      node.id = parent ∧ child ∈ node.shape.children := by
    rintro ⟨id, shape, layout⟩
    cases shape <;> simp [GraphNode.spots, GraphShape.children, and_comm, eq_comm]
  simp only [spots, List.mem_flatMap, hnode]

lemma name_mem_spots {id : NodeId} {name : String} :
    Spot.name id name ∈ g.spots ↔ ∃ node ∈ g.nodes, node.id = id ∧ node.shape = .leaf name := by
  have hnode : ∀ node : GraphNode, Spot.name id name ∈ node.spots ↔
      node.id = id ∧ node.shape = .leaf name := by
    rintro ⟨id', shape, layout⟩
    cases shape <;> simp [GraphNode.spots, GraphShape.children, eq_comm]
  simp only [spots, List.mem_flatMap, hnode]

lemma map_fst_links_spots (g : Graph) :
    (links g.spots).map Prod.fst = g.nodes.flatMap fun node => node.shape.children := by
  have hnode : ∀ node : GraphNode, (links node.spots).map Prod.fst = node.shape.children := by
    rintro ⟨id, shape, layout⟩
    have hrefs : ∀ cs : List NodeId,
        (links (cs.map (Spot.reference id))).map Prod.fst = cs := by
      intro cs
      induction cs with
      | nil => rfl
      | cons c cs ih => exact congrArg (c :: ·) ih
    rw [GraphNode.spots, links_append, List.map_append, hrefs]
    cases shape <;> simp [links, Spot.link?]
  rw [spots]
  induction g.nodes with
  | nil => rfl
  | cons node nodes ih =>
      rw [List.flatMap_cons, List.flatMap_cons, links_append, List.map_append, hnode, ih]

lemma lookup_eq_none_iff_not_mem {β : Type} {links : List (NodeId × β)} {child : NodeId} :
    links.lookup child = none ↔ child ∉ links.map Prod.fst := by
  rw [List.lookup_eq_none_iff, List.mem_map]
  constructor
  · rintro h ⟨link, hlink, rfl⟩
    simpa using h link hlink
  · intro h link hlink
    rw [bne_iff_ne]
    rintro rfl
    exact h ⟨link, hlink, rfl⟩

/-- No child occurs twice exactly if no reference has one to the same child in front of it. -/
lemma nodup_links_iff {spots : List Spot} :
    ((links spots).map Prod.fst).Nodup ↔
      ∀ pre parent child post, spots = pre ++ .reference parent child :: post →
        (links pre).lookup child = none := by
  simp only [lookup_eq_none_iff_not_mem]
  induction spots using List.reverseRecOn with
  | nil => simp [links]
  | append_singleton spots s ih =>
      rw [links_append, List.map_append, List.nodup_append']
      constructor
      · rintro ⟨hspots, -, hdisjoint⟩ pre parent child post heq
        rcases List.eq_nil_or_concat post with rfl | ⟨post, t, rfl⟩
        · obtain ⟨rfl, hs⟩ := List.append_inj' heq rfl
          obtain rfl := List.singleton_inj.mp hs
          exact fun hmem => hdisjoint hmem List.mem_cons_self
        · rw [List.concat_eq_append, ← List.cons_append, ← List.append_assoc] at heq
          obtain ⟨rfl, -⟩ := List.append_inj' heq rfl
          exact ih.mp hspots pre parent child post rfl
      · intro h
        refine ⟨ih.mpr fun pre parent child post heq => ?_, ?_, ?_⟩
        · exact h pre parent child (post ++ [s]) (by rw [heq]; simp)
        · cases s with
          | name => exact List.nodup_nil
          | reference parent c => exact List.nodup_singleton c
        · intro child hmem hlast
          cases s with
          | name => simp [links, Spot.link?] at hlast
          | reference parent c =>
              obtain rfl : child = c := List.mem_singleton.mp hlast
              exact h spots parent child [] rfl hmem

/-- Where no spot has a defect, every reference leads to a node that is not a root. -/
lemma Flawless.resolves (h : g.Flawless registry g.spots) {node : GraphNode}
    (hnode : node ∈ g.nodes) {child : NodeId} (hchild : child ∈ node.shape.children) :
    ∃ target ∈ g.nodes, target.id = child ∧ target.shape.isRoot = false := by
  obtain ⟨pre, post, hsplit⟩ := List.append_of_mem
    (reference_mem_spots.mpr ⟨node, hnode, rfl, hchild⟩)
  obtain ⟨target, htarget, hid⟩ : ∃ target ∈ g.nodes, target.id = child := by
    by_contra hnone
    push Not at hnone
    exact h pre _ post _ hsplit (.unknownNode hnone)
  refine ⟨target, htarget, hid, ?_⟩
  by_contra hroot
  exact h pre _ post _ hsplit (.rootReferenced htarget hid (by simpa using hroot))

/-- Where no spot has a defect, no identity is referred to twice. -/
lemma Flawless.single (h : g.Flawless registry g.spots) :
    (g.nodes.flatMap fun node => node.shape.children).Nodup := by
  rw [← map_fst_links_spots, nodup_links_iff]
  intro pre parent child post hsplit
  cases hlookup : (links pre).lookup child with
  | none => rfl
  | some first =>
      obtain ⟨earlier, between, hpre, hnot⟩ := lookup_links_eq_some_iff.mp hlookup
      have hmem : Spot.reference parent child ∈ g.spots := by simp [hsplit]
      obtain ⟨node, hnode, -, hchild⟩ := reference_mem_spots.mp hmem
      obtain ⟨target, htarget, hid, hroot⟩ := h.resolves hnode hchild
      exact absurd (.sharedChild htarget hid hroot hpre hnot) (h pre _ post _ hsplit)

/-- Where no spot has a defect, every leaf is registered. -/
lemma Flawless.named (h : g.Flawless registry g.spots) {node : GraphNode} (hnode : node ∈ g.nodes)
    {name : String} (hshape : node.shape = .leaf name) : registry.contains name = true := by
  obtain ⟨pre, post, hsplit⟩ := List.append_of_mem
    (name_mem_spots.mpr ⟨node, hnode, rfl, hshape⟩)
  by_contra hname
  exact h pre _ post _ hsplit (.unknownLeaf (by simpa using hname))

/-- **No spot of a well formed graph has a defect.** -/
theorem WellFormed.flawless {root : NodeId} (h : g.WellFormed registry root) :
    g.Flawless registry g.spots := by
  intro pre s post e hsplit hdefect
  have hmem : s ∈ g.spots := by simp [hsplit]
  cases s with
  | name id name =>
      obtain ⟨node, hnode, -, hshape⟩ := name_mem_spots.mp hmem
      obtain ⟨hname, -⟩ := defectAt_name_iff.mp hdefect
      rw [h.named node hnode name hshape] at hname
      cases hname
  | reference parent child =>
      obtain ⟨node, hnode, -, hchild⟩ := reference_mem_spots.mp hmem
      obtain ⟨target, htarget, hid, hroot⟩ := h.resolves node hnode child hchild
      have hsingle := h.single
      rw [← map_fst_links_spots, nodup_links_iff] at hsingle
      rw [defectAt_reference_iff h.ids, (find?_eq_some_iff h.ids).mpr ⟨htarget, hid⟩] at hdefect
      simp only [hroot, Bool.false_eq_true, if_false, hsingle pre parent child post hsplit]
        at hdefect
      obtain ⟨first, hfirst, -⟩ := hdefect
      cases hfirst

end Flawless

/-! ## The answer -/

section Answer

variable {g : Graph} {registry : LeafRegistry L}

/-- With distinct identities there is one root of a given identity exactly if that identity is a
node's and says which nodes are roots. -/
lemma rootIds_eq_singleton_iff (hids : (g.nodes.map GraphNode.id).Nodup) {root : NodeId} :
    g.rootIds = [root] ↔ (∃ node ∈ g.nodes, node.id = root) ∧
      ∀ node ∈ g.nodes, node.shape.isRoot = true ↔ node.id = root := by
  rw [rootIds]
  constructor
  · intro h
    obtain ⟨node, hroots, rfl⟩ := List.map_eq_singleton_iff.mp h
    have hmem : ∀ other, other ∈ g.nodes ∧ other.shape.isRoot = true ↔ other = node := by
      intro other
      rw [← List.mem_singleton (a := other), ← hroots, List.mem_filter]
    have hnode := (hmem node).mpr rfl
    refine ⟨⟨node, hnode.1, rfl⟩, fun other hother => ⟨fun hroot => ?_, fun hid => ?_⟩⟩
    · rw [(hmem other).mp ⟨hother, hroot⟩]
    · rw [eq_of_id hids hother hnode.1 hid]
      exact hnode.2
  · rintro ⟨⟨node, hnode, rfl⟩, hiff⟩
    have hmem : ∀ id, id ∈ (g.nodes.filter fun node => node.shape.isRoot).map GraphNode.id ↔
        id = node.id := by
      intro id
      rw [List.mem_map]
      constructor
      · rintro ⟨other, hother, rfl⟩
        rw [List.mem_filter] at hother
        exact (hiff other hother.1).mp hother.2
      · rintro rfl
        exact ⟨node, List.mem_filter.mpr ⟨hnode, (hiff node hnode).mpr rfl⟩, rfl⟩
    have hnodup : ((g.nodes.filter fun node => node.shape.isRoot).map GraphNode.id).Nodup :=
      hids.sublist (List.filter_sublist.map _)
    exact eq_singleton_of_nodup hnodup hmem

lemma rootIds_eq_nil_iff :
    g.rootIds = [] ↔ ∀ node ∈ g.nodes, node.shape.isRoot = false := by
  rw [rootIds, List.map_eq_nil_iff, List.filter_eq_nil_iff]
  simp

lemma validate_of_repeat {id : NodeId}
    (h : firstRepeat [] (g.nodes.map GraphNode.id) = some id) :
    g.validate registry = .error (.duplicateId id) := by
  simp only [validate, h]

lemma validate_of_roots (hids : (g.nodes.map GraphNode.id).Nodup) {roots : List NodeId}
    (h : g.rootIds = roots) :
    g.validate registry =
      match roots with
      | [] => .error .missingRoot
      | [root] => (g.spots.foldlM (g.judgeSpot registry) (links [])).map fun _ => root
      | roots => .error (.multipleRoots roots) := by
  have hrepeat : firstRepeat [] (g.nodes.map GraphNode.id) = none :=
    firstRepeat_eq_none_iff.mpr ⟨hids, by simp⟩
  simp only [validate, hrepeat, h, foldlM_judgeNode]
  rcases roots with _ | ⟨root, _ | ⟨other, roots⟩⟩
  · rfl
  · change (do let _ ← g.spots.foldlM (g.judgeSpot registry) (links []); return root) = _
    cases g.spots.foldlM (g.judgeSpot registry) (links []) <;> rfl
  · rfl

/-- The scan goes through exactly if nothing is wrong with any spot. -/
lemma exists_scan_iff (hids : (g.nodes.map GraphNode.id).Nodup) :
    (∃ seen, g.spots.foldlM (g.judgeSpot registry) (links []) = .ok seen) ↔
      g.Flawless registry g.spots := by
  rw [← scansThrough_iff hids]
  simp only [foldlM_eq_ok_iff judgeSpot_ok, exists_and_left, exists_eq, and_true]

lemma scan_eq_error_iff (hids : (g.nodes.map GraphNode.id).Nodup) {e : GraphError} :
    g.spots.foldlM (g.judgeSpot registry) (links []) = .error e ↔
      ∃ pre s post, g.spots = pre ++ s :: post ∧ g.Flawless registry pre ∧
        DefectAt g registry pre s e := by
  simp only [foldlM_eq_error_iff judgeSpot_ok, scansThrough_iff hids, List.nil_append,
    judgeSpot_eq_error_iff hids]

lemma validate_of_wellFormed {root : NodeId} (h : g.WellFormed registry root) :
    g.validate registry = .ok root := by
  have hroots := (rootIds_eq_singleton_iff h.ids).mpr ⟨h.root_mem, h.isRoot_iff⟩
  obtain ⟨seen, hscan⟩ := (exists_scan_iff h.ids).mpr h.flawless
  rw [validate_of_roots h.ids hroots]
  simp only [hscan]
  rfl

lemma validate_of_firstDefect {e : GraphError} (h : g.FirstDefect registry e) :
    g.validate registry = .error e := by
  cases h with
  | duplicateId hsplit hnodup hid =>
      have hpre := firstRepeat_eq_none_iff.mpr ⟨hnodup, fun x _ => List.not_mem_nil⟩
      exact validate_of_repeat (hsplit ▸ firstRepeat_append_cons hpre (.inr hid))
  | missingRoot hids hnone => rw [validate_of_roots hids (rootIds_eq_nil_iff.mpr hnone)]
  | @multipleRoots roots hids hroots hlength =>
      rw [validate_of_roots hids hroots.symm]
      rcases roots with _ | ⟨root, _ | ⟨other, roots⟩⟩
      · simp at hlength
      · simp at hlength
      · rfl
  | scanned hids hroots hsplit hpre hdefect =>
      have hscan := (scan_eq_error_iff hids).mpr ⟨_, _, _, hsplit, hpre, hdefect⟩
      rw [validate_of_roots hids hroots]
      simp only [hscan]
      rfl

/-- **Every graph is well formed, or it has a first defect.** -/
theorem wellFormed_or_firstDefect (g : Graph) (registry : LeafRegistry L) :
    (∃ root, g.WellFormed registry root) ∨ ∃ e, g.FirstDefect registry e := by
  cases hrepeat : firstRepeat [] (g.nodes.map GraphNode.id) with
  | some id =>
      obtain ⟨pre, post, hsplit, hpre, hid⟩ := exists_of_firstRepeat hrepeat
      exact .inr ⟨_, .duplicateId hsplit (firstRepeat_eq_none_iff.mp hpre).1
        (hid.resolve_left List.not_mem_nil)⟩
  | none =>
      have hids := (firstRepeat_eq_none_iff.mp hrepeat).1
      rcases hroots : g.rootIds with _ | ⟨root, _ | ⟨other, roots⟩⟩
      · exact .inr ⟨_, .missingRoot hids (rootIds_eq_nil_iff.mp hroots)⟩
      · cases hscan : g.spots.foldlM (g.judgeSpot registry) (links []) with
        | error e =>
            obtain ⟨pre, s, post, hsplit, hpre, hdefect⟩ := (scan_eq_error_iff hids).mp hscan
            exact .inr ⟨e, .scanned hids hroots hsplit hpre hdefect⟩
        | ok seen =>
            have hflawless := (exists_scan_iff hids).mp ⟨seen, hscan⟩
            obtain ⟨hmem, hiff⟩ := (rootIds_eq_singleton_iff hids).mp hroots
            exact .inl ⟨root, hids, hmem, hiff, fun _ hnode _ => hflawless.resolves hnode,
              hflawless.single, fun _ hnode _ => hflawless.named hnode⟩
      · exact .inr ⟨_, .multipleRoots hids hroots.symm (by simp)⟩

/-- **A graph is accepted exactly if it is well formed**, and the answer is its root. -/
theorem validate_eq_ok_iff {root : NodeId} :
    g.validate registry = .ok root ↔ g.WellFormed registry root := by
  refine ⟨fun h => ?_, validate_of_wellFormed⟩
  rcases wellFormed_or_firstDefect g registry with ⟨root', hwell⟩ | ⟨e, hdefect⟩
  · rw [validate_of_wellFormed hwell, Except.ok.injEq] at h
    exact h ▸ hwell
  · rw [validate_of_firstDefect hdefect] at h
    cases h

/-- **A graph that is not accepted is refused for its first defect.** -/
theorem validate_eq_error_iff {e : GraphError} :
    g.validate registry = .error e ↔ g.FirstDefect registry e := by
  refine ⟨fun h => ?_, validate_of_firstDefect⟩
  rcases wellFormed_or_firstDefect g registry with ⟨root, hwell⟩ | ⟨e', hdefect⟩
  · rw [validate_of_wellFormed hwell] at h
    cases h
  · rw [validate_of_firstDefect hdefect, Except.error.injEq] at h
    exact h ▸ hdefect

/-- **The answer to a graph**: its root if it is well formed, and its first defect if it is not. -/
theorem validate_answer (g : Graph) (registry : LeafRegistry L) :
    (∀ root, g.validate registry = .ok root ↔ g.WellFormed registry root) ∧
      ∀ e, g.validate registry = .error e ↔ g.FirstDefect registry e :=
  ⟨fun _ => validate_eq_ok_iff, fun _ => validate_eq_error_iff⟩

end Answer

end Graph

end BehaviorTree
