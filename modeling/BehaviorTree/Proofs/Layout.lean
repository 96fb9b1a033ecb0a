import BehaviorTree.Branch
import Mathlib.Tactic.Common

/-!
# Reading a layout back

`Branch.layout` writes a nested tree down flat.  This file says what stands where in the flat list,
so that nothing after it opens the recursion of `layout`, `branchAt` or `walk` again.

* `Branch.induct` — induction on a branch, with a hypothesis for every subtree of the root.
* `Branch.parts` — every branch that stands in a branch, in pre-order.  **`getElem?_layout`**: the
  slot at a position of a layout is the root of the part at that position.
* `Slot.Holds` — a flat list holds the layout of a branch at a position.  A list that holds a branch
  holds the subtrees of its root (`Holds.children`), and reading at the position gives the branch
  back (`branchAt_of_holds`).
* `Slot.graft` — the flat list with another branch in place of the one at a position.
* **`below_of_holds`** — the positions strictly below a node are the stretch right behind it.
-/

namespace BehaviorTree

namespace Branch

variable {α β : Type}

/-- Induction on a branch: a property passes from the subtrees of a node to the node. -/
@[induction_eliminator]
theorem induct {motive : Branch α → Prop}
    (node : ∀ a ts, (∀ t ∈ ts, motive t) → motive (.node a ts)) : ∀ t, motive t
  | .node a ts => node a ts fun t _ => induct node t

@[simp] lemma label_node (a : α) (ts : List (Branch α)) : (node a ts).label = a := rfl

@[simp] lemma children_node (a : α) (ts : List (Branch α)) : (node a ts).children = ts := rfl

/-! ## Sizes -/

lemma size_node (a : α) (ts : List (Branch α)) : (node a ts).size = 1 + sizeAll ts := rfl

@[simp] lemma sizeAll_nil : sizeAll ([] : List (Branch α)) = 0 := rfl

@[simp] lemma sizeAll_cons (t : Branch α) (ts : List (Branch α)) :
    sizeAll (t :: ts) = t.size + sizeAll ts := rfl

lemma size_pos (t : Branch α) : 0 < t.size := by
  obtain ⟨a, ts⟩ := t
  rw [size_node]
  omega

lemma sizeAll_append (ts us : List (Branch α)) :
    sizeAll (ts ++ us) = sizeAll ts + sizeAll us := by
  induction ts with
  | nil => simp
  | cons t ts ih => rw [List.cons_append, sizeAll_cons, sizeAll_cons, ih, Nat.add_assoc]

mutual

@[simp] lemma length_layout : ∀ (base : Nat) (t : Branch α), (t.layout base).length = t.size
  | base, .node a ts => by
      rw [layout, List.length_cons, length_layoutAll, size_node, Nat.add_comm]

@[simp] lemma length_layoutAll : ∀ (base : Nat) (ts : List (Branch α)),
    (layoutAll base ts).length = sizeAll ts
  | _, [] => rfl
  | base, t :: ts => by
      rw [layoutAll, List.length_append, length_layout, length_layoutAll, sizeAll_cons]

end

lemma layoutAll_append (base : Nat) (ts us : List (Branch α)) :
    layoutAll base (ts ++ us) = layoutAll base ts ++ layoutAll (base + sizeAll ts) us := by
  induction ts generalizing base with
  | nil => simp [layoutAll]
  | cons t ts ih =>
      rw [List.cons_append, layoutAll, layoutAll, ih, sizeAll_cons, List.append_assoc,
        Nat.add_assoc]

/-! ## The roots of branches laid out one behind the other -/

/-- The positions of the roots depend on the sizes alone. -/
lemma roots_congr {base : Nat} {ts : List (Branch α)} {us : List (Branch β)}
    (h : ts.map size = us.map size) : roots base ts = roots base us := by
  induction ts generalizing base us with
  | nil =>
      cases us with
      | nil => rfl
      | cons u us => simp at h
  | cons t ts ih =>
      cases us with
      | nil => simp at h
      | cons u us =>
          simp only [List.map_cons, List.cons.injEq] at h
          rw [roots, roots, h.1, ih h.2]

@[simp] lemma length_roots (base : Nat) (ts : List (Branch α)) :
    (roots base ts).length = ts.length := by
  induction ts generalizing base with
  | nil => rfl
  | cons t ts ih => rw [roots, List.length_cons, List.length_cons, ih]

lemma le_of_mem_roots {base c : Nat} {ts : List (Branch α)} (h : c ∈ roots base ts) :
    base ≤ c := by
  induction ts generalizing base with
  | nil => simp [roots] at h
  | cons t ts ih =>
      rw [roots, List.mem_cons] at h
      rcases h with rfl | h
      · exact Nat.le_refl _
      · have := ih h
        omega

lemma lt_of_mem_roots {base c : Nat} {ts : List (Branch α)} (h : c ∈ roots base ts) :
    c < base + sizeAll ts := by
  induction ts generalizing base with
  | nil => simp [roots] at h
  | cons t ts ih =>
      rw [roots, List.mem_cons] at h
      rw [sizeAll_cons]
      rcases h with rfl | h
      · have := t.size_pos
        omega
      · have := ih h
        omega

/-! ## Relabelling -/

lemma mapAll_eq_map (f : α → β) (ts : List (Branch α)) : mapAll f ts = ts.map (map f) := by
  induction ts with
  | nil => rfl
  | cons t ts ih => rw [mapAll, ih, List.map_cons]

@[simp] lemma map_node (f : α → β) (a : α) (ts : List (Branch α)) :
    (node a ts).map f = node (f a) (ts.map (map f)) := by
  rw [map, mapAll_eq_map]

@[simp] lemma label_map (f : α → β) (t : Branch α) : (t.map f).label = f t.label := by
  obtain ⟨a, ts⟩ := t
  simp

lemma map_map {γ : Type} (g : β → γ) (f : α → β) (t : Branch α) :
    (t.map f).map g = t.map (g ∘ f) := by
  induction t with
  | node a ts ih =>
      simp only [map_node, List.map_map, node.injEq, Function.comp_apply, true_and]
      exact List.map_congr_left fun t ht => ih t ht

mutual

@[simp] lemma size_map (f : α → β) : ∀ t : Branch α, (t.map f).size = t.size
  | .node a ts => by rw [map, size_node, size_node, sizeAll_mapAll]

@[simp] lemma sizeAll_mapAll (f : α → β) : ∀ ts : List (Branch α),
    sizeAll (mapAll f ts) = sizeAll ts
  | [] => rfl
  | t :: ts => by rw [mapAll, sizeAll_cons, sizeAll_cons, size_map, sizeAll_mapAll]

end

@[simp] lemma roots_map (f : α → β) (base : Nat) (ts : List (Branch α)) :
    roots base (ts.map (map f)) = roots base ts :=
  roots_congr (by rw [List.map_map]; exact List.map_congr_left fun t _ => size_map f t)

mutual

/-- Relabelling a layout is laying out the relabelled branch. -/
theorem layout_map (f : α → β) : ∀ (base : Nat) (t : Branch α),
    (t.map f).layout base = (t.layout base).map fun slot => ⟨f slot.label, slot.children⟩
  | base, .node a ts => by
      rw [map, layout, layout, layoutAll_mapAll, List.map_cons, mapAll_eq_map, roots_map]

theorem layoutAll_mapAll (f : α → β) : ∀ (base : Nat) (ts : List (Branch α)),
    layoutAll base (mapAll f ts) =
      (layoutAll base ts).map fun slot => ⟨f slot.label, slot.children⟩
  | _, [] => rfl
  | base, t :: ts => by
      rw [mapAll, layoutAll, layoutAll, List.map_append, layout_map, size_map, layoutAll_mapAll]

end

lemma children_layout_map (base : Nat) (f : α → β) (t : Branch α) :
    ((t.map f).layout base).map Slot.children = (t.layout base).map Slot.children := by
  rw [layout_map, List.map_map]
  rfl

mutual

lemma labels_map (f : α → β) : ∀ t : Branch α, (t.map f).labels = t.labels.map f
  | .node a ts => by rw [map, labels, labels, labelsAll_mapAll, List.map_cons]

lemma labelsAll_mapAll (f : α → β) : ∀ ts : List (Branch α),
    labelsAll (mapAll f ts) = (labelsAll ts).map f
  | [] => rfl
  | t :: ts => by rw [mapAll, labelsAll, labelsAll, labels_map, labelsAll_mapAll, List.map_append]

end

lemma mem_labels_map {f : α → β} {b : β} {t : Branch α} :
    b ∈ (t.map f).labels ↔ ∃ a ∈ t.labels, f a = b := by
  rw [labels_map, List.mem_map]

lemma mem_labelsAll {a : α} {ts : List (Branch α)} :
    a ∈ labelsAll ts ↔ ∃ t ∈ ts, a ∈ t.labels := by
  induction ts with
  | nil => simp [labelsAll]
  | cons t ts ih => simp [labelsAll, ih]

mutual

lemma map_label_layout : ∀ (base : Nat) (t : Branch α), (t.layout base).map Slot.label = t.labels
  | base, .node a ts => by rw [layout, labels, List.map_cons, map_label_layoutAll]

lemma map_label_layoutAll : ∀ (base : Nat) (ts : List (Branch α)),
    (layoutAll base ts).map Slot.label = labelsAll ts
  | _, [] => rfl
  | base, t :: ts => by
      rw [layoutAll, labelsAll, List.map_append, map_label_layout, map_label_layoutAll]

end

section Refill

variable {γ ε : Type} {g : γ → α → β} {p : β → ε} {q : α → ε}

mutual

/-- Changing the labels of a layout one by one, with the help of a list that is long enough, makes
the layout of a branch of the same shape. -/
theorem exists_layout_zipWith (hg : ∀ c a, p (g c a) = q a) :
    ∀ (base : Nat) (t : Branch α) (cs : List γ), cs.length = t.size →
    ∃ u : Branch β, u.map p = t.map q ∧
      List.zipWith (fun c slot => (⟨g c slot.label, slot.children⟩ : Slot β)) cs (t.layout base) =
        u.layout base
  | _, .node a ts, [], h => by
      rw [size_node, List.length_nil] at h
      omega
  | base, .node a ts, c :: cs, h => by
      rw [size_node, List.length_cons] at h
      obtain ⟨us, hmap, hus⟩ := exists_layoutAll_zipWith hg (base + 1) ts cs (by omega)
      have hroots : roots (base + 1) us = roots (base + 1) ts := by
        rw [← roots_map p, hmap, roots_map]
      refine ⟨.node (g c a) us, by rw [map_node, map_node, hg, hmap], ?_⟩
      rw [layout, layout, List.zipWith_cons_cons, hus, hroots]

theorem exists_layoutAll_zipWith (hg : ∀ c a, p (g c a) = q a) :
    ∀ (base : Nat) (ts : List (Branch α)) (cs : List γ), cs.length = sizeAll ts →
    ∃ us : List (Branch β), us.map (map p) = ts.map (map q) ∧
      List.zipWith (fun c slot => (⟨g c slot.label, slot.children⟩ : Slot β)) cs
        (layoutAll base ts) = layoutAll base us
  | _, [], cs, _ => ⟨[], rfl, by simp [layoutAll]⟩
  | base, t :: ts, cs, h => by
      rw [sizeAll_cons] at h
      obtain ⟨u, hmap, hu⟩ := exists_layout_zipWith hg base t (cs.take t.size)
        (by rw [List.length_take]; omega)
      obtain ⟨us, hmaps, hus⟩ := exists_layoutAll_zipWith hg (base + t.size) ts (cs.drop t.size)
        (by rw [List.length_drop]; omega)
      have hsize : u.size = t.size := by
        have := congrArg size hmap
        rwa [size_map, size_map] at this
      refine ⟨u :: us, by rw [List.map_cons, List.map_cons, hmap, hmaps], ?_⟩
      rw [layoutAll, layoutAll, hsize, ← hu, ← hus, ← List.zipWith_append, List.take_append_drop]
      rw [List.length_take, length_layout]
      omega

end

end Refill

/-- A flat list is its labels put to its references. -/
lemma zipWith_label : ∀ {slots : List (Slot β)} {refs : List (Slot α)},
    slots.map Slot.children = refs.map Slot.children →
    List.zipWith (fun c slot => (⟨c, slot.children⟩ : Slot β)) (slots.map Slot.label) refs = slots
  | [], _, _ => rfl
  | _ :: _, [], h => by simp at h
  | slot :: slots, ref :: refs, h => by
      simp only [List.map_cons, List.cons.injEq] at h
      rw [List.map_cons, List.zipWith_cons_cons, zipWith_label h.2, ← h.1]

/-- A flat list whose references are those of a layout is itself the layout of a branch of the same
shape, whatever stands at its nodes. -/
theorem exists_layout_eq {slots : List (Slot β)} {t : Branch α}
    (h : slots.map Slot.children = (t.layout 0).map Slot.children) :
    ∃ u : Branch β, u.size = t.size ∧ slots = u.layout 0 := by
  have hlen : (slots.map Slot.label).length = t.size := by
    have := congrArg List.length h
    simpa using this
  obtain ⟨u, hmap, hu⟩ := exists_layout_zipWith (g := fun c _ => c) (p := fun _ => ())
    (q := fun _ => ()) (fun _ _ => rfl) 0 t (slots.map Slot.label) hlen
  refine ⟨u, ?_, ?_⟩
  · have := congrArg size hmap
    rwa [size_map, size_map] at this
  · rw [← hu, zipWith_label h]

/-! ## The parts of a branch -/

mutual

/-- Every branch that stands in a branch, in pre-order: first itself. -/
def parts : Branch α → List (Branch α)
  | node a ts => node a ts :: partsAll ts

/-- Every branch that stands in one of several branches, in pre-order. -/
def partsAll : List (Branch α) → List (Branch α)
  | [] => []
  | t :: ts => parts t ++ partsAll ts

end

mutual

@[simp] lemma length_parts : ∀ t : Branch α, t.parts.length = t.size
  | .node a ts => by rw [parts, List.length_cons, length_partsAll, size_node, Nat.add_comm]

@[simp] lemma length_partsAll : ∀ ts : List (Branch α), (partsAll ts).length = sizeAll ts
  | [] => rfl
  | t :: ts => by
      rw [partsAll, List.length_append, length_parts, length_partsAll, sizeAll_cons]

end

mutual

lemma labels_eq_map_parts : ∀ t : Branch α, t.labels = t.parts.map label
  | .node a ts => by rw [labels, parts, List.map_cons, labelsAll_eq_map_partsAll, label]

lemma labelsAll_eq_map_partsAll : ∀ ts : List (Branch α), labelsAll ts = (partsAll ts).map label
  | [] => rfl
  | t :: ts => by
      rw [labelsAll, partsAll, List.map_append, labels_eq_map_parts, labelsAll_eq_map_partsAll]

end

mutual

lemma parts_map (f : α → β) : ∀ t : Branch α, (t.map f).parts = t.parts.map (map f)
  | .node a ts => by
      rw [map, parts, partsAll_mapAll, parts, List.map_cons, map]

lemma partsAll_mapAll (f : α → β) : ∀ ts : List (Branch α),
    partsAll (mapAll f ts) = (partsAll ts).map (map f)
  | [] => rfl
  | t :: ts => by
      rw [mapAll, partsAll, partsAll, List.map_append, parts_map, partsAll_mapAll]

end

lemma mem_partsAll {s : Branch α} {ts : List (Branch α)} :
    s ∈ partsAll ts ↔ ∃ t ∈ ts, s ∈ t.parts := by
  induction ts with
  | nil => simp [partsAll]
  | cons t ts ih => simp [partsAll, ih]

lemma self_mem_parts (t : Branch α) : t ∈ t.parts := by
  obtain ⟨a, ts⟩ := t
  simp [parts]

/-- The children of a part are parts. -/
lemma mem_parts_of_children {b s t : Branch α} (hs : s ∈ b.parts) (ht : t ∈ s.children) :
    t ∈ b.parts := by
  induction b with
  | node a us ih =>
      rw [parts, List.mem_cons] at hs ⊢
      refine .inr ?_
      rcases hs with rfl | hs
      · exact mem_partsAll.mpr ⟨t, ht, t.self_mem_parts⟩
      · obtain ⟨u, hu, hsu⟩ := mem_partsAll.mp hs
        exact mem_partsAll.mpr ⟨u, hu, ih u hu hsu⟩

lemma label_mem_labels (t : Branch α) : t.label ∈ t.labels := by
  obtain ⟨a, ts⟩ := t
  exact List.mem_cons_self

/-- The slot at a position is the root of the part there, and its children are laid out right
behind it. -/
def slotAt (position : Nat) (s : Branch α) : Slot α := ⟨s.label, roots (position + 1) s.children⟩

@[simp] lemma slotAt_node (position : Nat) (a : α) (ts : List (Branch α)) :
    slotAt position (node a ts) = ⟨a, roots (position + 1) ts⟩ := rfl

mutual

/-- **A layout is the list of the parts**, each written down as the slot at its position. -/
theorem getElem?_layout : ∀ (base : Nat) (t : Branch α) (k : Nat),
    (t.layout base)[k]? = t.parts[k]?.map (slotAt (base + k))
  | base, .node a ts, 0 => by simp [layout, parts]
  | base, .node a ts, k + 1 => by
      rw [layout, parts, List.getElem?_cons_succ, List.getElem?_cons_succ, getElem?_layoutAll,
        Nat.add_right_comm base 1 k, Nat.add_assoc]

theorem getElem?_layoutAll : ∀ (base : Nat) (ts : List (Branch α)) (k : Nat),
    (layoutAll base ts)[k]? = (partsAll ts)[k]?.map (slotAt (base + k))
  | _, [], k => by simp [layoutAll, partsAll]
  | base, t :: ts, k => by
      rw [layoutAll, partsAll, List.getElem?_append, List.getElem?_append, length_layout,
        length_parts]
      split
      · exact getElem?_layout base t k
      · next h =>
          rw [getElem?_layoutAll, show base + t.size + (k - t.size) = base + k by omega]

end

mutual

/-- A part splits the layout into what stands before it, its own layout, and what stands behind. -/
theorem exists_layout_split : ∀ (base : Nat) (t s : Branch α) (k : Nat), t.parts[k]? = some s →
    ∃ pre post, t.layout base = pre ++ s.layout (base + k) ++ post ∧ pre.length = k
  | base, .node a ts, s, 0, h => by
      simp only [parts, List.getElem?_cons_zero, Option.some.injEq] at h
      subst h
      exact ⟨[], [], by simp, rfl⟩
  | base, .node a ts, s, k + 1, h => by
      rw [parts, List.getElem?_cons_succ] at h
      obtain ⟨pre, post, heq, hlen⟩ := exists_layoutAll_split (base + 1) ts s k h
      refine ⟨⟨a, roots (base + 1) ts⟩ :: pre, post, ?_, by simp [hlen]⟩
      rw [layout, heq, show base + 1 + k = base + (k + 1) by omega]
      simp

theorem exists_layoutAll_split : ∀ (base : Nat) (ts : List (Branch α)) (s : Branch α) (k : Nat),
    (partsAll ts)[k]? = some s →
    ∃ pre post, layoutAll base ts = pre ++ s.layout (base + k) ++ post ∧ pre.length = k
  | _, [], s, k, h => by simp [partsAll] at h
  | base, t :: ts, s, k, h => by
      rw [partsAll, List.getElem?_append, length_parts] at h
      split at h
      · obtain ⟨pre, post, heq, hlen⟩ := exists_layout_split base t s k h
        refine ⟨pre, post ++ layoutAll (base + t.size) ts, ?_, hlen⟩
        rw [layoutAll, heq]
        simp
      · next hk =>
          obtain ⟨pre, post, heq, hlen⟩ := exists_layoutAll_split (base + t.size) ts s _ h
          refine ⟨t.layout base ++ pre, post, ?_, by simp [hlen]; omega⟩
          rw [layoutAll, heq, show base + t.size + (k - t.size) = base + k by omega]
          simp

end

end Branch

namespace Slot

open Branch

variable {α β : Type}

/-! ## Flat lists that hold a branch -/

/-- The layout of a branch stands in a flat list from a position on. -/
def Holds (slots : List (Slot α)) (base : Nat) (t : Branch α) : Prop :=
  ∃ pre post, slots = pre ++ t.layout base ++ post ∧ pre.length = base

/-- The layouts of branches stand in a flat list one behind the other from a position on. -/
def HoldsAll (slots : List (Slot α)) (base : Nat) (ts : List (Branch α)) : Prop :=
  ∃ pre post, slots = pre ++ layoutAll base ts ++ post ∧ pre.length = base

variable {slots : List (Slot α)} {base : Nat} {t : Branch α} {ts : List (Branch α)}

lemma holds_layout (t : Branch α) : Holds (t.layout 0) 0 t := ⟨[], [], by simp, rfl⟩

lemma Holds.le (h : Holds slots base t) : base + t.size ≤ slots.length := by
  obtain ⟨pre, post, rfl, rfl⟩ := h
  simp

lemma Holds.lt (h : Holds slots base t) : base < slots.length := by
  have := h.le
  have := t.size_pos
  omega

lemma Holds.getElem? (h : Holds slots base t) : slots[base]? = some (slotAt base t) := by
  obtain ⟨pre, post, rfl, rfl⟩ := h
  obtain ⟨a, ts⟩ := t
  simp [layout]

lemma Holds.get (h : Holds slots base t) (hlt : base < slots.length) :
    slots[base] = slotAt base t := by
  have hslot := h.getElem?
  rwa [List.getElem?_eq_getElem hlt, Option.some.injEq] at hslot

lemma Holds.children (h : Holds slots base t) : HoldsAll slots (base + 1) t.children := by
  obtain ⟨pre, post, rfl, rfl⟩ := h
  obtain ⟨a, ts⟩ := t
  exact ⟨pre ++ [slotAt pre.length (.node a ts)], post, by simp [layout], by simp⟩

lemma HoldsAll.head (h : HoldsAll slots base (t :: ts)) : Holds slots base t := by
  obtain ⟨pre, post, rfl, rfl⟩ := h
  exact ⟨pre, layoutAll (pre.length + t.size) ts ++ post, by simp [layoutAll], rfl⟩

lemma HoldsAll.tail (h : HoldsAll slots base (t :: ts)) : HoldsAll slots (base + t.size) ts := by
  obtain ⟨pre, post, rfl, rfl⟩ := h
  exact ⟨pre ++ t.layout pre.length, post, by simp [layoutAll], by simp⟩

/-- The list holds the part at a position of a branch that it holds. -/
lemma Holds.part (h : Holds slots base t) {k : Nat} {s : Branch α} (hs : t.parts[k]? = some s) :
    Holds slots (base + k) s := by
  obtain ⟨pre, post, rfl, rfl⟩ := h
  obtain ⟨pre', post', heq, hlen⟩ := exists_layout_split pre.length t s k hs
  refine ⟨pre ++ pre', post' ++ post, ?_, by simp [hlen]⟩
  rw [heq]
  simp

/-- The list holds each of several branches at the position of its root. -/
lemma HoldsAll.get (h : HoldsAll slots base ts) {j c : Nat} (hc : (roots base ts)[j]? = some c) :
    ∃ t, ts[j]? = some t ∧ Holds slots c t := by
  induction ts generalizing base j with
  | nil => simp [roots] at hc
  | cons t ts ih =>
      cases j with
      | zero =>
          simp only [roots, List.getElem?_cons_zero, Option.some.injEq] at hc
          subst hc
          exact ⟨t, rfl, h.head⟩
      | succ j =>
          rw [roots, List.getElem?_cons_succ] at hc
          obtain ⟨u, hu, hold⟩ := ih h.tail hc
          exact ⟨u, by rwa [List.getElem?_cons_succ], hold⟩

/-- The flat list with another branch of the same size in place of the one at a position. -/
def graft (slots : List (Slot α)) (i : Nat) (t : Branch α) : List (Slot α) :=
  slots.take i ++ t.layout i ++ slots.drop (i + t.size)

lemma graft_append (pre post : List (Slot α)) {t u : Branch α} (h : u.size = t.size) :
    graft (pre ++ t.layout pre.length ++ post) pre.length u =
      pre ++ u.layout pre.length ++ post := by
  have hlen : pre.length + u.size = (pre ++ t.layout pre.length).length := by simp [h]
  rw [graft, hlen, List.drop_left, List.append_assoc pre (t.layout pre.length) post, List.take_left]

lemma Holds.graft (h : Holds slots base t) {u : Branch α} (hsize : u.size = t.size) :
    Holds (graft slots base u) base u := by
  obtain ⟨pre, post, rfl, rfl⟩ := h
  exact ⟨pre, post, graft_append pre post hsize, rfl⟩

/-! ## Reading at a position -/

/-- Every reference that a layout writes points forward and inside the list. -/
lemma HoldsAll.forward (h : HoldsAll slots base ts) {i c : Nat} (hi : i < base)
    (hc : c ∈ roots base ts) : Forward slots.length i c := by
  have hle := le_of_mem_roots hc
  have hlt := lt_of_mem_roots hc
  obtain ⟨pre, post, rfl, rfl⟩ := h
  refine ⟨by omega, ?_⟩
  simp only [List.length_append, length_layoutAll]
  omega

mutual

/-- **Reading at a position gives back the branch that stands there.** -/
theorem branchAt_of_holds {slots : List (Slot α)} : ∀ (t : Branch α) {base : Nat}
    (_ : Holds slots base t) (hlt : base < slots.length), branchAt slots base hlt = t
  | .node a ts, base, h, hlt => by
      rw [branchAt, h.get hlt, slotAt_node,
        filterMap_branchAt ts h.children (Nat.lt_succ_self base)]

theorem filterMap_branchAt {slots : List (Slot α)} : ∀ (ts : List (Branch α)) {base i : Nat}
    (_ : HoldsAll slots base ts) (_ : i < base),
    ((roots base ts).filterMap fun c =>
      if hc : Forward slots.length i c then some (branchAt slots c hc.2) else none) = ts
  | [], _, _, _, _ => rfl
  | t :: ts, base, i, h, hi => by
      have hfwd : Forward slots.length i base := h.forward hi (by simp [roots])
      rw [roots, List.filterMap_cons, dif_pos hfwd]
      simp only
      rw [branchAt_of_holds t h.head hfwd.2,
        filterMap_branchAt ts h.tail (Nat.lt_of_lt_of_le hi (Nat.le_add_right _ _))]

end

lemma branchAt_layout (t : Branch α) (h : 0 < (t.layout 0).length) :
    branchAt (t.layout 0) 0 h = t :=
  branchAt_of_holds t (holds_layout t) h

mutual

/-- The walk of a branch visits its positions in order. -/
theorem walk_of_holds {slots : List (Slot α)} : ∀ (t : Branch α) {base : Nat} (depth : Nat)
    (_ : Holds slots base t), (walk slots base depth).map Prod.fst = List.range' base t.size
  | .node a ts, base, depth, h => by
      rw [walk, dif_pos h.lt, h.get h.lt, slotAt_node, List.map_cons,
        flatMap_walk ts (depth + 1) h.children (Nat.lt_succ_self base), size_node,
        Nat.add_comm 1, List.range'_succ]

theorem flatMap_walk {slots : List (Slot α)} : ∀ (ts : List (Branch α)) {base i : Nat}
    (depth : Nat) (_ : HoldsAll slots base ts) (_ : i < base),
    ((roots base ts).flatMap fun c =>
      if _hc : Forward slots.length i c then walk slots c depth else []).map Prod.fst =
        List.range' base (sizeAll ts)
  | [], _, _, _, _, _ => rfl
  | t :: ts, base, i, depth, h, hi => by
      have hfwd : Forward slots.length i base := h.forward hi (by simp [roots])
      rw [roots, List.flatMap_cons, dif_pos hfwd, List.map_append, walk_of_holds t depth h.head,
        flatMap_walk ts depth h.tail (Nat.lt_of_lt_of_le hi (Nat.le_add_right _ _)), sizeAll_cons,
        ← List.range'_append_1]

end

/-- **The positions strictly below a node are the stretch right behind it.** -/
theorem below_of_holds (h : Holds slots base t) :
    below slots base = List.range' (base + 1) (t.size - 1) := by
  rw [below, List.map_tail, walk_of_holds t 0 h]
  obtain ⟨a, ts⟩ := t
  rw [size_node, Nat.add_comm, List.range'_succ, List.tail_cons, Nat.add_sub_cancel]

/-- What stands below a node are the labels of its subtrees, in order. -/
lemma Holds.getElem?_below (h : Holds slots base t) {k : Nat} (hk : k < sizeAll t.children) :
    (slots[base + 1 + k]?).map label = (labelsAll t.children)[k]? := by
  obtain ⟨pre, post, heq, hlen⟩ := h.children
  rw [← hlen, ← List.getElem?_map, heq, ← map_label_layoutAll pre.length t.children]
  simp only [List.map_append, List.append_assoc, hlen]
  rw [List.getElem?_append_right (by rw [List.length_map]; omega), List.length_map, hlen,
    Nat.add_sub_cancel_left, List.getElem?_append_left (by simpa using hk)]

end Slot

end BehaviorTree
