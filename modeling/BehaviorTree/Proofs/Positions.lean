import BehaviorTree.Proofs.ActivePath
import Mathlib.Data.List.Range
import Mathlib.Logic.Relation

/-!
# Positions in an arena

Where the nodes of a laid out tree stand, said with the references of the arena alone:

* **`children_perm_layout`** — every position but the first is referred to once, and the first one
  never.
* `Arena.Spans` and `Arena.Tiles` — the nodes at or below a position are a stretch that begins with
  it, and the subtrees of its children tile the rest of that stretch, in order.
  **`Arena.spans_of_holds`**, **`Arena.tiles_of_holds`**: so it is wherever a tree is laid out.
* `Arena.AtDepth` — a position is so many references below another one, and it has one depth
  (`Arena.AtDepth.unique`).  The walk of the arena tells it (`Arena.atDepth_of_mem_walk`).
* `Slot.stackWalk` — the walk as a loop over an explicit stack of positions.
  **`stackWalk_eq_walk`**: in a laid out tree it ends, it meets no position outside of the arena,
  and it visits what the plain recursion visits, in the same order.
-/

namespace BehaviorTree

open Branch Relation
open scoped List

variable {α L : Type}

/-! ## References -/

namespace Branch

mutual

/-- **Every position of a layout but the first is referred to once**, and the first one never. -/
theorem children_perm_layout : ∀ (base : Nat) (t : Branch α),
    ((t.layout base).flatMap Slot.children).Perm (List.range' (base + 1) (t.size - 1))
  | base, .node a ts => by
      rw [layout, List.flatMap_cons, size_node, Nat.add_sub_cancel_left]
      exact roots_perm_layoutAll (base + 1) ts

theorem roots_perm_layoutAll : ∀ (base : Nat) (ts : List (Branch α)),
    (roots base ts ++ (layoutAll base ts).flatMap Slot.children).Perm
      (List.range' base (sizeAll ts))
  | base, [] => by simp [roots, layoutAll]
  | base, t :: ts => by
      have hpos := t.size_pos
      have hrange : List.range' base (t.size + sizeAll ts) =
          base :: (List.range' (base + 1) (t.size - 1) ++
            List.range' (base + t.size) (sizeAll ts)) := by
        rw [← List.cons_append, ← List.range'_succ, Nat.sub_add_cancel hpos, List.range'_append_1]
      rw [roots, layoutAll, List.flatMap_append, sizeAll_cons, hrange, List.cons_append,
        List.perm_cons]
      calc roots (base + t.size) ts ++ ((t.layout base).flatMap Slot.children ++
              (layoutAll (base + t.size) ts).flatMap Slot.children)
          = roots (base + t.size) ts ++ (t.layout base).flatMap Slot.children ++
              (layoutAll (base + t.size) ts).flatMap Slot.children := by rw [List.append_assoc]
        _ ~ (t.layout base).flatMap Slot.children ++ roots (base + t.size) ts ++
              (layoutAll (base + t.size) ts).flatMap Slot.children :=
            (List.perm_append_comm).append_right _
        _ = (t.layout base).flatMap Slot.children ++ (roots (base + t.size) ts ++
              (layoutAll (base + t.size) ts).flatMap Slot.children) := by rw [List.append_assoc]
        _ ~ List.range' (base + 1) (t.size - 1) ++ List.range' (base + t.size) (sizeAll ts) :=
            (children_perm_layout base t).append (roots_perm_layoutAll (base + t.size) ts)

end

mutual

/-- **Every label of a branch but the first is that of a child of one part**, and the first one of
none. -/
theorem children_perm_labels : ∀ t : Branch α,
    (t.parts.flatMap fun s => s.children.map label).Perm (labelsAll t.children)
  | .node _ ts => by
      rw [parts, List.flatMap_cons]
      exact roots_perm_labelsAll ts

theorem roots_perm_labelsAll : ∀ ts : List (Branch α),
    (ts.map label ++ (partsAll ts).flatMap fun s => s.children.map label).Perm (labelsAll ts)
  | [] => by simp [partsAll, labelsAll]
  | t :: ts => by
      have hlabels : t.labels = t.label :: labelsAll t.children := by
        obtain ⟨a, us⟩ := t
        rfl
      rw [partsAll, List.flatMap_append, labelsAll, hlabels, List.map_cons, List.cons_append,
        List.cons_append, List.perm_cons]
      calc ts.map label ++ ((t.parts.flatMap fun s => s.children.map label) ++
              (partsAll ts).flatMap fun s => s.children.map label)
          = ts.map label ++ (t.parts.flatMap fun s => s.children.map label) ++
              (partsAll ts).flatMap fun s => s.children.map label := by rw [List.append_assoc]
        _ ~ (t.parts.flatMap fun s => s.children.map label) ++ ts.map label ++
              (partsAll ts).flatMap fun s => s.children.map label :=
            (List.perm_append_comm).append_right _
        _ = (t.parts.flatMap fun s => s.children.map label) ++ (ts.map label ++
              (partsAll ts).flatMap fun s => s.children.map label) := by rw [List.append_assoc]
        _ ~ labelsAll t.children ++ labelsAll ts :=
            (children_perm_labels t).append (roots_perm_labelsAll ts)

end

lemma size_le_sizeAll {t : Branch α} {ts : List (Branch α)} (h : t ∈ ts) :
    t.size ≤ sizeAll ts := by
  induction ts with
  | nil => exact absurd h List.not_mem_nil
  | cons u ts ih =>
      rw [sizeAll_cons]
      rcases List.mem_cons.mp h with rfl | h
      · exact Nat.le_add_right _ _
      · exact (ih h).trans (Nat.le_add_left _ _)

lemma length_le_sizeAll (ts : List (Branch α)) : ts.length ≤ sizeAll ts := by
  induction ts with
  | nil => exact Nat.le_refl 0
  | cons t ts ih =>
      have hpos := t.size_pos
      rw [List.length_cons, sizeAll_cons]
      omega

/-- A part ends where the branch ends, or earlier. -/
lemma le_size_of_part {t s : Branch α} {k : Nat} (h : t.parts[k]? = some s) :
    k + s.size ≤ t.size := by
  obtain ⟨pre, post, heq, hlen⟩ := exists_layout_split 0 t s k h
  have hsize := congrArg List.length heq
  simp only [length_layout, List.length_append] at hsize
  omega

end Branch

/-! ## Stretches -/

namespace Arena

/-- The nodes at or below a position are those of the stretch from it up to `hi`. -/
def Spans (a : Arena L) (lo hi : Nat) : Prop :=
  ∀ k, ReflTransGen a.Refers lo k ↔ lo ≤ k ∧ k < hi

/-- What stands at or below several positions tiles the stretch from `lo` to `hi`: each position
begins where the stretch of the one before it ends. -/
inductive Tiles (a : Arena L) : Nat → List Nat → Nat → Prop
  | nil (k : Nat) : Tiles a k [] k
  | cons {lo mid hi : Nat} {cs : List Nat} : a.Spans lo mid → Tiles a mid cs hi →
    Tiles a lo (lo :: cs) hi

/-- A position is so many references below another one. -/
inductive AtDepth (a : Arena L) : Nat → Nat → Nat → Prop
  | here (i : Nat) : AtDepth a i 0 i
  | down {i c k depth : Nat} : a.Refers i c → AtDepth a c depth k → AtDepth a i (depth + 1) k

variable {a : Arena L} {base : Nat}

lemma refers_iff {t : Branch (Node L)} (h : Slot.Holds a base t) {c : Nat} :
    a.Refers base c ↔ c ∈ roots (base + 1) t.children := by
  constructor
  · rintro ⟨slot, hslot, hc⟩
    rw [h.getElem?, Option.some.injEq] at hslot
    subst hslot
    exact hc
  · exact fun hc => ⟨_, h.getElem?, hc⟩

/-- References do not lead out of the stretch of a laid out tree. -/
lemma mem_stretch_of_refers {t : Branch (Node L)} (h : Slot.Holds a base t) {p c : Nat}
    (hp : base ≤ p ∧ p < base + t.size) (hc : a.Refers p c) :
    base ≤ c ∧ c < base + t.size := by
  obtain ⟨s, hs⟩ : ∃ s, t.parts[p - base]? = some s :=
    ⟨_, List.getElem?_eq_getElem (by rw [length_parts]; omega)⟩
  have hholds := h.part hs
  have hend := le_size_of_part hs
  rw [Nat.add_sub_cancel' hp.1] at hholds
  have hroots := (refers_iff hholds).mp hc
  have hle := le_of_mem_roots hroots
  have hlt := lt_of_mem_roots hroots
  have hsize : s.size = 1 + sizeAll s.children := by
    obtain ⟨n, ts⟩ := s
    rfl
  omega

mutual

/-- Every position of the stretch is reached from its beginning. -/
theorem reaches_of_holds : ∀ (t : Branch (Node L)) {base k : Nat} (_ : Slot.Holds a base t)
    (_ : base ≤ k) (_ : k < base + t.size), ReflTransGen a.Refers base k
  | .node n ts, base, k, h, hle, hlt => by
      rcases Nat.eq_or_lt_of_le hle with rfl | hbelow
      · exact .refl
      · rw [size_node] at hlt
        obtain ⟨c, hc, hreaches⟩ := exists_reaches_of_holdsAll ts h.children hbelow (by omega)
        exact .head ((refers_iff h).mpr hc) hreaches

theorem exists_reaches_of_holdsAll : ∀ (ts : List (Branch (Node L))) {base k : Nat}
    (_ : Slot.HoldsAll a base ts) (_ : base ≤ k) (_ : k < base + sizeAll ts),
    ∃ c ∈ roots base ts, ReflTransGen a.Refers c k
  | [], _, _, _, _, hlt => by
      rw [sizeAll_nil] at hlt
      omega
  | t :: ts, base, k, h, hle, hlt => by
      rw [sizeAll_cons] at hlt
      rcases Nat.lt_or_ge k (base + t.size) with hin | hout
      · exact ⟨base, List.mem_cons_self, reaches_of_holds t h.head hle hin⟩
      · obtain ⟨c, hc, hreaches⟩ := exists_reaches_of_holdsAll ts h.tail hout (by omega)
        exact ⟨c, List.mem_cons_of_mem _ hc, hreaches⟩

end

/-- **The nodes at or below the root of a laid out tree are its stretch.** -/
theorem spans_of_holds {t : Branch (Node L)} (h : Slot.Holds a base t) :
    a.Spans base (base + t.size) := by
  intro k
  constructor
  · intro hk
    induction hk with
    | refl =>
        have := t.size_pos
        omega
    | tail _ hrefers ih => exact mem_stretch_of_refers h ih hrefers
  · exact fun hk => reaches_of_holds t h hk.1 hk.2

/-- **Trees laid out one behind the other tile their stretch.** -/
theorem tiles_of_holdsAll {ts : List (Branch (Node L))} (h : Slot.HoldsAll a base ts) :
    a.Tiles base (roots base ts) (base + sizeAll ts) := by
  induction ts generalizing base with
  | nil => exact .nil base
  | cons t ts ih =>
      rw [roots, sizeAll_cons, ← Nat.add_assoc]
      exact .cons (spans_of_holds h.head) (ih h.tail)

/-- The children of a node tile what is below it. -/
lemma tiles_of_holds {t : Branch (Node L)} (h : Slot.Holds a base t) :
    a.Tiles (base + 1) (slotAt base t).children (base + t.size) := by
  have htiles := tiles_of_holdsAll h.children
  obtain ⟨n, ts⟩ := t
  rwa [Nat.add_assoc] at htiles

end Arena

/-! ## Walks -/

namespace Slot

variable {slots : List (Slot α)} {base : Nat}

/-- The references to laid out branches lead to their roots. -/
lemma HoldsAll.map_getElem?_roots {ts : List (Branch α)} (h : HoldsAll slots base ts) :
    (roots base ts).map (fun c => slots[c]?.map Slot.label) = ts.map fun t => some t.label := by
  induction ts generalizing base with
  | nil => rfl
  | cons t ts ih =>
      rw [roots, List.map_cons, List.map_cons, ih h.tail, h.head.getElem?]
      rfl

/-- Every position behind the first one of a layout is referred to from an earlier one. -/
lemma exists_parent (t : Branch α) {j : Nat} (hpos : 0 < j) (hj : j < t.size) :
    ∃ p < j, ∃ (slot : Slot α) (k : Nat),
      (t.layout 0)[p]? = some slot ∧ slot.children[k]? = some j := by
  have hmem : j ∈ (t.layout 0).flatMap Slot.children := by
    rw [(children_perm_layout 0 t).mem_iff, List.mem_range'_1]
    omega
  obtain ⟨slot, hslot, hchild⟩ := List.mem_flatMap.mp hmem
  obtain ⟨p, hp⟩ := List.mem_iff_getElem?.mp hslot
  obtain ⟨k, hk⟩ := List.mem_iff_getElem?.mp hchild
  rw [getElem?_layout, Nat.zero_add, Option.map_eq_some_iff] at hp
  obtain ⟨s, hs, rfl⟩ := hp
  refine ⟨p, le_of_mem_roots hchild, slotAt p s, k, ?_, hk⟩
  rw [getElem?_layout, Nat.zero_add, hs]
  rfl

/-- The walk of a laid out tree goes through the root and then through the walks of its children. -/
lemma walk_of_holds_node {a : α} {ts : List (Branch α)} (h : Holds slots base (.node a ts))
    (depth : Nat) :
    walk slots base depth =
      (base, depth) :: (roots (base + 1) ts).flatMap fun c => walk slots c (depth + 1) := by
  rw [walk, dif_pos h.lt, h.get h.lt, slotAt_node]
  refine congrArg ((base, depth) :: ·) (List.flatMap_congr fun c hc => ?_)
  rw [dif_pos (h.children.forward (Nat.lt_succ_self base) hc)]

/-- Puts the children of a node on the stack, the last one first. -/
def push (children : List Nat) (depth : Nat) (stack : List (Nat × Nat)) : List (Nat × Nat) :=
  children.reverse.foldl (fun stack c => (c, depth) :: stack) stack

/-- The walk as a loop: the position on top of the stack is visited, and its children are put on
the stack.  There is no answer if a position outside of the list comes up, or if the time does not
suffice. -/
def stackWalk (slots : List (Slot α)) :
    (time : Nat) → (stack : List (Nat × Nat)) → Option (List (Nat × Nat))
  | 0, _ => none
  | _ + 1, [] => some []
  | time + 1, (i, depth) :: stack =>
    match slots[i]? with
    | none => none
    | some slot =>
      (stackWalk slots time (push slot.children (depth + 1) stack)).map ((i, depth) :: ·)

lemma push_eq (children : List Nat) (depth : Nat) (stack : List (Nat × Nat)) :
    push children depth stack = children.map (fun c => (c, depth)) ++ stack := by
  rw [push, List.foldl_reverse]
  induction children with
  | nil => rfl
  | cons c cs ih => exact congrArg ((c, depth) :: ·) ih

mutual

/-- With a laid out tree on top of the stack the loop first does the walk of that tree. -/
theorem stackWalk_of_holds : ∀ (t : Branch α) {base : Nat} (_ : Holds slots base t)
    (time depth : Nat) (stack : List (Nat × Nat)),
    stackWalk slots (t.size + time) ((base, depth) :: stack) =
      (stackWalk slots time stack).map (walk slots base depth ++ ·)
  | .node a ts, base, h, time, depth, stack => by
      rw [size_node, Nat.add_assoc, Nat.add_comm 1, stackWalk, h.getElem?]
      simp only [slotAt_node]
      rw [push_eq, stackWalk_of_holdsAll ts h.children, Option.map_map, walk_of_holds_node h]
      rfl

theorem stackWalk_of_holdsAll : ∀ (ts : List (Branch α)) {base : Nat}
    (_ : HoldsAll slots base ts) (time depth : Nat) (stack : List (Nat × Nat)),
    stackWalk slots (sizeAll ts + time) ((roots base ts).map (fun c => (c, depth)) ++ stack) =
      (stackWalk slots time stack).map
        (((roots base ts).flatMap fun c => walk slots c depth) ++ ·)
  | [], base, _, time, depth, stack => by simp [roots]
  | t :: ts, base, h, time, depth, stack => by
      rw [sizeAll_cons, Nat.add_assoc, roots, List.map_cons, List.cons_append,
        stackWalk_of_holds t h.head, stackWalk_of_holdsAll ts h.tail, Option.map_map,
        List.flatMap_cons]
      simp only [Function.comp_def, List.append_assoc]

end

/-- **The loop over a stack is the plain recursion**: it ends in time, it meets no position outside
of the list, and it visits the same positions in the same order. -/
theorem stackWalk_eq_walk {t : Branch α} (h : Holds slots base t) {time : Nat}
    (htime : t.size < time) (depth : Nat) :
    stackWalk slots time [(base, depth)] = some (walk slots base depth) := by
  obtain ⟨rest, rfl⟩ := Nat.exists_eq_add_of_lt htime
  rw [Nat.add_assoc, stackWalk_of_holds t h, stackWalk]
  simp

end Slot

namespace Arena

variable {a : Arena L}

mutual

/-- **The walk tells the depths.** -/
theorem atDepth_of_mem_walk : ∀ (t : Branch (Node L)) {base depth k e : Nat}
    (_ : Slot.Holds a base t) (_ : (k, e) ∈ Slot.walk a base depth),
    ∃ d, e = depth + d ∧ a.AtDepth base d k
  | .node n ts, base, depth, k, e, h, hmem => by
      rw [Slot.walk_of_holds_node h, List.mem_cons] at hmem
      rcases hmem with heq | hmem
      · obtain ⟨rfl, rfl⟩ := Prod.mk.inj heq
        exact ⟨0, rfl, .here k⟩
      · obtain ⟨c, hc, d, rfl, hdepth⟩ := exists_atDepth_of_mem_walk ts h.children hmem
        exact ⟨d + 1, by omega, .down ((refers_iff h).mpr hc) hdepth⟩

theorem exists_atDepth_of_mem_walk : ∀ (ts : List (Branch (Node L))) {base depth k e : Nat}
    (_ : Slot.HoldsAll a base ts)
    (_ : (k, e) ∈ (roots base ts).flatMap fun c => Slot.walk a c depth),
    ∃ c ∈ roots base ts, ∃ d, e = depth + d ∧ a.AtDepth c d k
  | [], _, _, _, _, _, hmem => by simp [roots] at hmem
  | t :: ts, base, depth, k, e, h, hmem => by
      rw [roots, List.flatMap_cons, List.mem_append] at hmem
      rcases hmem with hmem | hmem
      · obtain ⟨d, hd, hdepth⟩ := atDepth_of_mem_walk t h.head hmem
        exact ⟨base, List.mem_cons_self, d, hd, hdepth⟩
      · obtain ⟨c, hc, hrest⟩ := exists_atDepth_of_mem_walk ts h.tail hmem
        exact ⟨c, List.mem_cons_of_mem _ hc, hrest⟩

end

/-- The last reference on the way to a position. -/
lemma AtDepth.exists_last {i d k : Nat} (h : a.AtDepth i (d + 1) k) :
    ∃ p, a.AtDepth i d p ∧ a.Refers p k := by
  induction d generalizing i with
  | zero =>
      cases h with
      | down hrefers hbelow => cases hbelow; exact ⟨i, .here i, hrefers⟩
  | succ d ih =>
      cases h with
      | down hrefers hbelow =>
          obtain ⟨p, hp, hlast⟩ := ih hbelow
          exact ⟨p, .down hrefers hp, hlast⟩

/-- Each reference leads at least one position further. -/
lemma AtDepth.add_le (hforward : ∀ {p c : Nat}, a.Refers p c → p < c) {i d k : Nat}
    (h : a.AtDepth i d k) : i + d ≤ k := by
  induction h with
  | here i => omega
  | down hrefers _ ih =>
      have := hforward hrefers
      omega

/-- **A position has one depth** if every reference points forward and no two positions refer to
one. -/
theorem AtDepth.unique (hforward : ∀ {p c : Nat}, a.Refers p c → p < c)
    (hparent : ∀ {p q c : Nat}, a.Refers p c → a.Refers q c → p = q) {i k : Nat} :
    ∀ {d e : Nat}, a.AtDepth i d k → a.AtDepth i e k → d = e := by
  intro d
  induction d generalizing k with
  | zero =>
      intro e hd he
      cases hd
      have := he.add_le hforward
      omega
  | succ d ih =>
      intro e hd he
      obtain ⟨p, hp, hlast⟩ := hd.exists_last
      cases e with
      | zero =>
          cases he
          have := hd.add_le hforward
          omega
      | succ e =>
          obtain ⟨q, hq, hlast'⟩ := he.exists_last
          obtain rfl := hparent hlast hlast'
          rw [ih hp hq]

end Arena

end BehaviorTree
