import BehaviorTree.Proofs.Lockstep
import BehaviorTree.Proofs.Registry

/-!
# Copies of trees

An instance is a copy of a tree, and the tree may have been through anything before.  What stays the
same in the course of it is `Tree.static`: the identities, the kinds and the references, position by
position.  So a copy does not depend on when it is made, but for the private fields of the leaves.

* `Tree.Descends` — a tree comes of another one by runs and by copying.  **`Descends.static_eq`**:
  it has the same static nodes.
* `Arena.copyInto` — copying as a recursion that appends to one list of slots, and gives a node the
  new positions of its children once they have been copied.  **`copyInto_of_holds`**: it lays the
  copied branch out anew.
* `Tree.FaithfulCopy` — what a copy of a tree has to be.  **`Fresh.instantiate_faithful`**: an
  instance is one.
-/

namespace BehaviorTree

open Branch Slot

variable {L δ : Type}

/-! ## What stays the same -/

namespace Tree

/-- What is static about the nodes of a tree, with their references. -/
def static (t : Tree L) : List (Slot (NodeId × NodeKind Unit)) :=
  t.arena.map fun slot => ⟨slot.label.static, slot.children⟩

/-- A tree comes of another one: by runs, and by copying. -/
inductive Descends [Behavior L δ] (t₀ : Tree L) : Tree L → Prop
  | self : Descends t₀ t₀
  | performed {t : Tree L} (calls : List (Call δ)) :
    Descends t₀ t → Descends t₀ (t.performAll calls).1
  | copied {t : Tree L} : Descends t₀ t → Descends t₀ t.instantiate

section Static

variable {t u : Tree L} {b c : Branch (Node L)}

lemma Shows.static_eq (h : t.Shows b) : t.static = (b.map Node.static).layout 0 := by
  rw [Tree.static, h.arena, layout_map]

/-- What a descendant shows. -/
lemma Descends.exists_shows [Behavior L δ] (hd : t.Descends u) (h : t.Shows b) :
    ∃ c, u.Shows c ∧ c.map Node.static = b.map Node.static := by
  induction hd with
  | self => exact ⟨b, h, rfl⟩
  | performed calls _ ih =>
      obtain ⟨c, hc, hstatic⟩ := ih
      obtain ⟨d, hd, hsteps⟩ := hc.performAll calls
      exact ⟨d, hd, hsteps.map_static.trans hstatic⟩
  | copied _ ih =>
      obtain ⟨c, hc, hstatic⟩ := ih
      exact ⟨_, hc.instantiate.toShows, (map_static_map Node.static_pristine c).trans hstatic⟩

/-- **Runs and copies keep what is static** about the nodes of a tree, and their references. -/
theorem Descends.static_eq [Behavior L δ] (hd : t.Descends u) (h : t.Shows b) :
    u.static = t.static := by
  obtain ⟨c, hc, hstatic⟩ := hd.exists_shows h
  rw [hc.static_eq, hstatic, h.static_eq]

/-- What is recorded about an untouched tree depends on what is static about it alone. -/
lemma Pristine.snapshot_eq (h : t.Pristine b) : t.snapshot = t.static.map fun slot =>
    ⟨slot.label.1, slot.label.2.tag, .fresh, slot.label.2.cursor?, slot.label.2.cachedGate?⟩ := by
  rw [Tree.snapshot, Tree.static, List.map_map]
  refine List.map_congr_left fun slot hslot => ?_
  have hmem : slot.label ∈ b.labels := h.map_label ▸ List.mem_map_of_mem hslot
  have hkind := h.rewind_kind hmem
  have hstate := h.state_eq_fresh hmem
  obtain ⟨⟨id, kind, state⟩, cs⟩ := slot
  simp only at hkind hstate ⊢
  rw [← hkind, hstate]
  cases kind with
  | composite kind cascade cursor => cases kind <;> rfl
  | _ => rfl

/-- Trees with the same static nodes are related position by position. -/
lemma related_of_static (h : u.static = t.static) :
    t.arena.Related (fun n n' => n'.static = n.static) u.arena where
  children := by
    have := congrArg (List.map Slot.children) h
    simpa only [static, List.map_map, Function.comp_def] using this
  nodes i slot slot' hslot hslot' := by
    have := congrArg (fun slots => slots[i]?.map Slot.label) h
    simpa [static, hslot, hslot'] using this

/-- The positions of the identities are static. -/
lemma registry_congr (h : u.static = t.static) : u.registry = t.registry := by
  have hrelated := related_of_static h
  rw [registry, registry, Slot.walk_congr hrelated.children]
  refine List.filterMap_congr fun p _ => ?_
  exact hrelated.map_getElem? (f := fun n => (n.id, p.1))
    (fun hstatic => by rw [Node.id_eq_of_static hstatic]) p.1

end Static

end Tree

/-! ## Copying as it is done -/

namespace Arena

/-- Copies what is at and below a child behind the slots that are there, and notes its new
position. -/
def copyChild (copy : Nat → Arena L → Option (Nat × Arena L)) (done : List Nat × Arena L)
    (c : Nat) : Option (List Nat × Arena L) := do
  let (copied, out) ← copy c done.2
  return (done.1 ++ [copied], out)

/-- Copies what is at and below a position behind the slots that are there.  The node is written
down first, pristine and without children, and it gets the new positions of its children in the end.
There is no answer if a reference leads out of the arena, or if the time does not suffice. -/
def copyInto (a : Arena L) : (time : Nat) → Nat → Arena L → Option (Nat × Arena L)
  | 0, _, _ => none
  | time + 1, i, out => do
    let slot ← a[i]?
    let (positions, written) ← slot.children.foldlM (copyChild (a.copyInto time))
      ([], out ++ [⟨slot.label.pristine, []⟩])
    return (out.length, written.set out.length ⟨slot.label.pristine, positions⟩)

variable {a : Arena L}

/-- The children of a node are copied one behind the other. -/
lemma foldlM_copyChild {copy : Nat → Arena L → Option (Nat × Arena L)} {base : Nat}
    {ts : List (Branch (Node L))} (h : HoldsAll a base ts)
    (hcopy : ∀ t ∈ ts, ∀ i, Holds a i t → ∀ out, copy i out =
      some (out.length, out ++ (t.map Node.pristine).layout out.length))
    (done : List Nat) (out : Arena L) :
    (roots base ts).foldlM (copyChild copy) (done, out) =
      some (done ++ roots out.length ts,
        out ++ layoutAll out.length (ts.map (map Node.pristine))) := by
  induction ts generalizing base done out with
  | nil => simp [roots, layoutAll]
  | cons t ts ih =>
      have hhead := hcopy t List.mem_cons_self base h.head out
      have htail := ih h.tail fun u hu => hcopy u (List.mem_cons_of_mem _ hu)
      rw [roots, List.foldlM_cons, copyChild, hhead]
      simp only [Option.bind_eq_bind, Option.bind_some, Option.pure_def, htail]
      simp [roots, layoutAll, List.append_assoc]

/-- **Copying lays the copied branch out anew**, behind what is there. -/
theorem copyInto_of_holds (t : Branch (Node L)) : ∀ {time i : Nat}, t.size ≤ time → Holds a i t →
    ∀ out, a.copyInto time i out =
      some (out.length, out ++ (t.map Node.pristine).layout out.length) := by
  induction t with
  | node n ts ih =>
      intro time i htime h out
      rw [size_node] at htime
      obtain ⟨rest, rfl⟩ : ∃ rest, time = rest + 1 := ⟨time - 1, by omega⟩
      have hbelow : ∀ t ∈ ts, ∀ i, Holds a i t → ∀ out, a.copyInto rest i out =
          some (out.length, out ++ (t.map Node.pristine).layout out.length) := by
        intro t ht i hi
        have hle := size_le_sizeAll ht
        exact ih t ht (by omega) hi
      have hchildren := foldlM_copyChild h.children hbelow [] (out ++ [⟨n.pristine, []⟩])
      rw [copyInto, h.getElem?]
      simp only [Option.bind_eq_bind, Option.bind_some, Option.pure_def, slotAt_node,
        children_node] at hchildren ⊢
      rw [hchildren]
      simp [layout]

end Arena

/-! ## Instances -/

/-- A node without what has come of running it saves as before. -/
lemma Graph.shapeOf_rewind [Behavior L δ] (kind : NodeKind L) (children : List NodeId) :
    shapeOf kind.rewind children = shapeOf kind children := by
  cases kind <;> rfl

/-- Trees save as the same graph if their nodes do. -/
lemma Graph.ofTree_of_related [Behavior L δ] {R : Node L → Node L → Prop} {t u : Tree L}
    (h : t.arena.Related R u.arena)
    (hR : ∀ n n', R n n' → n'.id = n.id ∧ ∀ cs, shapeOf n'.kind cs = shapeOf n.kind cs) :
    ofTree u = ofTree t := by
  have hids := h.map_getElem? (f := Node.id) fun hrel => (hR _ _ hrel).1
  rw [ofTree, ofTree]
  simp only [hids]
  refine congrArg Graph.mk (List.ext_getElem? fun i => ?_)
  rw [List.getElem?_map, List.getElem?_map]
  rcases h.getElem? i with ⟨hnone, hnone'⟩ | ⟨n, n', cs, hn, hn', hrel⟩
  · rw [hnone, hnone']
  · simp only [hn, hn', Option.map_some, (hR n n' hrel).1, (hR n n' hrel).2]

/-- The leaves of a tree with their private fields, position by position. -/
def Tree.leaves (t : Tree L) : List (Option L) := t.arena.map fun slot => slot.label.kind.leaf?

/-- A copy that is faithful to a tree, and pristine as the template that the tree comes of. -/
structure Tree.FaithfulCopy [Behavior L δ] (template t u : Tree L) : Prop where
  /-- The nodes stand where they stood: the identities, the kinds with their rules and flags, and
  the references to children in order are the same at every position. -/
  static : u.static = t.static
  /-- The leaves have their private fields as they are at the moment. -/
  leaves : u.leaves = t.leaves
  /-- Nothing has come of running any node. -/
  untouched : ∀ slot ∈ u.arena, slot.label.state = .fresh ∧
    (∀ cursor, slot.label.kind.cursor? = some cursor → cursor = 0) ∧
    ∀ gate, slot.label.kind.cachedGate? = some gate → gate = false
  /-- This is all that there is to the nodes. -/
  arena : u.arena = t.arena.map fun slot =>
    ⟨⟨slot.label.id, slot.label.kind.rewind, .fresh⟩, slot.children⟩
  registry : u.registry = t.registry
  board : u.board = none
  state : u.state = .running
  /-- The recursion that appends to one list of slots ends, and comes to the arena of the copy. -/
  copied : ∀ time, t.size ≤ time → t.arena.copyInto time 0 [] = some (0, u.arena)
  snapshot : u.snapshot = template.snapshot
  saved : Graph.ofTree u = Graph.ofTree t
  again : u.instantiate = u

namespace Tree

section Instances

variable {t : Tree L} {b : Branch (Node L)}

/-- An instance has the nodes of the tree where they stand, each pristine. -/
lemma Shows.arena_instantiate (h : t.Shows b) :
    t.instantiate.arena = t.arena.relabelAll Node.pristine := by
  rw [h.instantiate.arena, layout_map, ← h.arena]
  rfl

lemma static_of_relabelAll {f : Node L → Node L} {u : Tree L}
    (harena : u.arena = t.arena.relabelAll f) (hf : ∀ n : Node L, (f n).static = n.static) :
    u.static = t.static := by
  rw [static, static, harena, Arena.relabelAll, List.map_map]
  exact List.map_congr_left fun slot _ => congrArg (Slot.mk · slot.children) (hf slot.label)

lemma leaves_of_relabelAll {f : Node L → Node L} {u : Tree L}
    (harena : u.arena = t.arena.relabelAll f) (hf : ∀ n : Node L, (f n).kind.leaf? = n.kind.leaf?) :
    u.leaves = t.leaves := by
  rw [leaves, leaves, harena, Arena.relabelAll, List.map_map]
  exact List.map_congr_left fun slot _ => hf slot.label

lemma untouched_rewind (kind : NodeKind L) :
    (∀ cursor, kind.rewind.cursor? = some cursor → cursor = 0) ∧
      ∀ gate, kind.rewind.cachedGate? = some gate → gate = false := by
  cases kind <;> simp [NodeKind.rewind, NodeKind.cursor?, NodeKind.cachedGate?]

/-- Copying an untouched tree makes the tree itself. -/
lemma Pristine.instantiate_eq (h : t.Pristine b) : t.instantiate = t := by
  have harena : t.instantiate.arena = t.arena := by
    rw [h.toShows.arena_instantiate, Arena.relabelAll]
    refine (List.map_congr_left fun slot hslot => ?_).trans (List.map_id _)
    rw [h.nodes _ (h.map_label ▸ List.mem_map_of_mem hslot)]
    rfl
  have hcopy := h.toShows.instantiate
  have hboard := hcopy.board.trans h.board.symm
  have hstate := hcopy.state.trans h.state.symm
  generalize t.instantiate = u at harena hboard hstate
  cases u
  cases t
  simp only at harena hboard hstate
  rw [harena, hboard, hstate]

variable [Behavior L δ]

/-- **An instance is a faithful copy**, whatever the tree has been through, and pristine as the
template. -/
theorem Fresh.instantiate_faithful {template : Tree L} (h : template.Fresh)
    (hd : template.Descends t) : FaithfulCopy template t t.instantiate := by
  obtain ⟨b, hb⟩ := h.pristine
  obtain ⟨c, hc, -⟩ := hd.exists_shows hb.toShows
  have hcopy := hc.instantiate
  have harena := hc.arena_instantiate
  have hstatic := static_of_relabelAll harena Node.static_pristine
  constructor
  case static => exact hstatic
  case leaves =>
    refine leaves_of_relabelAll harena fun n => ?_
    rw [Node.kind_pristine, NodeKind.leaf?_rewind]
  case untouched =>
    intro slot hslot
    rw [harena] at hslot
    obtain ⟨old, -, rfl⟩ := List.mem_map.mp hslot
    refine ⟨rfl, ?_⟩
    rw [Node.kind_pristine]
    exact untouched_rewind old.label.kind
  case arena =>
    rw [harena]
    refine List.map_congr_left fun slot _ => ?_
    rw [Node.pristine, NodeKind.duplicate_eq_rewind]
  case registry => exact registry_congr hstatic
  case board => exact hcopy.board
  case state => exact hcopy.state
  case copied =>
    intro time htime
    rw [Arena.copyInto_of_holds c (hc.size_eq ▸ htime) hc.holds [], hcopy.arena]
    rfl
  case snapshot =>
    rw [hcopy.snapshot_eq, hb.snapshot_eq, hstatic, hd.static_eq hb.toShows]
  case saved =>
    have hrelated : t.arena.Related (fun n n' => n' = n.pristine) t.instantiate.arena :=
      harena ▸ Arena.related_relabelAll fun _ _ => rfl
    refine Graph.ofTree_of_related hrelated ?_
    rintro n _ rfl
    refine ⟨rfl, fun cs => ?_⟩
    rw [Node.kind_pristine, Graph.shapeOf_rewind]
  case again => exact hcopy.instantiate_eq

/-- A copy of an instance in the middle of a sequence. -/
theorem instantiate_faithful_mid_run :
    let t₀ : Tree Constant := ofBranch (.node (.fresh ⟨0⟩ .root)
      [.node (.fresh ⟨1⟩ (.composite .sequence true 0))
        [.node (.fresh ⟨2⟩ (.decorator (.compare "k" .equal 0 true) false))
          [.node (.fresh ⟨3⟩ (.leaf .succeed)) []], .node (.fresh ⟨4⟩ (.leaf .running)) []]])
    let t := (t₀.instantiate.performAll [.start, .update ()]).1
    Tree.build .standard (some (.sequence [.evaluatedOnce (.compare "k" .equal 0
      (.leaf none Constant.succeed)), .leaf none .running])) = .ok t₀ ∧
      t.snapshot.map (fun s => (s.state.started, s.cursor, s.cachedGate)) =
        [(true, none, none), (true, some 1, none), (false, none, some true), (false, none, none),
          (true, none, none)] ∧
      FaithfulCopy t₀ t t.instantiate := by
  intro t₀ t
  have hbuild : Tree.build .standard (some (.sequence [.evaluatedOnce (.compare "k" .equal 0
      (.leaf none Constant.succeed)), .leaf none .running])) = .ok t₀ := rfl
  refine ⟨hbuild, by decide +kernel, ?_⟩
  exact (Fresh.built .standard _ hbuild).instantiate_faithful (.performed _ (.copied .self))

end Instances

end Tree

end BehaviorTree
