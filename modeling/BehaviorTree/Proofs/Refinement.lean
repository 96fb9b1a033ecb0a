import BehaviorTree.Proofs.Nested

/-!
# The poll of an arena is the poll of the nested tree

`poll` changes one arena in place and looks the parent up again after every poll of a child.
**`poll_layout`** says that this is the plain recursion `Branch.poll` on the nested tree, wherever
in an arena the tree is laid out, and that the rest of the arena stays.  No poll meets a reference
that leads nowhere.

The steps of a poll are taken in turn, each on an arena that is split at the node: beginning an
activation (`activate_append`), polling children (`Onward.pollFrom_eq` for composites), and ending
the poll (`conclude_append`), where clearing below a failed reset goes over the stretch right behind
it (`clearBelow_append`).
-/

namespace BehaviorTree

open Branch Slot

variable {L δ : Type}

/-! ## Changing an arena at a position -/

namespace Arena

lemma getElem?_relabel (a : Arena L) (i k : Nat) (f : Node L → Node L) :
    (a.relabel i f)[k]? =
      a[k]?.map fun slot => ⟨if i = k then f slot.label else slot.label, slot.children⟩ := by
  rw [relabel, List.getElem?_modify]
  cases a[k]? with
  | none => rfl
  | some slot => by_cases hk : i = k <;> simp [hk]

lemma children_relabel (a : Arena L) (i : Nat) (f : Node L → Node L) :
    (a.relabel i f).map Slot.children = a.map Slot.children := by
  apply List.ext_getElem?
  intro k
  rw [List.getElem?_map, List.getElem?_map, getElem?_relabel]
  cases a[k]? <;> rfl

lemma relabel_append (pre post : Arena L) (slot : Slot (Node L)) (f : Node L → Node L) :
    relabel (pre ++ slot :: post) pre.length f =
      pre ++ ⟨f slot.label, slot.children⟩ :: post := by
  induction pre with
  | nil => rfl
  | cons s pre ih => exact congrArg (s :: ·) ih

/-- Changing the root of a laid out tree. -/
lemma relabel_layout (pre post : Arena L) (n : Node L) (ts : List (Branch (Node L)))
    (f : Node L → Node L) :
    relabel (pre ++ (node n ts).layout pre.length ++ post) pre.length f =
      pre ++ (node (f n) ts).layout pre.length ++ post := by
  rw [layout, layout, List.append_assoc, List.cons_append, relabel_append]
  simp

/-- Changing every node of a stretch, one after the other. -/
lemma foldl_relabel (f : Node L → Node L) (mid : Arena L) : ∀ pre post : Arena L,
    (List.range' pre.length mid.length).foldl (fun a j => relabel a j f) (pre ++ mid ++ post) =
      pre ++ mid.map (fun slot => ⟨f slot.label, slot.children⟩) ++ post := by
  induction mid with
  | nil => intro pre post; simp
  | cons slot mid ih =>
      intro pre post
      have harena : pre ++ ⟨f slot.label, slot.children⟩ :: (mid ++ post) =
          (pre ++ [⟨f slot.label, slot.children⟩]) ++ mid ++ post := by simp
      have htail := ih (pre ++ [⟨f slot.label, slot.children⟩]) post
      rw [List.length_append, List.length_singleton] at htail
      rw [List.length_cons, List.range'_succ, List.foldl_cons, List.append_assoc, List.cons_append,
        relabel_append, harena, htail]
      simp

/-- Clearing below a node clears its subtrees and nothing else. -/
lemma clearBelow_append (pre post : Arena L) (n : Node L) (ts : List (Branch (Node L))) :
    clearBelow (pre ++ (node n ts).layout pre.length ++ post) pre.length =
      pre ++ (node n (ts.map (map Node.clear))).layout pre.length ++ post := by
  have hholds : Holds (pre ++ (node n ts).layout pre.length ++ post) pre.length (node n ts) :=
    ⟨pre, post, rfl, rfl⟩
  have hpre : pre.length + 1 = (pre ++ [slotAt pre.length (node n ts)]).length := by simp
  have hlen : (node n ts).size - 1 = (layoutAll (pre.length + 1) ts).length := by
    rw [length_layoutAll, size_node, Nat.add_sub_cancel_left]
  have harena : pre ++ (node n ts).layout pre.length ++ post =
      (pre ++ [slotAt pre.length (node n ts)]) ++ layoutAll (pre.length + 1) ts ++ post := by
    simp [layout]
  rw [clearBelow, below_of_holds hholds, hlen, harena, hpre, foldl_relabel, ← layoutAll_mapAll,
    mapAll_eq_map]
  simp [layout]

end Arena

namespace World

variable [Behavior L δ]

/-- Beginning an activation changes the node and the scene alone. -/
lemma activate_append (pre post : Arena L) (n : Node L) (cs : List Nat) (scene : Scene δ) :
    activate ⟨pre ++ ⟨n, cs⟩ :: post, scene⟩ pre.length n =
      (⟨pre ++ ⟨(n.begin scene).1, cs⟩ :: post, (n.begin scene).2.1⟩, (n.begin scene).2.2) := by
  rw [activate, Node.begin]
  split
  · rfl
  · simp only [Arena.relabel_append]

/-- Beginning an activation at the root of a laid out tree. -/
lemma activate_layout (pre post : Arena L) (n : Node L) (ts : List (Branch (Node L)))
    (scene : Scene δ) :
    activate ⟨pre ++ (node n ts).layout pre.length ++ post, scene⟩ pre.length n =
      (⟨pre ++ (node (n.begin scene).1 ts).layout pre.length ++ post, (n.begin scene).2.1⟩,
        (n.begin scene).2.2) := by
  rw [layout, List.append_assoc, List.cons_append, activate_append, layout]
  simp

lemma conclude_of_slot {w : World L δ} {i : Nat} {slot : Slot (Node L)}
    (h : w.arena[i]? = some slot) (status : Status) :
    w.conclude i status =
      (⟨if (slot.label.conclude status w.scene).1.clearsOn status then
          (w.arena.relabel i fun _ => (slot.label.conclude status w.scene).1).clearBelow i
        else w.arena.relabel i fun _ => (slot.label.conclude status w.scene).1,
        (slot.label.conclude status w.scene).2.1⟩, (slot.label.conclude status w.scene).2.2) := by
  simp only [conclude, h]
  rfl

/-- Ending a poll changes the node and the scene, and its subtrees if it clears them. -/
lemma conclude_append (pre post : Arena L) (n : Node L) (ts : List (Branch (Node L)))
    (status : Status) (scene : Scene δ) :
    conclude ⟨pre ++ (node n ts).layout pre.length ++ post, scene⟩ pre.length status =
      (⟨pre ++ (node (n.conclude status scene).1
          ((n.conclude status scene).1.settle status ts)).layout pre.length ++ post,
        (n.conclude status scene).2.1⟩, (n.conclude status scene).2.2) := by
  have hslot : (pre ++ (node n ts).layout pre.length ++ post)[pre.length]? =
      some (slotAt pre.length (node n ts)) :=
    Holds.getElem? ⟨pre, post, rfl, rfl⟩
  rw [conclude_of_slot hslot]
  simp only [slotAt_node, Arena.relabel_layout, Node.settle]
  split
  · rw [Arena.clearBelow_append]
  · rfl

end World

/-! ## What a parent does with the result of a child -/

section PollFrom

variable {child : Poller L δ} {i c d : Nat} {id : NodeId} {kind : CompositeKind}
  {cascade : Bool} {cursor : Nat} {rest : List Nat} {w : World L δ} {p : Polled L δ}

/-- The world in which a composite has left a child behind. -/
def Polled.passed (p : Polled L δ) (i cursor : Nat) : World L δ :=
  p.world.relabel i fun n => { n with kind := n.kind.withCursor (cursor + 1) }

lemma pollFrom_stops (hp : child c w = p) (h : p.status ≠ kind.advancesOn) :
    pollFrom child i id kind cascade cursor (c :: rest) w = p := by
  subst hp
  rw [pollFrom, if_pos h]

lemma pollFrom_ends (hp : child c w = p) (h : p.status = kind.advancesOn) :
    pollFrom child i id kind cascade cursor [c] w =
      ⟨kind.advancesOn, p.passed i cursor, p.trace⟩ := by
  subst hp
  rw [pollFrom, if_neg (not_not.mpr h)]
  rfl

lemma pollFrom_cascades (hp : child c w = p) (h : p.status = kind.advancesOn)
    (hc : cascade = true) :
    pollFrom child i id kind cascade cursor (c :: d :: rest) w =
      (pollFrom child i id kind cascade (cursor + 1) (d :: rest) (p.passed i cursor)).after
        p.trace := by
  subst hp
  rw [pollFrom, if_neg (not_not.mpr h), if_neg (by simp), if_pos hc]
  rfl

lemma pollFrom_pauses (hp : child c w = p) (h : p.status = kind.advancesOn)
    (hc : cascade = false) :
    pollFrom child i id kind cascade cursor (c :: d :: rest) w =
      ⟨.running, p.passed i cursor, p.trace ++ [.advance id]⟩ := by
  subst hp
  rw [pollFrom, if_neg (not_not.mpr h), if_neg (by simp), if_neg (by simp [hc])]
  rfl

end PollFrom

lemma pollDecorated_admitted {child : Poller L δ} {rule : DecoratorRule} {gate : Bool}
    {children : List Nat} {w : World L δ} (h : Node.admits rule gate w.scene.board = true) :
    pollDecorated child rule gate children w =
      { pollRoot child children w with status := rule.map (pollRoot child children w).status } := by
  simp only [pollDecorated, h, if_true]
  cases children <;> rfl

lemma pollDecorated_refused {child : Poller L δ} {rule : DecoratorRule} {gate : Bool}
    {children : List Nat} {w : World L δ} (h : Node.admits rule gate w.scene.board = false) :
    pollDecorated child rule gate children w = ⟨.failure, w, []⟩ := by
  simp only [pollDecorated, h, Bool.false_eq_true, if_false]

/-! ## Polling a laid out tree -/

/-- An outcome of a nested poll, seen in the arena in which the tree is laid out. -/
def Outcome.inArena (o : Outcome (Branch (Node L)) δ) (pre post : Arena L) : Polled L δ :=
  ⟨o.status, ⟨pre ++ o.part.layout pre.length ++ post, o.scene⟩, o.trace⟩

/-- Leaving a child behind moves the cursor at the root of the nested tree. -/
lemma passed_inArena {τ : Type} (o : Outcome τ δ) (id : NodeId) (kind : CompositeKind)
    (cascade : Bool) (cursor : Nat) (state : NodeState) (f : τ → List (Branch (Node L)))
    (pre post : Arena L) :
    ((o.map fun u => node ⟨id, .composite kind cascade cursor, state⟩ (f u)).inArena
        pre post).passed pre.length cursor =
      ((o.map fun u => node ⟨id, .composite kind cascade (cursor + 1), state⟩ (f u)).inArena
        pre post).world := by
  simp only [Polled.passed, Outcome.inArena, World.relabel, Outcome.part_map,
    Arena.relabel_layout, NodeKind.withCursor]
  rfl

variable [Behavior L δ]

/-- The way in which a node at position `i` polls its children. -/
def pollBelow (n i : Nat) : Poller L δ := fun c w =>
  if _hc : Forward n i c then poll n c w else .stray c w

lemma poll_eq_pollNode (n i : Nat) (w : World L δ) :
    poll n i w = pollNode (pollBelow n i) i w := by
  rw [poll]
  rfl

/-- In any arena of `n` nodes the poll of the laid out tree is the nested poll. -/
def Refines (n : Nat) (t : Branch (Node L)) : Prop :=
  ∀ (pre post : Arena L) (scene : Scene δ), n = pre.length + t.size + post.length →
    poll n pre.length ⟨pre ++ t.layout pre.length ++ post, scene⟩ =
      (t.poll scene).inArena pre post

/-- A reference to a laid out child leads to its poll. -/
lemma pollBelow_of_refines {n i : Nat} {t : Branch (Node L)} (h : Refines (δ := δ) n t)
    (pre post : Arena L) (scene : Scene δ) (hi : i < pre.length)
    (hn : n = pre.length + t.size + post.length) :
    pollBelow n i pre.length ⟨pre ++ t.layout pre.length ++ post, scene⟩ =
      (t.poll scene).inArena pre post := by
  have hpos := t.size_pos
  have hfwd : Forward n i pre.length := ⟨hi, by omega⟩
  rw [pollBelow, dif_pos hfwd, h pre post scene hn]

/-! ### The children of a node -/

/-- The layout of a node, split at one of its subtrees. -/
lemma layout_split_child (m : Node L) (done rest : List (Branch (Node L))) (t : Branch (Node L))
    (base : Nat) :
    (node m (done ++ t :: rest)).layout base =
      (⟨m, roots (base + 1) (done ++ t :: rest)⟩ :: layoutAll (base + 1) done) ++
        t.layout (base + 1 + sizeAll done) ++
        layoutAll (base + 1 + sizeAll done + t.size) rest := by
  rw [layout, layoutAll_append, layoutAll]
  simp

/-- What stands in front of a subtree of a laid out node, and what stands behind it, is the same for
every subtree of that size. -/
lemma exists_around_child (m : Node L) (done rest : List (Branch (Node L))) (t : Branch (Node L))
    (pre post : Arena L) :
    ∃ front back : Arena L, front.length = pre.length + 1 + sizeAll done ∧
      back.length = sizeAll rest + post.length ∧
      ∀ u : Branch (Node L), u.size = t.size →
        pre ++ (node m (done ++ u :: rest)).layout pre.length ++ post =
          front ++ u.layout front.length ++ back := by
  set c := pre.length + 1 + sizeAll done with hc
  refine ⟨pre ++ ⟨m, roots (pre.length + 1) (done ++ t :: rest)⟩ ::
    layoutAll (pre.length + 1) done, layoutAll (c + t.size) rest ++ post, ?_, ?_, ?_⟩
  · simp only [hc, List.length_append, List.length_cons, length_layoutAll]
    omega
  · rw [List.length_append, length_layoutAll]
  · intro u hu
    have hlen : (pre ++ (⟨m, roots (pre.length + 1) (done ++ t :: rest)⟩ : Slot (Node L)) ::
        layoutAll (pre.length + 1) done).length = c := by
      simp only [hc, List.length_append, List.length_cons, length_layoutAll]
      omega
    have hroots : roots (pre.length + 1) (done ++ u :: rest) =
        roots (pre.length + 1) (done ++ t :: rest) := roots_congr (by simp [hu])
    rw [layout_split_child, hlen, hroots, hu]
    simp [hc]

/-- **Polling one child of a laid out node** replaces the subtree of the child in the nested tree,
and nothing else. -/
lemma poll_child {n : Nat} (m : Node L) (done rest : List (Branch (Node L))) (t : Branch (Node L))
    (h : Refines (δ := δ) n t) (pre post : Arena L) (scene : Scene δ)
    (hn : n = pre.length + (node m (done ++ t :: rest)).size + post.length) :
    pollBelow n pre.length (pre.length + 1 + sizeAll done)
        ⟨pre ++ (node m (done ++ t :: rest)).layout pre.length ++ post, scene⟩ =
      ((t.poll scene).map fun u => node m (done ++ u :: rest)).inArena pre post := by
  obtain ⟨front, back, hfront, hback, harena⟩ := exists_around_child m done rest t pre post
  have hsize : n = front.length + t.size + back.length := by
    rw [hn, hfront, hback, size_node, sizeAll_append, sizeAll_cons]
    omega
  have hpoll := pollBelow_of_refines h front back scene (i := pre.length) (by omega) hsize
  rw [harena t rfl, ← hfront, hpoll]
  simp only [Outcome.inArena, Outcome.status_map, Outcome.part_map, Outcome.scene_map,
    Outcome.trace_map, harena _ (t.size_poll scene)]

/-- **Polling the children of a laid out composite** from the cursor on does what it does in the
nested tree. -/
lemma Onward.pollFrom_eq {id : NodeId} {kind : CompositeKind} {cascade : Bool} {n skip : Nat}
    {ts : List (Branch (Node L))} {scene : Scene δ} {o : Outcome (Nat × List (Branch (Node L))) δ}
    (h : Onward id kind cascade skip ts scene o) (state : NodeState) (pre post : Arena L)
    (ih : ∀ t ∈ ts, Refines (δ := δ) n t) :
    ∀ (done : List (Branch (Node L))) (cursor : Nat),
      n = pre.length + (1 + sizeAll (done ++ ts)) + post.length →
      pollFrom (pollBelow n pre.length) pre.length id kind cascade cursor
          ((roots (pre.length + 1 + sizeAll done) ts).drop skip)
          ⟨pre ++ (node ⟨id, .composite kind cascade cursor, state⟩ (done ++ ts)).layout pre.length
            ++ post, scene⟩ =
        (o.map fun p => node ⟨id, .composite kind cascade (cursor + p.1), state⟩
          (done ++ p.2)).inArena pre post := by
  induction h with
  | exhausted skip scene =>
      intro done cursor _
      rw [roots, List.drop_nil, pollFrom]
      rfl
  | @skips skip t ts scene o _ ihs =>
      intro done cursor hn
      have hdone : sizeAll (done ++ [t]) = sizeAll done + t.size := by simp [sizeAll_append]
      have hskip := ihs (fun u hu => ih u (List.mem_cons_of_mem _ hu)) (done ++ [t]) cursor
        (by simpa using hn)
      rw [hdone, ← Nat.add_assoc] at hskip
      rw [roots, List.drop_succ_cons]
      simpa [Outcome.map] using hskip
  | @stops t ts scene hs =>
      intro done cursor hn
      have hchild := poll_child ⟨id, .composite kind cascade cursor, state⟩ done ts t
        (ih t List.mem_cons_self) pre post scene hn
      rw [roots, List.drop_zero, pollFrom_stops hchild hs]
      rfl
  | @ends t scene hs =>
      intro done cursor hn
      have hchild := poll_child ⟨id, .composite kind cascade cursor, state⟩ done [] t
        (ih t List.mem_cons_self) pre post scene hn
      rw [roots, List.drop_zero, roots, pollFrom_ends hchild hs, passed_inArena, ← hs]
      rfl
  | @cascades t u us scene o hs hc _ ihs =>
      intro done cursor hn
      have hchild := poll_child ⟨id, .composite kind cascade cursor, state⟩ done (u :: us) t
        (ih t List.mem_cons_self) pre post scene hn
      have hdone : sizeAll (done ++ [(t.poll scene).part]) = sizeAll done + t.size := by
        simp [sizeAll_append, size_poll]
      have hnext := ihs (fun v hv => ih v (List.mem_cons_of_mem _ hv))
        (done ++ [(t.poll scene).part]) (cursor + 1)
        (by simp only [sizeAll_append, sizeAll_cons, sizeAll_nil, size_poll] at hn ⊢; omega)
      have happend : ∀ rest, done ++ [(t.poll scene).part] ++ rest =
          done ++ (t.poll scene).part :: rest := by simp
      have hmoves : ∀ moves, cursor + 1 + moves = cursor + (moves + 1) := by omega
      rw [hdone, ← Nat.add_assoc, List.drop_zero] at hnext
      simp only [happend, hmoves] at hnext
      rw [roots, List.drop_zero, roots, pollFrom_cascades hchild hs hc, passed_inArena]
      exact congrArg (fun p => Polled.after p (t.poll scene).trace) hnext
  | @pauses t u us scene hs hc =>
      intro done cursor hn
      have hchild := poll_child ⟨id, .composite kind cascade cursor, state⟩ done (u :: us) t
        (ih t List.mem_cons_self) pre post scene hn
      rw [roots, List.drop_zero, roots, pollFrom_pauses hchild hs hc, passed_inArena]
      rfl

/-- Polling the first child of a laid out node. -/
lemma pollRoot_eq {n : Nat} (m : Node L) (ts : List (Branch (Node L))) (pre post : Arena L)
    (scene : Scene δ) (ih : ∀ t ∈ ts, Refines (δ := δ) n t)
    (hn : n = pre.length + (node m ts).size + post.length) :
    pollRoot (pollBelow n pre.length) (roots (pre.length + 1) ts)
        ⟨pre ++ (node m ts).layout pre.length ++ post, scene⟩ =
      ((pollFirst ts scene).map (node m)).inArena pre post := by
  cases ts with
  | nil => rfl
  | cons t ts => exact poll_child m [] ts t (ih t List.mem_cons_self) pre post scene hn

/-- Running a laid out node that has an activation under way. -/
lemma run_layout {n : Nat} (m : Node L) (ts : List (Branch (Node L))) (pre post : Arena L)
    (scene : Scene δ) (ih : ∀ t ∈ ts, Refines (δ := δ) n t)
    (hn : n = pre.length + (node m ts).size + post.length) :
    run (pollBelow n pre.length) pre.length
        ⟨pre ++ (node m ts).layout pre.length ++ post, scene⟩ =
      (m.run ts (pollFirst ts) (fun kind cascade cursor =>
        Branch.pollFrom m.id kind cascade cursor ts) scene).inArena pre post := by
  have hslot : (pre ++ (node m ts).layout pre.length ++ post)[pre.length]? =
      some (slotAt pre.length (node m ts)) :=
    Holds.getElem? ⟨pre, post, rfl, rfl⟩
  have hfirst := pollRoot_eq m ts pre post scene ih hn
  obtain ⟨id, kind, state⟩ := m
  rw [run]
  simp only [hslot, slotAt_node]
  cases kind with
  | root => rw [Node.run_root rfl, ← hfirst]
  | composite kind cascade cursor =>
      rw [Node.run_composite rfl]
      exact (pollFrom_onward id kind cascade cursor ts scene).pollFrom_eq state pre post ih []
        cursor hn
  | decorator rule gate =>
      cases ha : Node.admits rule gate scene.board with
      | false =>
          rw [Node.run_refused rfl ha]
          exact pollDecorated_refused ha
      | true =>
          rw [Node.run_admitted rfl ha]
          refine (pollDecorated_admitted ha).trans ?_
          rw [hfirst]
          rfl
  | leaf l =>
      rw [Node.run_leaf rfl]
      simp only [Arena.relabel_layout]
      rfl

/-- **The poll of a laid out tree is the poll of the nested tree**, and the rest of the arena
stays. -/
theorem poll_layout {n : Nat} (t : Branch (Node L)) : Refines (δ := δ) n t := by
  induction t with
  | node m ts ih =>
      intro pre post scene hn
      have hslot : (pre ++ (node m ts).layout pre.length ++ post)[pre.length]? =
          some (slotAt pre.length (node m ts)) :=
        Holds.getElem? ⟨pre, post, rfl, rfl⟩
      have hran := run_layout (m.begin scene).1 ts pre post (m.begin scene).2.1 ih hn
      rw [poll_eq_pollNode, pollNode, poll_node]
      simp only [hslot, slotAt_node, World.activate_layout, hran]
      generalize (m.begin scene).1.run ts _ _ _ = o
      obtain ⟨status, ⟨m', ts'⟩, scene', trace⟩ := o
      simp only [Outcome.inArena, World.conclude_append, Outcome.conclude, label_node,
        children_node, Node.id_begin]

end BehaviorTree
