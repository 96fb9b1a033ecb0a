import BehaviorTree.Proofs.Activations
import BehaviorTree.Proofs.Progress

/-!
# Repeating

A repeat drops the results of its child and goes on running.  So a tree that repeats a subtree asks
for another update for ever, and the subtree begins anew whenever it has come to an end; and a
composite that has come to a repeat never comes to what stands behind it.

* `Call.GoesOn` — the calls by which the owner of a tree goes on with a run: updates, and edits of
  the blackboard.
* `Loops` — what is recorded about a root, a repeat and the subtree below it.  **`Loops.poll`**: a
  poll of the root polls the subtree once, and keeps this.
* `Branch.Halts` — a composite whose cursor has not passed a repeat.  **`Halts.poll`**: no poll of
  it takes it past the repeat, or is about a later child.
* **`Fresh.repeats`** — the account of a tree that repeats, and of every repeat below a composite.
-/

namespace BehaviorTree

open Branch

variable {L δ : Type}

/-! ## The specification -/

/-- The call is an update or an edit of the blackboard. -/
def Call.GoesOn : Call δ → Prop
  | update _ => True
  | edit _ => True
  | _ => False

instance (call : Call δ) : Decidable call.GoesOn :=
  match call with
  | .update _ | .edit _ => .isTrue trivial
  | .start | .halt | .rearm => .isFalse id

/-- The event is the end of a poll of the node with a result. -/
def Event.ends (id : NodeId) : Event → Bool
  | leave id' status => decide (id' = id) && status.isTerminal
  | _ => false

/-! ## What a poll shows of its root -/

namespace Trace

variable {ids : List NodeId} {id : NodeId} {trace : Trace}

lemma count_enter_bounds (trace : Trace) (hid : id ∈ ids) :
    List.count (Event.enter id) (trace.bounds ids) = List.count (Event.enter id) trace :=
  List.count_filter (by simp [Event.isBound, Event.node?, hid])

lemma countP_ends_bounds (trace : Trace) (hid : id ∈ ids) :
    (trace.bounds ids).countP (Event.ends id) = trace.countP (Event.ends id) := by
  rw [bounds, List.countP_filter]
  refine List.countP_congr fun e _ => ?_
  cases e with
  | leave id' status =>
      simp only [Event.ends, Event.isBound, Event.node?, Option.any_some, Bool.and_eq_true,
        decide_eq_true_eq, true_and, and_iff_left_iff_imp]
      rintro ⟨rfl, -⟩
      exact hid
  | _ => simp [Event.ends]

end Trace

section Root

variable [Behavior L δ]

/-- **A poll enters its root once**, and comes to an end of it if its result is one. -/
lemma Branch.poll_shows_root {t : Branch (Node L)} (hid : t.label.id ∉ idsAll t.children)
    (scene : Scene δ) :
    List.count (Event.enter t.label.id) (t.poll scene).trace = 1 ∧
      (t.poll scene).trace.countP (Event.ends t.label.id) =
        if (t.poll scene).status.isTerminal then 1 else 0 := by
  have hmem : t.label.id ∈ [t.label.id] := List.mem_singleton_self _
  have hbounds := bounds_poll hmem (fun x hx hself => hid (List.mem_singleton.mp hself ▸ hx))
    scene 0 0
  rw [← Trace.count_enter_bounds _ hmem, ← Trace.countP_ends_bounds _ hmem, hbounds,
    ChildPoll.events]
  cases t.label.state.started <;> simp [Event.ends, List.countP_cons]

/-- A poll that goes on: the node is recorded as running, around what its run does. -/
lemma Branch.poll_goesOn {n : Node L} {ts us : List (Branch (Node L))} {scene scene' : Scene δ}
    {trace : Trace} (hran : runBelow (node (n.begin scene).1 ts) (n.begin scene).2.1 =
      ⟨.running, node (n.begin scene).1 us, scene', trace⟩) :
    (node n ts).poll scene =
      ⟨.running,
        node { (n.begin scene).1 with state := (n.begin scene).1.state.record .running } us,
        scene', .enter n.id :: (n.begin scene).2.2 ++ trace ++ [.leave n.id .running]⟩ := by
  rw [poll_eq_conclude, hran, Node.id_begin, Outcome.conclude]
  simp only [label_node, children_node, Node.conclude_running, Node.settle_running,
    List.append_nil]

end Root

/-! ## A tree that repeats -/

/-- The node is in its first activation, or before it. -/
def Node.Once (n : Node L) : Prop := n.state.activations = if n.state.started then 1 else 0

/-- What is recorded about a root, a repeat and the subtree below it, once the subtree has come to
so many ends.  With the activation that is due, or under way, the subtree has one more of them. -/
structure Loops (ended : Nat) (r q : Node L) (y : Branch (Node L)) : Prop where
  root : r.kind = .root
  repeats : q.Repeats
  root_once : r.Once
  repeat_once : q.Once
  count : min (UInt32.size - 1)
      (y.label.state.activations.toNat + if y.label.state.started then 0 else 1) =
    min (UInt32.size - 1) (1 + ended)

section Loops

variable [Behavior L δ] {n r q : Node L} {y : Branch (Node L)} {ended : Nat}

lemma Node.Once.begin (h : n.Once) (scene : Scene δ) :
    (n.begin scene).1.state.activations = 1 := by
  obtain ⟨id, kind, state⟩ := n
  rw [Node.begin]
  cases hs : state.started with
  | true => simpa [Once, hs] using h
  | false =>
      have hnone : state.activations = 0 := by simpa [Once, hs] using h
      cases kind <;> simp [Node.activate, NodeState.activate, hnone, UInt32.size]

lemma Node.toNat_begin (n : Node L) (scene : Scene δ) :
    (n.begin scene).1.state.activations.toNat = min (UInt32.size - 1)
      (n.state.activations.toNat + if n.state.started then 0 else 1) := by
  have hlt := n.state.activations.toNat_lt
  have hsize : UInt32.size = 4294967296 := rfl
  obtain ⟨id, kind, state⟩ := n
  rw [begin]
  cases hs : state.started with
  | true =>
      simp only [if_true] at hlt ⊢
      omega
  | false =>
      simp only [Bool.false_eq_true, if_false]
      cases kind <;> exact state.toNat_activate

/-- A node that goes on stays in its first activation. -/
lemma Node.Once.goesOn (h : n.Once) (scene : Scene δ) :
    Node.Once { (n.begin scene).1 with state := (n.begin scene).1.state.record .running } := by
  have hcount := h.begin scene
  have hstarted := n.started_begin scene
  simp [Once, NodeState.record, hcount, hstarted]

/-- A poll counts an activation of its root if it begins one. -/
lemma Branch.toNat_poll (t : Branch (Node L)) (scene : Scene δ) :
    (t.poll scene).part.label.state.activations.toNat = min (UInt32.size - 1)
      (t.label.state.activations.toNat + if t.label.state.started then 0 else 1) := by
  obtain ⟨n, ts⟩ := t
  have hran := state_runBelow (node (n.begin scene).1 ts) (n.begin scene).2.1
  have hcount : ((node n ts).poll scene).part.label.state.activations =
      (n.begin scene).1.state.activations := by
    rw [poll_eq_conclude, Outcome.conclude, label_node, Node.state_conclude, hran]
    split <;> rfl
  rw [hcount, Node.toNat_begin, label_node]

/-- The root goes on if its child does. -/
lemma runBelow_root {us : List (Branch (Node L))} (hkind : r.kind = .root) {scene : Scene δ}
    (hrunning : (pollFirst us scene).status = .running) :
    runBelow (node r us) scene = ⟨.running, node r (pollFirst us scene).part,
      (pollFirst us scene).scene, (pollFirst us scene).trace⟩ := by
  rw [runBelow, Node.run_root hkind, ← hrunning]
  rfl

/-- A repeat goes on whatever its child does. -/
lemma runBelow_repeat (hrepeats : q.Repeats) (us : List (Branch (Node L))) (scene : Scene δ) :
    runBelow (node q us) scene = ⟨.running, node q (pollFirst us scene).part,
      (pollFirst us scene).scene, (pollFirst us scene).trace⟩ := by
  obtain ⟨gate, hkind⟩ := hrepeats
  rw [runBelow, Node.run_admitted hkind rfl]
  rfl

lemma Node.kind_eq_root_of_static {n m : Node L} (h : m.static = n.static) (hn : n.kind = .root) :
    m.kind = .root := by
  have hstatic := kind_eq_of_static h
  rw [hn] at hstatic
  cases hm : m.kind with
  | root => rfl
  | _ =>
      rw [hm] at hstatic
      cases hstatic

/-- Neither a root nor a repeat does anything to the scene when an activation begins. -/
lemma Node.begin_scene {n : Node L} (h : n.kind = .root ∨ n.Repeats) (scene : Scene δ) :
    (n.begin scene).2.1 = scene := by
  obtain ⟨id, kind, state⟩ := n
  rw [begin]
  split
  · rfl
  rcases h with hkind | ⟨gate, hkind⟩ <;> simp only at hkind <;> subst hkind <;> rfl

/-- **A poll of the root polls the subtree once.**  The root and the repeat go on with their only
activations, and the subtree has come to one more end if its poll has. -/
lemma Loops.poll (h : Loops ended r q y) (scene : Scene δ) :
    ∃ r' q' pre post, (node r [node q [y]]).poll scene =
        ⟨.running, node r' [node q' [(y.poll scene).part]], (y.poll scene).scene,
          pre ++ (y.poll scene).trace ++ post⟩ ∧
      pre.Within [r.id, q.id] ∧ post.Within [r.id, q.id] ∧
      r'.state.activations = 1 ∧ q'.state.activations = 1 ∧
      (y.poll scene).part.label.state.activations.toNat = min (UInt32.size - 1) (1 + ended) ∧
      Loops (ended + if (y.poll scene).status.isTerminal then 1 else 0) r' q'
        (y.poll scene).part := by
  have hbegin := Node.begin_scene (.inl h.root) scene
  have hbegin' := Node.begin_scene (.inr h.repeats) scene
  have hroot := Node.kind_eq_root_of_static (r.static_begin scene) h.root
  have hrepeats := Node.repeats_of_static (q.static_begin scene).symm h.repeats
  -- the repeat goes on around the poll of the subtree, and the root around that
  have hinner := poll_goesOn (n := q) (runBelow_repeat hrepeats [y] (q.begin scene).2.1)
  rw [hbegin'] at hinner
  have hfirst : (pollFirst [node q [y]] scene).status = .running := congrArg Outcome.status hinner
  have houter := poll_goesOn (n := r) (runBelow_root hroot (hbegin.symm ▸ hfirst))
  rw [hbegin, pollFirst, hinner] at houter
  have hself : ∀ id ∈ [r.id, q.id], ∀ n : Node L, n.id = id →
      Trace.Within [r.id, q.id] (.enter n.id :: (n.begin scene).2.2) := by
    rintro id hid n rfl
    exact (within_begun n scene).mono fun x hx => List.mem_singleton.mp hx ▸ hid
  refine ⟨{ (r.begin scene).1 with state := (r.begin scene).1.state.record .running },
    { (q.begin scene).1 with state := (q.begin scene).1.state.record .running },
    .enter r.id :: (r.begin scene).2.2 ++ (.enter q.id :: (q.begin scene).2.2),
    [.leave q.id .running, .leave r.id .running], houter.trans ?_, ?_, ?_,
    h.root_once.begin scene, h.repeat_once.begin scene, ?_, ?_⟩
  · simp [pollFirst]
  · exact Trace.within_append.mpr ⟨hself _ (by simp) r rfl, hself _ (by simp) q rfl⟩
  · simp [Trace.Within, Event.node?]
  · rw [toNat_poll, h.count]
  · refine ⟨hroot, hrepeats, h.root_once.goesOn scene, h.repeat_once.goesOn scene, ?_⟩
    · rw [toNat_poll, h.count, started_poll]
      cases (y.poll scene).status <;> simp [Status.isTerminal, Status.isRunning] <;> omega

end Loops

/-! ### Runs of a tree that repeats -/

namespace Tree

/-- The tree has been started and its result is open.  It repeats a subtree, which has the identity,
and has come to so many ends. -/
structure Looping (id : NodeId) (ended : Nat) (t : Tree L) : Prop where
  started : t.isStarted = true
  running : t.state = .running
  shown : ∃ r q y, t.Shows (node r [node q [y]]) ∧ Loops ended r q y ∧ y.label.id = id

/-- The root of the subtree is neither the root nor the repeat, and it is not below itself. -/
lemma subtree_root_not_mem {r q : Node L} {y : Branch (Node L)}
    (h : (node r [node q [y]]).ids.Nodup) :
    y.label.id ∉ [r.id, q.id] ∧ y.label.id ∉ idsAll y.children := by
  obtain ⟨n, ts⟩ := y
  have hids : (r.id :: q.id :: n.id :: idsAll ts).Nodup := by
    simpa [ids, idsAll, labels, labelsAll] using h
  obtain ⟨hr, hids⟩ := List.nodup_cons.mp hids
  obtain ⟨hq, hids⟩ := List.nodup_cons.mp hids
  refine ⟨fun hmem => ?_, (List.nodup_cons.mp hids).1⟩
  rcases List.mem_cons.mp hmem with heq | hmem
  · exact hr (heq ▸ List.mem_cons_of_mem _ List.mem_cons_self)
  · exact hq (List.mem_singleton.mp hmem ▸ List.mem_cons_self)

/-- The nested tree of a rooted tree has the root on top. -/
lemma Shows.kind_root {t : Tree L} {b : Branch (Node L)} (h : t.Shows b) (hrooted : t.Rooted) :
    b.label.kind = .root := by
  obtain ⟨r, ts⟩ := b
  have hfirst : t.arena[0]? = some (slotAt 0 (node r ts)) := by
    rw [h.arena]
    rfl
  have hroot : r.kind.isRoot = true := (hrooted 0 _ hfirst).mpr rfl
  cases hkind : r.kind with
  | root => exact hkind
  | _ =>
      rw [hkind] at hroot
      cases hroot

variable [Behavior L δ] {t : Tree L} {id : NodeId} {ended : Nat}

/-- **An update of a tree that repeats** asks for another one, and polls the subtree once. -/
lemma Looping.update (h : t.Looping id ended) (driver : δ) :
    ∃ u, t.update driver = .ok u ∧ u.status = .running ∧
      List.count (Event.enter id) u.trace = 1 ∧
      (u.tree.arena.map fun slot => slot.label.state.activations.toNat).take 3 =
        [1, 1, min (UInt32.size - 1) (1 + ended)] ∧
      u.tree.Looping id (ended + u.trace.countP (Event.ends id)) := by
  obtain ⟨hstarted, hrunning, r, q, y, hshows, hloops, rfl⟩ := h
  obtain ⟨board, hboard⟩ := Option.isSome_iff_exists.mp hstarted
  obtain ⟨r', q', pre, post, hpoll, hpre, hpost, hr, hq, hy, hnext⟩ := hloops.poll ⟨board, driver⟩
  have hnow : ∀ u : Tree L, u.arena = ((node r [node q [y]]).poll ⟨board, driver⟩).part.layout 0 →
      u.Shows ((node r [node q [y]]).poll ⟨board, driver⟩).part :=
    fun u hu => hshows.of_static (map_static_poll _ _) hu
  have hupdate := hshows.update hboard hrunning driver
  rw [hpoll] at hupdate hnow
  -- the root and the repeat are other nodes than the subtree's root
  obtain ⟨hother, hself⟩ := subtree_root_not_mem hshows.nodup
  have hothers : ∀ trace : Trace, trace.Within [r.id, q.id] →
      List.count (Event.enter y.label.id) trace = 0 ∧
        trace.countP (Event.ends y.label.id) = 0 := by
    intro trace htrace
    have hmem : y.label.id ∈ [y.label.id] := List.mem_singleton_self _
    have hsilent : trace.bounds [y.label.id] = [] := by
      exact Trace.bounds_of_silent (htrace.silent fun x hx hmem =>
        hother (List.mem_singleton.mp hx ▸ hmem))
    rw [← Trace.count_enter_bounds trace hmem, ← Trace.countP_ends_bounds trace hmem, hsilent]
    exact ⟨rfl, rfl⟩
  obtain ⟨hcount, hends⟩ := poll_shows_root (t := y) hself (⟨board, driver⟩ : Scene δ)
  obtain ⟨hprecount, hpreends⟩ := hothers pre hpre
  obtain ⟨hpostcount, hpostends⟩ := hothers post hpost
  refine ⟨_, hupdate, rfl, ?_, ?_, rfl, rfl, r', q', _, hnow _ rfl, ?_, ?_⟩
  · rw [List.count_append, List.count_append, hprecount, hcount, hpostcount]
  · have hactivations : (layout 0 (node r' [node q' [(y.poll ⟨board, driver⟩).part]])).map
        (fun slot => slot.label.state.activations.toNat) =
          (node r' [node q' [(y.poll ⟨board, driver⟩).part]]).labels.map
            fun n => n.state.activations.toNat := by
      rw [← map_label_layout 0, List.map_map]
      rfl
    rw [hactivations, ← hy]
    obtain ⟨m, us⟩ := (y.poll ⟨board, driver⟩).part
    simp [labels, labelsAll, hr, hq]
  · rw [List.countP_append, List.countP_append, hpreends, hends, hpostends, Nat.zero_add,
      Nat.add_zero]
    exact hnext
  · have hstatic := congrArg Branch.label (map_static_poll y ⟨board, driver⟩)
    rw [label_map, label_map] at hstatic
    exact Node.id_eq_of_static hstatic

/-- A tree of which nothing has been touched repeats once it is started. -/
lemma Pristine.looping {r q : Node L} {x : Branch (Node L)} {s : Tree L}
    (h : t.Pristine (node r [node q [x]])) (hrooted : t.Rooted) (hrepeats : q.Repeats)
    (hs : t.start = .ok s) : s.Looping x.label.id 0 := by
  have hstart : s = { t with board := some .empty } := by
    rw [start, h.board] at hs
    exact (Except.ok.inj hs).symm
  have hfresh : ∀ n ∈ (node r [node q [x]]).labels, n.state = .fresh := fun _ => h.state_eq_fresh
  have hx : x.label ∈ (node r [node q [x]]).labels := by
    simp [labels, labelsAll, x.label_mem_labels]
  subst hstart
  refine ⟨rfl, h.state, r, q, x, ⟨h.arena, h.nodup⟩,
    ⟨h.toShows.kind_root hrooted, hrepeats, ?_, ?_, ?_⟩, rfl⟩
  · rw [Node.Once, hfresh r (by simp [labels])]
    rfl
  · rw [Node.Once, hfresh q (by simp [labels, labelsAll])]
    rfl
  · rw [hfresh _ hx]
    rfl

/-- **A run of a tree that repeats** goes on for ever. -/
lemma Looping.performAll (h : t.Looping id ended) {calls : List (Call δ)}
    (hcalls : ∀ call ∈ calls, call.GoesOn) :
    (t.performAll calls).1.Looping id (ended + (t.traceAll calls).countP (Event.ends id)) := by
  induction calls generalizing t ended with
  | nil => exact h
  | cons call calls ih =>
      obtain ⟨hcall, hcalls⟩ := List.forall_mem_cons.mp hcalls
      rw [performAll_cons, traceAll_cons, List.countP_append, ← Nat.add_assoc]
      refine ih ?_ hcalls
      cases call with
      | update driver =>
          obtain ⟨u, hu, -, -, -, hnext⟩ := h.update driver
          rw [perform, reply, hu]
          exact hnext
      | edit f =>
          obtain ⟨hstarted, hrunning, r, q, y, hshows, hloops, hid⟩ := h
          refine ⟨?_, hrunning, r, q, y, ⟨hshows.arena, hshows.nodup⟩, hloops, hid⟩
          simpa only [perform, editBoard, isStarted, Option.isSome_map] using hstarted
      | start => exact hcall.elim
      | halt => exact hcall.elim
      | rearm => exact hcall.elim

end Tree

/-! ## What stands behind a repeat -/

section Behind

variable [Behavior L δ] {kind : CompositeKind} {cascade : Bool} {skip i : Nat}
  {ts : List (Branch (Node L))} {scene : Scene δ} {t u : Branch (Node L)}

/-- A repeat asks for another poll whenever it is polled. -/
lemma Branch.status_poll_of_repeats (h : t.label.Repeats) (scene : Scene δ) :
    (t.poll scene).status = .running := by
  obtain ⟨n, ts⟩ := t
  have hrepeats := Node.repeats_of_static (n.static_begin scene).symm h
  rw [status_poll, runBelow_repeat hrepeats]

/-- No turn comes behind a repeat. -/
lemma Turns.length_le_of_repeats {turn : Turn L δ} (h : Turns kind cascade skip ts scene turn)
    (hskip : skip ≤ i) (ht : ts[i]? = some t) (hrepeats : t.label.Repeats) :
    turn.done.length ≤ i := by
  induction h generalizing i with
  | here => exact Nat.zero_le i
  | skips _ ih =>
      obtain ⟨i, rfl⟩ := Nat.exists_eq_succ_of_ne_zero (by omega : i ≠ 0)
      rw [List.getElem?_cons_succ] at ht
      exact Nat.succ_le_succ (ih (by omega) ht)
  | onward hstatus _ _ ih =>
      cases i with
      | zero =>
          rw [List.getElem?_cons_zero, Option.some.injEq] at ht
          rw [ht, status_poll_of_repeats hrepeats] at hstatus
          cases kind <;> cases hstatus
      | succ i =>
          rw [List.getElem?_cons_succ] at ht
          exact Nat.succ_le_succ (ih (Nat.zero_le i) ht)

/-- The cursor does not move past a repeat. -/
lemma Onward.moves_le_of_repeats {id : NodeId} {o : Outcome (Nat × List (Branch (Node L))) δ}
    (h : Onward id kind cascade skip ts scene o) (hskip : skip ≤ i) (ht : ts[i]? = some t)
    (hrepeats : t.label.Repeats) : skip + o.part.1 ≤ i := by
  have hhead : ∀ {i : Nat} {u : Branch (Node L)} {us : List (Branch (Node L))} {scene : Scene δ},
      (u.poll scene).status = kind.advancesOn → (u :: us)[i]? = some t → i ≠ 0 := by
    rintro _ u us scene hstatus hu rfl
    rw [List.getElem?_cons_zero, Option.some.injEq] at hu
    rw [hu, status_poll_of_repeats hrepeats] at hstatus
    cases kind <;> cases hstatus
  induction h generalizing i with
  | exhausted => cases ht
  | skips _ ih =>
      obtain ⟨i, rfl⟩ := Nat.exists_eq_succ_of_ne_zero (by omega : i ≠ 0)
      rw [List.getElem?_cons_succ] at ht
      have hrest := ih (by omega) ht
      simp only [Outcome.part_map]
      omega
  | stops => exact hskip
  | ends hstatus =>
      obtain ⟨i, rfl⟩ := Nat.exists_eq_succ_of_ne_zero (hhead hstatus ht)
      cases ht
  | cascades hstatus _ _ ih =>
      obtain ⟨i, rfl⟩ := Nat.exists_eq_succ_of_ne_zero (hhead hstatus ht)
      rw [List.getElem?_cons_succ] at ht
      have hrest := ih (Nat.zero_le i) ht
      simp only [Outcome.part_after, Outcome.part_map]
      omega
  | pauses hstatus =>
      have hne := hhead hstatus ht
      simp only
      omega

/-- The branch is a composite, and its cursor has not passed the repeat at the place. -/
def Branch.HeldAt (i : Nat) (s : Branch (Node L)) : Prop :=
  ∃ kind cascade cursor t, s.label.kind = .composite kind cascade cursor ∧ cursor ≤ i ∧
    s.children[i]? = some t ∧ t.label.Repeats

lemma Branch.HeldAt.map {f : Node L → Node L} {s : Branch (Node L)} (h : s.HeldAt i)
    (hf : ∀ n, (f n).static = n.static)
    (hcursor : ∀ n : Node L, ∀ kind cascade cursor, n.kind = .composite kind cascade cursor →
      ∃ c ≤ cursor, (f n).kind = .composite kind cascade c) : (s.map f).HeldAt i := by
  obtain ⟨kind, cascade, cursor, t, hkind, hle, ht, hrepeats⟩ := h
  obtain ⟨n, ts⟩ := s
  obtain ⟨c, hc, hkind'⟩ := hcursor n kind cascade cursor hkind
  rw [map_node]
  refine ⟨kind, cascade, c, t.map f, hkind', Nat.le_trans hc hle, ?_, ?_⟩
  · rw [children_node, List.getElem?_map]
    exact congrArg (Option.map (Branch.map f)) ht
  · rw [label_map]
    exact Node.repeats_of_static (hf t.label).symm hrepeats

lemma Branch.HeldAt.settle {s r : Branch (Node L)} (h : s.HeldAt i) (hsettled : Settled s r) :
    r.HeldAt i := by
  rcases hsettled with rfl | rfl
  · exact h
  · exact h.map (f := Node.clear) (fun _ => rfl) fun n kind cascade cursor hn =>
      ⟨cursor, Nat.le_refl _, hn⟩

lemma Branch.HeldAt.rearm {s : Branch (Node L)} (h : s.HeldAt i) : (s.map Node.rearm).HeldAt i :=
  h.map Node.static_rearm fun n kind cascade cursor hn =>
    ⟨0, Nat.zero_le _, by rw [Node.rearm, hn]; rfl⟩

/-- **No poll of a composite takes it past a repeat**, and none is about a child behind it. -/
lemma Branch.HeldAt.poll {s : Branch (Node L)} (h : s.HeldAt i) (hnodup : s.ids.Nodup)
    (scene : Scene δ) : (s.poll scene).part.HeldAt i ∧ ∀ j u, i < j → s.children[j]? = some u →
      (s.poll scene).trace.Silent u.ids := by
  obtain ⟨⟨id, k, state⟩, ts⟩ := s
  obtain ⟨kind, cascade, cursor, t, hkind, hle, ht, hrepeats⟩ := h
  obtain rfl : k = .composite kind cascade cursor := hkind
  rw [children_node] at ht
  have hbegun : (if state.started then cursor else 0) ≤ i := by split <;> omega
  obtain ⟨o, state', honward, hpoll⟩ := poll_composite id kind cascade cursor state ts scene
  obtain ⟨m, us, ran, ended, hpart, hstatic, htrace, hended, hchildren⟩ :=
    poll_children hnodup scene
  refine ⟨?_, fun j u hij hu => ?_⟩
  · have hmoved := honward.moves_le_of_repeats hbegun ht hrepeats
    have hkeeps := honward.map_static fun t _ => map_static_poll t
    rw [hpoll]
    have hnow := congrArg (fun us => us[i]?) hkeeps
    simp only [List.getElem?_map, ht, Option.map_some] at hnow
    obtain ⟨t', ht', hsame⟩ := Option.map_eq_some_iff.mp hnow
    have hlabel := congrArg Branch.label hsame
    rw [label_map, label_map] at hlabel
    exact ⟨kind, cascade, _, t', rfl, hmoved, ht', Node.repeats_of_static hlabel.symm hrepeats⟩
  · rw [htrace]
    rw [children_node] at hu
    have hother : id ∉ u.ids :=
      not_mem_ids_of_part hnodup (List.mem_of_getElem? hu) u.self_mem_parts
    obtain ⟨w, v, -, -, hfares⟩ := hchildren j u hu
    have hran : ran.Silent u.ids := by
      cases hfares with
      | rests _ hsilent => exact hsilent
      | polled turn late hturn hchild hdone =>
          have hlength : turn.done.length ≤ i := by
            rw [begin_composite] at hturn
            cases hturn with
            | root hroot => cases hroot
            | composite hcomposite hturns =>
                cases hcomposite
                exact hturns.length_le_of_repeats hbegun ht hrepeats
            | decorator hdecorator => cases hdecorator
          omega
    exact (((within_begun _ scene).silent_of_not_mem hother).append hran).append
      (hended.silent_of_not_mem hother)

/-- A poll of a tree takes no composite in it past a repeat. -/
lemma Branch.Meets.heldAt {visits : Visit L δ → Prop} {s r : Branch (Node L)} {trace : Trace}
    (h : Meets visits s r trace) (hs : s.HeldAt i) (hnodup : s.ids.Nodup) :
    r.HeldAt i ∧ ∀ j u, i < j → s.children[j]? = some u → trace.Silent u.ids := by
  have hbelow : ∀ (j : Nat) (u : Branch (Node L)), s.children[j]? = some u →
      ∀ x ∈ u.ids, x ∈ s.ids := fun j u hu x hx => by
    obtain ⟨n, ts⟩ := s
    exact List.mem_cons_of_mem _ (mem_idsAll (List.mem_of_getElem? hu) hx)
  cases h with
  | passes hsettled hsilent =>
      exact ⟨hs.settle hsettled, fun j u _ hu => hsilent.mono (hbelow j u hu)⟩
  | visits v late _ _ hsettled htrace hearly hlate =>
      obtain ⟨hheld, hsilent⟩ := hs.poll hnodup v.scene
      refine ⟨hheld.settle hsettled, fun j u hij hu => ?_⟩
      rw [htrace]
      exact ((hearly.mono (hbelow j u hu)).append (hsilent j u hij hu)).append
        (hlate.mono (hbelow j u hu))

/-- **No call takes a composite past a repeat**, and nothing happens behind it. -/
lemma Branch.Step.heldAt {b c s : Branch (Node L)} {moments : List Moment} {k : Nat}
    (h : Step b moments c) (hnodup : b.ids.Nodup) (hpart : b.parts[k]? = some s)
    (hs : s.HeldAt i) : ∃ r, c.parts[k]? = some r ∧ r.HeldAt i ∧
      ∀ j u, i < j → s.children[j]? = some u → ∀ id ∈ u.ids, ∀ e, .event e ∈ moments →
        e.node? ≠ some id := by
  cases h with
  | rests => exact ⟨s, hpart, hs, fun _ _ _ _ _ _ _ he => by cases he⟩
  | polls scene =>
      obtain ⟨r, hr, hmeets⟩ := b.poll_part scene hnodup hpart
      obtain ⟨hheld, hsilent⟩ :=
        hmeets.heldAt hs (nodup_ids_of_part hnodup (List.mem_of_getElem? hpart))
      refine ⟨r, hr, hheld, fun j u hij hu id hid e he => ?_⟩
      obtain ⟨e', he', heq⟩ := List.mem_map.mp he
      cases heq
      exact hsilent j u hij hu e he' id hid
  | rearms =>
      refine ⟨s.map Node.rearm, ?_, hs.rearm, fun _ _ _ _ _ _ e he => by simp at he⟩
      rw [parts_map, List.getElem?_map, hpart, Option.map_some]

/-- **No run takes a composite past a repeat**, and nothing happens behind it. -/
theorem Branch.Steps.silent_behind {b c s u : Branch (Node L)} {moments : List Moment} {k j : Nat}
    (h : Steps b moments c) (hnodup : b.ids.Nodup) (hpart : b.parts[k]? = some s)
    (hs : s.HeldAt i) (hij : i < j) (hu : s.children[j]? = some u) :
    ∀ id ∈ u.ids, ∀ e, .event e ∈ moments → e.node? ≠ some id := by
  induction h generalizing s u with
  | none => exact fun _ _ _ he => by cases he
  | cons hnow hlater ih =>
      obtain ⟨r, hr, hheld, hsilent⟩ := hnow.heldAt hnodup hpart hs
      have hstatic := congrArg (fun b => b.parts[k]?) hnow.map_static
      simp only [parts_map, List.getElem?_map, hr, hpart, Option.map_some,
        Option.some.injEq] at hstatic
      -- the child behind the repeat is still there
      obtain ⟨u', hu', hids⟩ : ∃ u', r.children[j]? = some u' ∧ u'.ids = u.ids := by
        obtain ⟨n, ts⟩ := s
        obtain ⟨m, us⟩ := r
        simp only [map_node, node.injEq] at hstatic
        have hat := congrArg (fun us => us[j]?) hstatic.2
        rw [children_node] at hu
        simp only [List.getElem?_map, hu, Option.map_some] at hat
        obtain ⟨u', hu', hsame⟩ := Option.map_eq_some_iff.mp hat
        exact ⟨u', hu', ids_of_static hsame⟩
      have hrest := ih (ids_of_static hnow.map_static ▸ hnodup) hr hheld hu'
      intro id hid e he
      rcases List.mem_append.mp he with he | he
      · exact hsilent j u hij hu id hid e he
      · exact hrest id (hids ▸ hid) e he

end Behind

/-! ## The account of repeats -/

namespace Tree

variable [Behavior L δ] {t : Tree L}

/-- **Repeats go on for ever.**  A fresh tree whose root has a repeat below it is started, and its
owner goes on with it in any way.  Then each update asks for another one and polls the root of the
repeated subtree once.  The root and the repeat are in their first activation, and the subtree has
been activated once, and once more for every time that it has come to an end before.

And in every run of any fresh tree, no child of a composite that stands behind a repeat among its
children is ever polled. -/
theorem Fresh.repeats (h : t.Fresh) :
    (∀ (r q : Node L) (x : Branch (Node L)), t.branch? = some (.node r [.node q [x]]) → q.Repeats →
      ∀ s, t.start = .ok s → ∀ calls : List (Call δ), (∀ call ∈ calls, call.GoesOn) →
      ∀ driver, ∃ u, (s.performAll calls).1.update driver = .ok u ∧ u.status = .running ∧
        List.count (Event.enter x.label.id) u.trace = 1 ∧
        (u.tree.arena.map fun slot => slot.label.state.activations.toNat).take 3 =
          [1, 1, min (UInt32.size - 1)
            (1 + (s.traceAll calls).countP (Event.ends x.label.id))]) ∧
    ∀ (calls : List (Call δ)) (slot child later : Slot (Node L)) (p i j c d : Nat)
      (kind : CompositeKind) (cascade : Bool) (cursor : Nat), t.arena[p]? = some slot →
      slot.label.kind = .composite kind cascade cursor →
      slot.children[i]? = some c → t.arena[c]? = some child → child.label.Repeats → i < j →
      slot.children[j]? = some d → t.arena[d]? = some later →
      .event (.enter later.label.id) ∉ (t.performAll calls).2 := by
  obtain ⟨b, hb⟩ := h.pristine
  refine ⟨?_, ?_⟩
  · intro r q x hbranch hrepeats s hs calls hcalls driver
    rw [hb.toShows.branch?, Option.some.injEq] at hbranch
    subst hbranch
    have hlooping := hb.looping h.rooted hrepeats hs
    obtain ⟨u, hu, hstatus, hcount, hactivations, -⟩ := (hlooping.performAll hcalls).update driver
    rw [Nat.zero_add] at hactivations
    exact ⟨u, hu, hstatus, hcount, hactivations⟩
  · intro calls slot child later p i j c d kind cascade cursor hslot hkind hi hc hrepeats hij hj hd
    obtain ⟨e, -, hsteps⟩ := hb.toShows.performAll calls
    obtain ⟨s, hs, rfl⟩ := hb.toShows.exists_getElem?_parts hslot
    have hholds := (hb.toShows.holds_part hs).children
    obtain ⟨x, hx, hxc⟩ := hholds.get hi
    obtain ⟨y, hy, hyd⟩ := hholds.get hj
    rw [hxc.getElem?, Option.some.injEq] at hc
    rw [hyd.getElem?, Option.some.injEq] at hd
    subst hc hd
    have hmem : s.label ∈ b.labels := by
      rw [labels_eq_map_parts]
      exact List.mem_map_of_mem (List.mem_of_getElem? hs)
    -- a composite that has not been touched is at its first child
    have hheld : s.HeldAt i := by
      have hkind' : s.label.kind = .composite kind cascade cursor := hkind
      refine ⟨kind, cascade, 0, x, ?_, Nat.zero_le i, hx, hrepeats⟩
      rw [← hb.rewind_kind hmem, hkind']
      rfl
    exact fun hmem => hsteps.silent_behind hb.nodup hs hheld hij hy y.label.id
      (List.mem_map_of_mem y.label_mem_labels) _ hmem rfl

/-- A repeat around a selector that comes to another repeat once its first child is shut off. -/
theorem repeats_selector :
    let x : Branch (Node Constant) := .node (.fresh ⟨2⟩ (.composite .selector true 0))
      [.node (.fresh ⟨3⟩ (.decorator (.hasValue "open" false false) false))
        [.node (.fresh ⟨4⟩ (.leaf .succeed)) []],
      .node (.fresh ⟨5⟩ (.decorator .repeat false)) [.node (.fresh ⟨6⟩ (.leaf .running)) []],
      .node (.fresh ⟨7⟩ (.leaf .fail)) []]
    let t : Tree Constant := ofBranch (.node (.fresh ⟨0⟩ .root)
      [.node (.fresh ⟨1⟩ (.decorator .repeat false)) [x]])
    let s : Tree Constant := { t with board := some .empty }
    let calls : List (Call Unit) := [.edit (·.set "open" (.int 1)), .update (), .update (),
      .edit (·.remove "open"), .update (), .update ()]
    Tree.build .standard (some (.decorate .repeat (.composite none .selector (some true)
        [.decorate (.hasValue "open" false false) (.leaf none Constant.succeed),
        .decorate .repeat (.leaf none .running), .leaf none .fail]))) = .ok t ∧
      (∀ call ∈ calls, call.GoesOn) ∧ (s.traceAll calls).countP (Event.ends ⟨2⟩) = 2 ∧
      (∃ u, (s.performAll calls).1.update () = .ok u ∧ u.status = .running ∧
        (u.tree.arena.map fun slot => slot.label.state.activations.toNat).take 3 = [1, 1, 3]) ∧
      .event (.enter ⟨5⟩) ∈ (t.performAll (.start :: calls)).2 ∧
      .event (.enter ⟨7⟩) ∉ (t.performAll (.start :: calls)).2 := by
  intro x t s calls
  have hbuild : Tree.build .standard (some (.decorate .repeat (.composite none .selector (some true)
      [.decorate (.hasValue "open" false false) (.leaf none Constant.succeed),
      .decorate .repeat (.leaf none .running), .leaf none .fail]))) = .ok t := rfl
  have hfresh : t.Fresh := .built .standard _ hbuild
  have hcalls : ∀ call ∈ calls, call.GoesOn := by decide
  have hends : (s.traceAll calls).countP (Event.ends ⟨2⟩) = 2 := by decide +kernel
  have hbranch : t.branch? = some (.node (.fresh ⟨0⟩ .root)
      [.node (.fresh ⟨1⟩ (.decorator .repeat false)) [x]]) := branch?_ofBranch _
  obtain ⟨u, hu, hstatus, -, hactivations⟩ :=
    hfresh.repeats.1 _ _ x hbranch ⟨false, rfl⟩ s rfl calls hcalls ()
  rw [show (s.traceAll calls).countP (Event.ends x.label.id) = 2 from hends] at hactivations
  exact ⟨hbuild, hcalls, hends, ⟨u, hu, hstatus, hactivations⟩, by decide +kernel,
    hfresh.repeats.2 (.start :: calls) _ _ _ 2 1 2 5 7 .selector true 0 rfl rfl rfl rfl ⟨false, rfl⟩
      (by decide) rfl rfl⟩

end Tree

end BehaviorTree
