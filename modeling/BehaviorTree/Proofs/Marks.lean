import BehaviorTree.Proofs.ActivePath

/-!
# How often a poll comes to a node

A trace tells which nodes are entered in the course of a poll, and the hooks of which leaves are
called.  Each of these is a `Mark`, and `Trace.marked` lists the nodes that bear it in the order of
the trace.

**`Branch.marked_poll`**: it lists nodes of the polled tree, in pre-order, and none of them twice.
A composite polls its children from left to right, and no other node polls more than one of them,
so what happens below a node is listed behind it, child by child.
-/

namespace BehaviorTree

open Branch

variable {L δ : Type}

/-- What can happen to a node in the course of a poll, at most once. -/
inductive Mark
  /-- The node is polled. -/
  | enter
  /-- The hook at the beginning of an activation is called. -/
  | start
  | update
  | stop
  deriving DecidableEq

/-- The node to which this happens. -/
def Event.marked? : Mark → Event → Option NodeId
  | .enter, .enter id => some id
  | .start, .hook id (.start _) => some id
  | .update, .hook id (.update _) => some id
  | .stop, .hook id .stop => some id
  | _, _ => none

/-- The nodes to which this happens, one after the other. -/
def Trace.marked (m : Mark) (trace : Trace) : List NodeId := trace.filterMap (Event.marked? m)

namespace Trace

@[simp] lemma marked_nil (m : Mark) : marked m [] = [] := rfl

@[simp] lemma marked_append (m : Mark) (s t : Trace) :
    marked m (s ++ t) = marked m s ++ marked m t := List.filterMap_append

lemma marked_cons (m : Mark) (e : Event) (t : Trace) :
    marked m (e :: t) = marked m [e] ++ marked m t := marked_append m [e] t

@[simp] lemma marked_advance (m : Mark) (id : NodeId) : marked m [.advance id] = [] := by
  cases m <;> rfl

@[simp] lemma marked_leave (m : Mark) (id : NodeId) (status : Status) :
    marked m [.leave id status] = [] := by
  cases m <;> rfl

@[simp] lemma marked_start (m : Mark) (id : NodeId) : marked m [.start id] = [] := by
  cases m <;> rfl

/-- Being entered happens to the node that is entered, and nothing else does. -/
lemma marked_enter_sublist (m : Mark) (id : NodeId) : (marked m [.enter id]).Sublist [id] := by
  cases m with
  | enter => exact List.Sublist.refl _
  | _ => exact List.nil_sublist _

end Trace

section Children

variable [Behavior L δ] {ts : List (Branch (Node L))} {m : Mark}

lemma marked_pollFirst
    (ih : ∀ t ∈ ts, ∀ scene : Scene δ, ((t.poll scene).trace.marked m).Sublist t.ids)
    (scene : Scene δ) : ((pollFirst ts scene).trace.marked m).Sublist (idsAll ts) := by
  cases ts with
  | nil => exact List.nil_sublist _
  | cons t ts =>
      rw [idsAll_cons]
      exact (ih t List.mem_cons_self scene).trans (List.sublist_append_left _ _)

lemma Onward.marked {id : NodeId} {kind : CompositeKind} {cascade : Bool} {skip : Nat}
    {scene : Scene δ} {o : Outcome (Nat × List (Branch (Node L))) δ}
    (h : Onward id kind cascade skip ts scene o)
    (ih : ∀ t ∈ ts, ∀ scene : Scene δ, ((t.poll scene).trace.marked m).Sublist t.ids) :
    (o.trace.marked m).Sublist (idsAll ts) := by
  induction h with
  | exhausted => exact List.nil_sublist _
  | skips _ ihs =>
      rw [idsAll_cons]
      exact (ihs fun t ht => ih t (List.mem_cons_of_mem _ ht)).trans (List.sublist_append_right _ _)
  | stops =>
      rw [idsAll_cons]
      exact (ih _ List.mem_cons_self _).trans (List.sublist_append_left _ _)
  | ends =>
      rw [idsAll_cons]
      exact (ih _ List.mem_cons_self _).trans (List.sublist_append_left _ _)
  | cascades _ _ _ ihs =>
      have htail := ihs fun t ht => ih t (List.mem_cons_of_mem _ ht)
      rw [Outcome.trace_after, Outcome.trace_map, Trace.marked_append, idsAll_cons]
      exact (ih _ List.mem_cons_self _).append htail
  | pauses =>
      rw [Trace.marked_append, Trace.marked_advance, List.append_nil, idsAll_cons]
      exact (ih _ List.mem_cons_self _).trans (List.sublist_append_left _ _)

end Children

namespace Node

variable [Behavior L δ] {n : Node L}

/-- Beginning an activation calls at most one hook, and one of a leaf. -/
lemma trace_begin (n : Node L) (scene : Scene δ) :
    (n.begin scene).2.2 = [] ∨ (n.begin scene).2.2 = [.start n.id] ∨
      (∃ l, n.kind = .leaf l) ∧ ∃ first, (n.begin scene).2.2 =
        [.start n.id, .hook n.id (.start first)] := by
  obtain ⟨id, kind, state⟩ := n
  rw [begin]
  split
  · exact .inl rfl
  · cases kind with
    | leaf l => exact .inr (.inr ⟨⟨l, rfl⟩, _, rfl⟩)
    | _ => exact .inr (.inl rfl)

lemma trace_conclude (n : Node L) (status : Status) (scene : Scene δ) :
    (n.conclude status scene).2.2 = [] ∨
      (∃ l, n.kind = .leaf l) ∧ (n.conclude status scene).2.2 = [.hook n.id .stop] := by
  obtain ⟨id, kind, state⟩ := n
  rw [conclude]
  split
  · cases kind with
    | leaf l => exact .inr ⟨⟨l, rfl⟩, rfl⟩
    | _ => exact .inl rfl
  · exact .inl rfl

/-- Whether a node is a leaf is static. -/
lemma exists_leaf_of_static {n' : Node L} (h : n'.static = n.static)
    (hleaf : ∃ l, n'.kind = .leaf l) : ∃ l, n.kind = .leaf l := by
  obtain ⟨l, hl⟩ := hleaf
  have hkind := kind_eq_of_static h
  rw [hl] at hkind
  cases hk : n.kind with
  | leaf l => exact ⟨l, rfl⟩
  | _ => rw [hk] at hkind; cases hkind

/-- Running a node that is no leaf calls no hook of it. -/
lemma marked_run {m : Mark} {ts : List (Branch (Node L))} (hleaf : ¬ ∃ l, n.kind = .leaf l)
    (ih : ∀ t ∈ ts, ∀ scene : Scene δ, ((t.poll scene).trace.marked m).Sublist t.ids)
    (scene : Scene δ) :
    ((n.run ts (pollFirst ts) (fun kind cascade cursor =>
      Branch.pollFrom n.id kind cascade cursor ts) scene).trace.marked m).Sublist (idsAll ts) := by
  cases hk : n.kind with
  | root =>
      rw [run_root hk]
      exact marked_pollFirst ih scene
  | composite kind cascade cursor =>
      rw [run_composite hk]
      exact (pollFrom_onward n.id kind cascade cursor ts scene).marked ih
  | decorator rule gate =>
      cases ha : admits rule gate scene.board with
      | true =>
          rw [run_admitted hk ha]
          exact marked_pollFirst ih scene
      | false =>
          rw [run_refused hk ha]
          exact List.nil_sublist _
  | leaf l => exact absurd ⟨l, hk⟩ hleaf

end Node

/-- The end of a poll of a node that is no leaf calls no hook of it. -/
lemma Outcome.marked_conclude [Behavior L δ] {m : Mark} {o : Outcome (Branch (Node L)) δ}
    (hleaf : ¬ ∃ l, o.part.label.kind = .leaf l) (id : NodeId) {begun : Trace}
    (hbegun : begun.marked m = []) {ids : List NodeId} (h : (o.trace.marked m).Sublist ids) :
    ((o.conclude id begun).trace.marked m).Sublist (id :: ids) := by
  have hconclude : (o.part.label.conclude o.status o.scene).2.2 = [] :=
    (o.part.label.trace_conclude o.status o.scene).resolve_right fun hstop => hleaf hstop.1
  rw [Outcome.conclude, hconclude]
  simp only [List.cons_append, List.append_assoc]
  rw [Trace.marked_cons, Trace.marked_append, Trace.marked_append, hbegun, List.nil_append]
  simp only [List.nil_append, Trace.marked_leave, List.append_nil]
  exact (Trace.marked_enter_sublist m id).append h

namespace Branch

variable [Behavior L δ]

/-- A poll of a leaf calls each of its hooks at most once. -/
lemma marked_poll_leaf (m : Mark) {n : Node L} (hleaf : ∃ l, n.kind = .leaf l)
    (ts : List (Branch (Node L))) (scene : Scene δ) :
    (((node n ts).poll scene).trace.marked m).Sublist [n.id] := by
  obtain ⟨l, hl⟩ := Node.exists_leaf_of_static (n.static_begin scene).symm hleaf
  have hid := n.id_begin scene
  rw [poll_node, Node.run_leaf hl, Outcome.conclude]
  simp only [label_node, hid]
  generalize Behavior.onUpdate n.id l (n.begin scene).2.1 = r
  obtain ⟨status, l', scene'⟩ := r
  simp only
  have hconclude := Node.trace_conclude ⟨n.id, .leaf l', (n.begin scene).1.state⟩ status scene'
  rcases n.trace_begin scene with hb | hb | ⟨-, first, hb⟩ <;>
    rcases hconclude with hc | ⟨-, hc⟩ <;>
    rw [hb, hc] <;>
    cases m <;> first | exact List.Sublist.refl [n.id] | exact List.nil_sublist [n.id]

/-- **In the course of a poll nothing that is marked happens to a node twice**, and it happens to
the nodes in pre-order. -/
theorem marked_poll (m : Mark) (t : Branch (Node L)) (scene : Scene δ) :
    ((t.poll scene).trace.marked m).Sublist t.ids := by
  induction t generalizing scene with
  | node n ts ih =>
      rw [ids_node]
      by_cases hleaf : ∃ l, n.kind = .leaf l
      · exact (marked_poll_leaf m hleaf ts scene).trans
          (List.cons_sublist_cons.mpr (List.nil_sublist _))
      · have hbegun : (n.begin scene).2.2.marked m = [] := by
          rcases n.trace_begin scene with hb | hb | ⟨hl, -⟩
          · rw [hb, Trace.marked_nil]
          · rw [hb, Trace.marked_start]
          · exact absurd hl hleaf
        have hstill : ¬ ∃ l, (n.begin scene).1.kind = .leaf l := fun hl =>
          hleaf (Node.exists_leaf_of_static (n.static_begin scene) hl)
        have hran := Node.marked_run hstill (fun t ht scene => ih t ht scene) (n.begin scene).2.1
        have hrest : ¬ ∃ l, ((n.begin scene).1.run ts (pollFirst ts) (fun kind cascade cursor =>
            pollFrom (n.begin scene).1.id kind cascade cursor ts)
            (n.begin scene).2.1).part.label.kind = .leaf l := fun hl =>
          hstill (Node.exists_leaf_of_static (static_label_run _ ts _) hl)
        rw [poll_node, ← n.id_begin scene]
        exact Outcome.marked_conclude hrest _ hbegun hran

end Branch

end BehaviorTree
