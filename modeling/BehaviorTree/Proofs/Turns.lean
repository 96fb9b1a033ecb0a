import BehaviorTree.Proofs.Following
import BehaviorTree.Proofs.Marks
import BehaviorTree.Proofs.Pacing

/-!
# How a node polls its children

While a node runs, it polls children.  A `Turn` is the moment at which it polls one of them: what
has happened since the node ran, how far the children before have come, and the scene that the child
finds.

* `Trace.Within` and `Trace.Silent` — a trace is about the nodes of the given identities alone, and
  it is about none of them.  **`Branch.within_poll`**: a poll is about the polled nodes alone.
* `Node.Polls` — the turns of a node that runs.  They follow the recursion of the poll, so that a
  composite has as many of them as it polls children.
* `Branch.Fares` — what becomes of one child: nothing happens to it, or its turn comes once.
  **`runBelow_fares`** says it of a whole run, and **`Node.Polls.fares`** up to the turn of another
  child.
-/

namespace BehaviorTree

open Branch

variable {L δ : Type}

/-! ## What a trace is about -/

/-- The node that an event is about. -/
def Event.node? : Event → Option NodeId
  | enter id => some id
  | start id => some id
  | hook id _ => some id
  | advance id => some id
  | leave id _ => some id
  | stray _ => none

namespace Trace

/-- Every event is about a node of the given identities. -/
def Within (ids : List NodeId) (trace : Trace) : Prop := ∀ e ∈ trace, ∃ id ∈ ids, e.node? = some id

/-- No event is about a node of the given identities. -/
def Silent (ids : List NodeId) (trace : Trace) : Prop := ∀ e ∈ trace, ∀ id ∈ ids, e.node? ≠ some id

variable {ids ids' : List NodeId} {trace s t : Trace}

lemma within_nil (ids : List NodeId) : Within ids [] := by
  simp [Within]

lemma within_append : Within ids (s ++ t) ↔ Within ids s ∧ Within ids t := by
  simp only [Within, List.mem_append, or_imp, forall_and]

lemma within_cons {e : Event} :
    Within ids (e :: t) ↔ (∃ id ∈ ids, e.node? = some id) ∧ Within ids t := by
  simp only [Within, List.mem_cons, forall_eq_or_imp]

lemma Within.mono (h : Within ids trace) (hsub : ∀ id ∈ ids, id ∈ ids') : Within ids' trace := by
  intro e he
  obtain ⟨id, hid, heq⟩ := h e he
  exact ⟨id, hsub id hid, heq⟩

/-- What is about some nodes alone is silent about others. -/
lemma Within.silent (h : Within ids trace) (hdisj : ∀ id ∈ ids', id ∉ ids) :
    Silent ids' trace := by
  intro e he id hid heq
  obtain ⟨id', hid', heq'⟩ := h e he
  rw [heq, Option.some.injEq] at heq'
  exact hdisj id hid (heq' ▸ hid')

lemma silent_nil (ids : List NodeId) : Silent ids [] := by
  simp [Silent]

lemma silent_append : Silent ids (s ++ t) ↔ Silent ids s ∧ Silent ids t := by
  simp only [Silent, List.mem_append, or_imp, forall_and]

lemma Silent.append (hs : Silent ids s) (ht : Silent ids t) : Silent ids (s ++ t) :=
  silent_append.mpr ⟨hs, ht⟩

lemma Silent.mono (h : Silent ids trace) (hsub : ∀ id ∈ ids', id ∈ ids) : Silent ids' trace :=
  fun e he id hid => h e he id (hsub id hid)

end Trace

section Within

variable {ts : List (Branch (Node L))}

/-- The identities of a child are among those of the children. -/
lemma mem_idsAll {t : Branch (Node L)} (ht : t ∈ ts) {id : NodeId} (hid : id ∈ t.ids) :
    id ∈ idsAll ts := by
  obtain ⟨n, hn, rfl⟩ := List.mem_map.mp hid
  exact List.mem_map_of_mem (mem_labelsAll.mpr ⟨t, ht, hn⟩)

variable [Behavior L δ]

lemma within_begin (n : Node L) (scene : Scene δ) : (n.begin scene).2.2.Within [n.id] := by
  rcases n.trace_begin scene with h | h | ⟨-, first, h⟩ <;> rw [h] <;>
    simp [Trace.Within, Event.node?]

lemma within_conclude (n : Node L) (status : Status) (scene : Scene δ) :
    (n.conclude status scene).2.2.Within [n.id] := by
  rcases n.trace_conclude status scene with h | ⟨-, h⟩ <;> rw [h] <;>
    simp [Trace.Within, Event.node?]

lemma Onward.within {id : NodeId} {kind : CompositeKind} {cascade : Bool} {skip : Nat}
    {scene : Scene δ} {o : Outcome (Nat × List (Branch (Node L))) δ}
    (h : Onward id kind cascade skip ts scene o)
    (ih : ∀ t ∈ ts, ∀ scene : Scene δ, (t.poll scene).trace.Within t.ids) :
    o.trace.Within (id :: idsAll ts) := by
  have hhead : ∀ (t : Branch (Node L)) (ts : List (Branch (Node L))),
      ∀ x ∈ t.ids, x ∈ id :: idsAll (t :: ts) := fun t ts x hx =>
    List.mem_cons_of_mem _ (mem_idsAll List.mem_cons_self hx)
  have htail : ∀ (t : Branch (Node L)) (ts : List (Branch (Node L))),
      ∀ x ∈ id :: idsAll ts, x ∈ id :: idsAll (t :: ts) := by
    intro t ts x hx
    rw [idsAll_cons]
    rcases List.mem_cons.mp hx with rfl | hx
    · exact List.mem_cons_self
    · exact List.mem_cons_of_mem _ (List.mem_append_right _ hx)
  induction h with
  | exhausted => exact Trace.within_nil _
  | skips _ ihs => exact (ihs fun t ht => ih t (List.mem_cons_of_mem _ ht)).mono (htail _ _)
  | stops => exact (ih _ List.mem_cons_self _).mono (hhead _ _)
  | ends => exact (ih _ List.mem_cons_self _).mono (hhead _ _)
  | cascades _ _ _ ihs =>
      exact Trace.within_append.mpr ⟨(ih _ List.mem_cons_self _).mono (hhead _ _),
        (ihs fun t ht => ih t (List.mem_cons_of_mem _ ht)).mono (htail _ _)⟩
  | pauses =>
      refine Trace.within_append.mpr ⟨(ih _ List.mem_cons_self _).mono (hhead _ _), ?_⟩
      simp [Trace.Within, Event.node?]

lemma within_runBelow {n : Node L}
    (ih : ∀ t ∈ ts, ∀ scene : Scene δ, (t.poll scene).trace.Within t.ids) (scene : Scene δ) :
    (runBelow (node n ts) scene).trace.Within (n.id :: idsAll ts) := by
  have hfirst : (pollFirst ts scene).trace.Within (n.id :: idsAll ts) := by
    cases ts with
    | nil => exact Trace.within_nil _
    | cons t ts =>
        exact (ih t List.mem_cons_self scene).mono fun x hx =>
          List.mem_cons_of_mem _ (mem_idsAll List.mem_cons_self hx)
  rw [runBelow]
  cases hk : n.kind with
  | root =>
      rw [Node.run_root hk]
      exact hfirst
  | composite kind cascade cursor =>
      rw [Node.run_composite hk]
      exact (pollFrom_onward n.id kind cascade cursor ts scene).within ih
  | decorator rule gate =>
      cases ha : Node.admits rule gate scene.board with
      | true =>
          rw [Node.run_admitted hk ha]
          exact hfirst
      | false =>
          rw [Node.run_refused hk ha]
          exact Trace.within_nil _
  | leaf l =>
      rw [Node.run_leaf hk]
      simp [Trace.Within, Event.node?]

/-- **A poll is about the polled nodes alone.** -/
theorem Branch.within_poll (t : Branch (Node L)) (scene : Scene δ) :
    (t.poll scene).trace.Within t.ids := by
  induction t generalizing scene with
  | node n ts ih =>
      have hran := within_runBelow (n := (n.begin scene).1) ih (n.begin scene).2.1
      have hid : (runBelow (node (n.begin scene).1 ts) (n.begin scene).2.1).part.label.id = n.id :=
        (Node.id_eq_of_static (static_label_run _ ts _)).trans (n.id_begin scene)
      have hself : ∀ x ∈ [n.id], x ∈ n.id :: idsAll ts := by simp
      rw [poll_eq_conclude, Outcome.conclude, ids_node]
      simp only [Node.id_begin] at hran ⊢
      have hended := within_conclude
        (runBelow (node (n.begin scene).1 ts) (n.begin scene).2.1).part.label
        (runBelow (node (n.begin scene).1 ts) (n.begin scene).2.1).status
        (runBelow (node (n.begin scene).1 ts) (n.begin scene).2.1).scene
      rw [hid] at hended
      simp only [Trace.within_append, List.cons_append, Trace.within_cons]
      exact ⟨⟨n.id, List.mem_cons_self, rfl⟩, ⟨⟨(within_begin n scene).mono hself, hran⟩,
        hended.mono hself⟩, ⟨n.id, List.mem_cons_self, rfl⟩, Trace.within_nil _⟩

end Within

/-! ## Turns -/

/-- The moment at which a node polls one of its children. -/
structure Turn (L δ : Type) where
  /-- What has happened since the node ran. -/
  early : Trace
  /-- How many children a composite has left behind since then. -/
  moves : Nat
  /-- The children before this one, as they are. -/
  done : List (Branch (Node L))
  child : Branch (Node L)
  rest : List (Branch (Node L))
  scene : Scene δ

/-- The turns of a composite that polls its children but the first `skip` of them. -/
inductive Turns [Behavior L δ] (kind : CompositeKind) (cascade : Bool) :
    Nat → List (Branch (Node L)) → Scene δ → Turn L δ → Prop
  | here (t : Branch (Node L)) (ts : List (Branch (Node L))) (scene : Scene δ) :
    Turns kind cascade 0 (t :: ts) scene ⟨[], 0, [], t, ts, scene⟩
  | skips {skip : Nat} {t : Branch (Node L)} {ts : List (Branch (Node L))} {scene : Scene δ}
    {turn : Turn L δ} : Turns kind cascade skip ts scene turn →
    Turns kind cascade (skip + 1) (t :: ts) scene { turn with done := t :: turn.done }
  | onward {t : Branch (Node L)} {ts : List (Branch (Node L))} {scene : Scene δ} {turn : Turn L δ} :
    (t.poll scene).status = kind.advancesOn → cascade = true →
    Turns kind cascade 0 ts (t.poll scene).scene turn →
    Turns kind cascade 0 (t :: ts) scene ⟨(t.poll scene).trace ++ turn.early, turn.moves + 1,
      (t.poll scene).part :: turn.done, turn.child, turn.rest, turn.scene⟩

namespace Node

/-- The turns of a node that has an activation under way. -/
inductive Polls [Behavior L δ] (n : Node L) :
    List (Branch (Node L)) → Scene δ → Turn L δ → Prop
  | root {t : Branch (Node L)} {ts : List (Branch (Node L))} {scene : Scene δ} :
    n.kind = .root → Polls n (t :: ts) scene ⟨[], 0, [], t, ts, scene⟩
  | composite {kind : CompositeKind} {cascade : Bool} {cursor : Nat}
    {ts : List (Branch (Node L))} {scene : Scene δ} {turn : Turn L δ} :
    n.kind = .composite kind cascade cursor → Turns kind cascade cursor ts scene turn →
    Polls n ts scene turn
  | decorator {rule : DecoratorRule} {gate : Bool} {t : Branch (Node L)}
    {ts : List (Branch (Node L))} {scene : Scene δ} :
    n.kind = .decorator rule gate → admits rule gate scene.board = true →
    Polls n (t :: ts) scene ⟨[], 0, [], t, ts, scene⟩

/-- The node once so many more of its children have been left behind. -/
def movedOn (n : Node L) (moves : Nat) : Node L :=
  match n.kind with
  | .composite kind cascade cursor => { n with kind := .composite kind cascade (cursor + moves) }
  | _ => n

@[simp] lemma static_movedOn (n : Node L) (moves : Nat) : (n.movedOn moves).static = n.static := by
  obtain ⟨id, kind, state⟩ := n
  cases kind <;> rfl

end Node

/-- What becomes of a child in the course of some events: nothing happens to it, or its turn comes
once. -/
inductive Branch.Fares [Behavior L δ] (turns : Turn L δ → Prop) (i : Nat)
    (t u : Branch (Node L)) (trace : Trace) : Prop
  | rests : u = t → trace.Silent t.ids → Fares turns i t u trace
  | polled (turn : Turn L δ) (late : Trace) : turns turn → turn.child = t → turn.done.length = i →
    u = (t.poll turn.scene).part →
    trace = turn.early ++ (t.poll turn.scene).trace ++ late →
    turn.early.Silent t.ids → late.Silent t.ids → Fares turns i t u trace

section Turns

variable [Behavior L δ] {kind : CompositeKind} {cascade : Bool} {skip : Nat}
  {ts : List (Branch (Node L))} {scene : Scene δ} {turn : Turn L δ}

/-- The children are those before the turn, the child, and those that remain. -/
lemma Turns.split (h : Turns kind cascade skip ts scene turn) :
    ∃ before, ts = before ++ turn.child :: turn.rest ∧
      turn.done.map (Branch.map Node.static) = before.map (Branch.map Node.static) := by
  induction h with
  | here t ts scene => exact ⟨[], rfl, rfl⟩
  | @skips skip t ts scene turn _ ih =>
      obtain ⟨before, rfl, hdone⟩ := ih
      exact ⟨t :: before, rfl, by simp [hdone]⟩
  | @onward t ts scene turn _ _ _ ih =>
      obtain ⟨before, rfl, hdone⟩ := ih
      exact ⟨t :: before, rfl, by simp [hdone, map_static_poll]⟩

/-- A turn is a stretch of what polling from the cursor on does. -/
lemma Turns.infix_pollFrom (h : Turns kind cascade skip ts scene turn) (id : NodeId) :
    ∃ late, (Branch.pollFrom id kind cascade skip ts scene).trace =
      turn.early ++ (turn.child.poll turn.scene).trace ++ late := by
  induction h with
  | here t ts scene =>
      have honward := pollFrom_onward id kind cascade 0 (t :: ts) scene
      generalize Branch.pollFrom id kind cascade 0 (t :: ts) scene = o at honward
      cases honward with
      | stops => exact ⟨[], by simp⟩
      | ends => exact ⟨[], by simp⟩
      | cascades => exact ⟨_, rfl⟩
      | pauses => exact ⟨_, rfl⟩
  | skips _ ih =>
      rw [Branch.pollFrom]
      exact ih
  | @onward t ts scene turn hs hc hturn ih =>
      obtain ⟨late, hlate⟩ := ih
      cases ts with
      | nil => cases hturn
      | cons u us =>
          rw [Branch.pollFrom_cascades hs hc]
          exact ⟨late, by simp only [Outcome.trace_after, Outcome.trace_map, hlate,
            List.append_assoc]⟩

/-- A later child fares as it does among the later children, behind events that are not about it. -/
lemma Branch.Fares.behind {turns turns' : Turn L δ → Prop} {i : Nat} {t u : Branch (Node L)}
    {trace head : Trace} (h : Fares turns i t u trace) (hhead : head.Silent t.ids)
    (hturns : ∀ turn, turns turn → ∃ turn', turns' turn' ∧ turn'.child = turn.child ∧
      turn'.scene = turn.scene ∧ turn'.done.length = turn.done.length + 1 ∧
      turn'.early = head ++ turn.early) :
    Fares turns' (i + 1) t u (head ++ trace) := by
  cases h with
  | rests hu hsilent => exact .rests hu (hhead.append hsilent)
  | polled turn late hturn hchild hdone hu htrace hearly hlate =>
      obtain ⟨turn', hturn', hchild', hscene, hdone', hearly'⟩ := hturns turn hturn
      refine .polled turn' late hturn' (hchild'.trans hchild) (by rw [hdone', hdone])
        (hscene ▸ hu) ?_ ?_ hlate
      · rw [htrace, hearly', hscene]
        simp only [List.append_assoc]
      · rw [hearly']
        exact hhead.append hearly

/-- The poll of the first of several children is not about the others. -/
lemma silent_of_tail {t s : Branch (Node L)} (hnodup : (idsAll (t :: ts)).Nodup) (hs : s ∈ ts)
    (scene : Scene δ) : (t.poll scene).trace.Silent s.ids :=
  (t.within_poll scene).silent fun _ hid hmem =>
    disjoint_of_nodup hnodup _ hmem (mem_idsAll hs hid)

/-- The first of several children is polled, and what follows is about none of them. -/
lemma fares_head {turns : Turn L δ → Prop} {t : Branch (Node L)} {tail : Trace}
    (hturn : turns ⟨[], 0, [], t, ts, scene⟩) (hnodup : (idsAll (t :: ts)).Nodup)
    (htail : tail.Silent (idsAll (t :: ts))) :
    ∀ i s, (t :: ts)[i]? = some s → ∃ u, ((t.poll scene).part :: ts)[i]? = some u ∧
      Fares turns i s u ((t.poll scene).trace ++ tail) := by
  intro i s hs
  have hsilent := htail.mono fun _ hid => mem_idsAll (List.mem_of_getElem? hs) hid
  cases i with
  | zero =>
      obtain rfl : t = s := by simpa using hs
      exact ⟨_, rfl, .polled _ tail hturn rfl rfl rfl rfl (Trace.silent_nil _) hsilent⟩
  | succ i =>
      rw [List.getElem?_cons_succ] at hs
      have hhead := silent_of_tail hnodup (List.mem_of_getElem? hs) scene
      exact ⟨s, hs, .rests rfl (hhead.append hsilent)⟩

/-- Polling the later children is not about the first one. -/
lemma Onward.silent_head {id : NodeId} {o : Outcome (Nat × List (Branch (Node L))) δ}
    (h : Onward id kind cascade skip ts scene o) {t : Branch (Node L)}
    (hnodup : (idsAll (t :: ts)).Nodup) (hid : id ∉ t.ids) : o.trace.Silent t.ids := by
  refine (h.within fun t _ => t.within_poll).silent fun x hx hmem => ?_
  rcases List.mem_cons.mp hmem with rfl | hmem
  · exact hid hx
  · exact disjoint_of_nodup hnodup x hx hmem

/-- **What becomes of each child of a composite** that polls them from the cursor on. -/
lemma Onward.fares {id : NodeId} {o : Outcome (Nat × List (Branch (Node L))) δ}
    (h : Onward id kind cascade skip ts scene o) (hnodup : (idsAll ts).Nodup)
    (hid : id ∉ idsAll ts) :
    ∀ i t, ts[i]? = some t → ∃ u, o.part.2[i]? = some u ∧
      Fares (Turns kind cascade skip ts scene) i t u o.trace := by
  induction h with
  | exhausted => simp
  | @skips skip t ts scene o hrest ih =>
      intro i s hs
      rw [idsAll_cons, List.mem_append, not_or] at hid
      cases i with
      | zero =>
          obtain rfl : t = s := by simpa using hs
          exact ⟨t, rfl, .rests rfl (hrest.silent_head hnodup hid.1)⟩
      | succ i =>
          obtain ⟨u, hu, hfares⟩ := ih (nodup_tail hnodup) hid.2 i s hs
          exact ⟨u, hu, hfares.behind (Trace.silent_nil _) fun turn hturn =>
            ⟨_, .skips hturn, rfl, rfl, rfl, rfl⟩⟩
  | @stops t ts scene hs =>
      simpa using fares_head (.here t ts scene) hnodup (Trace.silent_nil _)
  | @ends t scene hs =>
      simpa using fares_head (.here t [] scene) hnodup (Trace.silent_nil _)
  | @cascades t u us scene o hs hc hrest ih =>
      intro i s hs'
      rw [idsAll_cons, List.mem_append, not_or] at hid
      cases i with
      | zero =>
          obtain rfl : t = s := by simpa using hs'
          exact ⟨_, rfl, .polled _ o.trace (.here t (u :: us) scene) rfl rfl rfl rfl
            (Trace.silent_nil _) (hrest.silent_head hnodup hid.1)⟩
      | succ i =>
          rw [List.getElem?_cons_succ] at hs'
          obtain ⟨v, hv, hfares⟩ := ih (nodup_tail hnodup) hid.2 i s hs'
          have hhead := silent_of_tail hnodup (List.mem_of_getElem? hs') scene
          exact ⟨v, hv, hfares.behind hhead fun turn hturn =>
            ⟨_, .onward hs hc hturn, rfl, rfl, rfl, rfl⟩⟩
  | @pauses t u us scene hs hc =>
      refine fares_head (.here t (u :: us) scene) hnodup ?_
      have hwithin : Trace.Within [id] [.advance id] := by simp [Trace.Within, Event.node?]
      exact hwithin.silent fun x hx hmem => hid (List.mem_singleton.mp hmem ▸ hx)

/-- What has happened before a turn is about the children alone. -/
lemma Turns.within_early (h : Turns kind cascade skip ts scene turn) :
    turn.early.Within (idsAll ts) := by
  induction h with
  | here => exact Trace.within_nil _
  | skips _ ih =>
      refine ih.mono fun x hx => ?_
      rw [idsAll_cons]
      exact List.mem_append_right _ hx
  | @onward t ts scene turn _ _ _ ih =>
      refine Trace.within_append.mpr
        ⟨(t.within_poll scene).mono fun x hx => mem_idsAll List.mem_cons_self hx,
          ih.mono fun x hx => ?_⟩
      rw [idsAll_cons]
      exact List.mem_append_right _ hx

/-- **What has become of each child of a composite at the turn of one of them.** -/
lemma Turns.fares (h : Turns kind cascade skip ts scene turn) (hnodup : (idsAll ts).Nodup) :
    ∀ i t, ts[i]? = some t → (i = turn.done.length → turn.early.Silent t.ids) ∧
      (i ≠ turn.done.length → ∃ u, (∀ c, (turn.done ++ c :: turn.rest)[i]? = some u) ∧
        Fares (Turns kind cascade skip ts scene) i t u turn.early) := by
  induction h with
  | here t ts scene =>
      intro i s hs
      refine ⟨fun _ => Trace.silent_nil _, fun hi => ?_⟩
      cases i with
      | zero => exact absurd rfl hi
      | succ i => exact ⟨s, fun _ => hs, .rests rfl (Trace.silent_nil _)⟩
  | @skips skip t ts scene turn hturn ih =>
      intro i s hs
      cases i with
      | zero =>
          obtain rfl : t = s := by simpa using hs
          refine ⟨fun hi => absurd hi (Nat.succ_ne_zero _).symm, fun _ => ⟨t, fun _ => rfl, ?_⟩⟩
          exact .rests rfl (hturn.within_early.silent fun x hx hmem =>
            disjoint_of_nodup hnodup x hx hmem)
      | succ i =>
          obtain ⟨hat, hother⟩ := ih (nodup_tail hnodup) i s hs
          refine ⟨fun hi => hat (Nat.succ.inj hi), fun hi => ?_⟩
          obtain ⟨u, hu, hfares⟩ := hother fun h => hi (congrArg Nat.succ h)
          exact ⟨u, hu, hfares.behind (Trace.silent_nil _) fun turn hturn =>
            ⟨_, .skips hturn, rfl, rfl, rfl, rfl⟩⟩
  | @onward t ts scene turn hs hc hturn ih =>
      intro i s hs'
      cases i with
      | zero =>
          obtain rfl : t = s := by simpa using hs'
          refine ⟨fun hi => absurd hi (Nat.succ_ne_zero _).symm,
            fun _ => ⟨(t.poll scene).part, fun _ => rfl, ?_⟩⟩
          exact .polled _ turn.early (.here t ts scene) rfl rfl rfl rfl (Trace.silent_nil _)
            (hturn.within_early.silent fun x hx hmem => disjoint_of_nodup hnodup x hx hmem)
      | succ i =>
          rw [List.getElem?_cons_succ] at hs'
          have hhead := silent_of_tail hnodup (List.mem_of_getElem? hs') scene
          obtain ⟨hat, hother⟩ := ih (nodup_tail hnodup) i s hs'
          refine ⟨fun hi => hhead.append (hat (Nat.succ.inj hi)), fun hi => ?_⟩
          obtain ⟨u, hu, hfares⟩ := hother fun h => hi (congrArg Nat.succ h)
          exact ⟨u, hu, hfares.behind hhead fun turn hturn =>
            ⟨_, .onward hs hc hturn, rfl, rfl, rfl, rfl⟩⟩

end Turns

section Polls

variable [Behavior L δ] {n : Node L} {ts : List (Branch (Node L))} {scene : Scene δ}
  {turn : Turn L δ}

lemma Branch.Fares.imp {turns turns' : Turn L δ → Prop} {i : Nat} {t u : Branch (Node L)}
    {trace : Trace} (h : Fares turns i t u trace) (hturns : ∀ turn, turns turn → turns' turn) :
    Fares turns' i t u trace := by
  cases h with
  | rests hu hsilent => exact .rests hu hsilent
  | polled turn late hturn hchild hdone hu htrace hearly hlate =>
      exact .polled turn late (hturns turn hturn) hchild hdone hu htrace hearly hlate

lemma pollFirst_fares (hnodup : (idsAll ts).Nodup) {turns : Turn L δ → Prop}
    (hturn : ∀ t us, ts = t :: us → turns ⟨[], 0, [], t, us, scene⟩) :
    ∀ i t, ts[i]? = some t → ∃ u, (pollFirst ts scene).part[i]? = some u ∧
      Fares turns i t u (pollFirst ts scene).trace := by
  cases ts with
  | nil => simp
  | cons t ts => simpa [pollFirst] using fares_head (hturn t ts rfl) hnodup (Trace.silent_nil _)

/-- **What becomes of each child of a node** that runs. -/
lemma runBelow_fares (hnodup : (node n ts).ids.Nodup) (scene : Scene δ) :
    ∀ i t, ts[i]? = some t → ∃ u, (runBelow (node n ts) scene).part.children[i]? = some u ∧
      Fares (n.Polls ts scene) i t u (runBelow (node n ts) scene).trace := by
  obtain ⟨hid, hall⟩ := List.nodup_cons.mp hnodup
  rw [runBelow]
  cases hk : n.kind with
  | root =>
      rw [Node.run_root hk]
      refine pollFirst_fares hall ?_
      rintro t us rfl
      exact .root hk
  | composite kind cascade cursor =>
      rw [Node.run_composite hk]
      intro i t ht
      obtain ⟨u, hu, hfares⟩ :=
        (pollFrom_onward n.id kind cascade cursor ts scene).fares hall hid i t ht
      exact ⟨u, hu, hfares.imp fun _ => .composite hk⟩
  | decorator rule gate =>
      cases ha : Node.admits rule gate scene.board with
      | true =>
          rw [Node.run_admitted hk ha]
          refine pollFirst_fares hall ?_
          rintro t us rfl
          exact .decorator hk ha
      | false =>
          rw [Node.run_refused hk ha]
          exact fun i t ht => ⟨t, ht, .rests rfl (Trace.silent_nil _)⟩
  | leaf l =>
      rw [Node.run_leaf hk]
      intro i t ht
      refine ⟨t, ht, .rests rfl ?_⟩
      have hwithin :
          Trace.Within [n.id] [.hook n.id (.update (Behavior.onUpdate n.id l scene).1)] := by
        simp [Trace.Within, Event.node?]
      exact hwithin.silent fun x hx hmem =>
        hid (List.mem_singleton.mp hmem ▸ mem_idsAll (List.mem_of_getElem? ht) hx)

/-- What has become of each child of a node at the turn of one of them. -/
lemma Node.Polls.fares (h : n.Polls ts scene turn) (hnodup : (idsAll ts).Nodup) :
    ∀ i t, ts[i]? = some t → (i = turn.done.length → turn.early.Silent t.ids) ∧
      (i ≠ turn.done.length → ∃ u, (∀ c, (turn.done ++ c :: turn.rest)[i]? = some u) ∧
        Fares (n.Polls ts scene) i t u turn.early) := by
  have hfirst : ∀ (t : Branch (Node L)) (us : List (Branch (Node L))) (i : Nat)
      (s : Branch (Node L)), (t :: us)[i]? = some s → (i = 0 → Trace.Silent s.ids []) ∧
      (i ≠ 0 → ∃ u, (∀ c, (c :: us)[i]? = some u) ∧ Fares (n.Polls (t :: us) scene) i s u []) := by
    intro t us i s hs
    refine ⟨fun _ => Trace.silent_nil _, fun hi => ?_⟩
    obtain ⟨i, rfl⟩ := Nat.exists_eq_succ_of_ne_zero hi
    exact ⟨s, fun _ => hs, .rests rfl (Trace.silent_nil _)⟩
  cases h with
  | root hk => exact hfirst _ _
  | composite hk hturn =>
      intro i t ht
      obtain ⟨hat, hother⟩ := hturn.fares hnodup i t ht
      refine ⟨hat, fun hi => ?_⟩
      obtain ⟨u, hu, hfares⟩ := hother hi
      exact ⟨u, hu, hfares.imp fun _ => .composite hk⟩
  | decorator hk ha => exact hfirst _ _

/-- The children are those before the turn, the child, and those that remain. -/
lemma Node.Polls.split (h : n.Polls ts scene turn) :
    ∃ before, ts = before ++ turn.child :: turn.rest ∧
      turn.done.map (Branch.map Node.static) = before.map (Branch.map Node.static) := by
  cases h with
  | root => exact ⟨[], rfl, rfl⟩
  | composite _ hturn => exact hturn.split
  | decorator => exact ⟨[], rfl, rfl⟩

/-- The child is one of the children. -/
lemma Node.Polls.child_mem (h : n.Polls ts scene turn) : turn.child ∈ ts := by
  obtain ⟨before, rfl, -⟩ := h.split
  simp

/-- What has happened before a turn is about the children alone. -/
lemma Node.Polls.within_early (h : n.Polls ts scene turn) : turn.early.Within (idsAll ts) := by
  cases h with
  | root => exact Trace.within_nil _
  | composite _ hturn => exact hturn.within_early
  | decorator => exact Trace.within_nil _

/-- A turn is a stretch of what running the node does. -/
lemma Node.Polls.infix_runBelow (h : n.Polls ts scene turn) :
    ∃ late, (runBelow (node n ts) scene).trace =
      turn.early ++ (turn.child.poll turn.scene).trace ++ late := by
  rw [runBelow]
  cases h with
  | root hk =>
      rw [Node.run_root hk]
      exact ⟨[], by simp [pollFirst]⟩
  | composite hk hturn =>
      rw [Node.run_composite hk]
      exact hturn.infix_pollFrom n.id
  | decorator hk ha =>
      rw [Node.run_admitted hk ha]
      exact ⟨[], by simp [pollFirst]⟩

end Polls

end BehaviorTree
