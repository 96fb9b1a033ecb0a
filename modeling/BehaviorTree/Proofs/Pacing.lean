import BehaviorTree.Proofs.ActivePath

/-!
# Cascading is a matter of pace

A composite that does not cascade hands control back between two of its children.  Nothing else
depends on the flag: a tree in which more composites cascade calls the same hooks in the same order,
only with fewer polls in between.

`Hastened` relates a tree to one in which more composites cascade.  Polled on the same scene, the
hastened tree either does the same, or it goes on where the other one pauses, and then what it does
is what it would do if it paused there as well and were polled again at once
(`Outcome.Hastened`).  This is so because coming back to a pause calls no hook, at any depth.

* **`Branch.poll_hastened`** — one poll of a tree and of the hastened tree.
* `Outcome.Hastened.goOnFor` — the same of two runs, the first of which may be polled more often.
* **`Tree.Fresh.hastened_updates`** — the hooks, the result, the blackboard and the driver of whole
  runs.

A gate that is evaluated at every poll does see when it is polled, so trees with such a gate are
left out.
-/

namespace BehaviorTree

open Branch

variable {τ υ L δ : Type}

/-! ## Hastened trees -/

/-- The second kind is the first, except that a composite may cascade where the first does not. -/
inductive NodeKind.Hastened : NodeKind L → NodeKind L → Prop
  | root : Hastened .root .root
  | composite (kind : CompositeKind) {c c' : Bool} (cursor : Nat) : (c = true → c' = true) →
    Hastened (.composite kind c cursor) (.composite kind c' cursor)
  | decorator (rule : DecoratorRule) (gate : Bool) :
    Hastened (.decorator rule gate) (.decorator rule gate)
  | leaf (l : L) : Hastened (.leaf l) (.leaf l)

/-- The second node is the first, except that it may cascade. -/
structure Node.Hastened (n n' : Node L) : Prop where
  id : n'.id = n.id
  kind : n.kind.Hastened n'.kind
  state : n'.state = n.state

/-- The second tree is the first, except that more composites may cascade. -/
inductive Branch.Hastened : Branch (Node L) → Branch (Node L) → Prop
  | node {n n' : Node L} {ts ts' : List (Branch (Node L))} : n.Hastened n' →
    List.Forall₂ Hastened ts ts' → Hastened (.node n ts) (.node n' ts')

/-! ## Hastened outcomes -/

namespace Outcome

/-- Outcomes that agree in everything but the polled parts and the events that no leaf sees. -/
structure Matches (R : τ → υ → Prop) (o : Outcome τ δ) (o' : Outcome υ δ) : Prop where
  status : o'.status = o.status
  scene : o'.scene = o.scene
  calls : o'.trace.hookCalls = o.trace.hookCalls
  part : R o.part o'.part

/-- The second outcome matches the first; or the first is a pause, and the second is what comes of
resuming from the same pause. -/
def Hastened (R : τ → τ → Prop) (resume : τ → Scene δ → Outcome τ δ) (o o' : Outcome τ δ) : Prop :=
  o.Matches R o' ∨ o.status = .running ∧
    ∃ u, R o.part u ∧ ((resume u o.scene).after o.trace).Matches (· = ·) o'

variable {R : τ → τ → Prop} {S : υ → υ → Prop} {resume : τ → Scene δ → Outcome τ δ}
  {resume' : υ → Scene δ → Outcome υ δ} {o o' : Outcome τ δ}

lemma Matches.map_eq (h : o.Matches (· = ·) o') (f : τ → υ) :
    (o.map f).Matches (· = ·) (o'.map f) :=
  ⟨h.status, h.scene, h.calls, congrArg f h.part⟩

lemma Matches.after (h : o.Matches R o') {s s' : Trace} (hs : s'.hookCalls = s.hookCalls) :
    (o.after s).Matches R (o'.after s') where
  status := h.status
  scene := h.scene
  calls := by simp only [trace_after, Trace.hookCalls_append, hs, h.calls]
  part := h.part

/-- The same for parts that the polled ones belong to. -/
lemma Hastened.map (h : o.Hastened R resume o') (f g : τ → υ)
    (hpart : ∀ a b, R a b → S (f a) (g b))
    (hresume : ∀ u scene, resume' (g u) scene = (resume u scene).map g) :
    (o.map f).Hastened S resume' (o'.map g) := by
  rcases h with h | ⟨hrunning, u, hu, h⟩
  · exact .inl ⟨h.status, h.scene, h.calls, hpart _ _ h.part⟩
  · refine .inr ⟨hrunning, g u, hpart _ _ hu, ?_⟩
    rw [hresume]
    exact h.map_eq g

/-- Where there is no pause, the outcomes match. -/
lemma Hastened.matches (h : o.Hastened R resume o') (hne : o.status ≠ .running) :
    o.Matches R o' := by
  rcases h with h | ⟨hrunning, _⟩
  · exact h
  · exact absurd hrunning hne

/-- The same with earlier events in front. -/
lemma Hastened.after (h : o.Hastened R resume o') {s s' : Trace}
    (hs : s'.hookCalls = s.hookCalls) : (o.after s).Hastened R resume (o'.after s') := by
  rcases h with h | ⟨hrunning, u, hu, h⟩
  · exact .inl (h.after hs)
  · refine .inr ⟨hrunning, u, hu, h.status, h.scene, ?_, h.part⟩
    have hcalls := h.calls
    simp only [trace_after, scene_after, Trace.hookCalls_append, hs, List.append_assoc] at hcalls ⊢
    rw [hcalls]

end Outcome

/-! ## Polling children -/

/-- Polling the children of a hastened tree goes on from the same place. -/
def PassedOn (p q : Nat × List (Branch (Node L))) : Prop :=
  p.1 = q.1 ∧ List.Forall₂ Branch.Hastened p.2 q.2

section Children

variable [Behavior L δ] {id : NodeId} {kind : CompositeKind} {c c' : Bool} {skip : Nat}
  {ts ts' : List (Branch (Node L))} {t t' u : Branch (Node L)} {scene scene' : Scene δ}

/-- A poll of a branch and of each hastened one is hastened. -/
def Branch.Hastens (δ : Type) [Behavior L δ] (t : Branch (Node L)) : Prop :=
  ∀ (t' : Branch (Node L)) (scene : Scene δ), t.Hastened t' →
    (t.poll scene).Hastened Branch.Hastened Branch.poll (t'.poll scene)

/-- Polling the children from the cursor on, after some of them have been left behind before. -/
def resumeFrom (id : NodeId) (kind : CompositeKind) (c : Bool) (skip : Nat)
    (p : Nat × List (Branch (Node L))) (scene : Scene δ) :
    Outcome (Nat × List (Branch (Node L))) δ :=
  (Branch.pollFrom id kind c (skip + p.1) p.2 scene).map fun q => (p.1 + q.1, q.2)

/-- Resuming behind a first child passes over it. -/
lemma resumeFrom_cons :
    resumeFrom id kind c 0 (1, t :: ts) scene =
      (Branch.pollFrom id kind c 0 ts scene).map fun q => (q.1 + 1, t :: q.2) := by
  rw [resumeFrom, show 0 + (1, t :: ts).1 = 0 + 1 from rfl, Branch.pollFrom]
  simp only [Outcome.map, Nat.add_comm]

lemma pollFirst_hastened (h : List.Forall₂ Branch.Hastened ts ts') (ih : ∀ t ∈ ts, t.Hastens δ)
    (scene : Scene δ) :
    (pollFirst ts scene).Hastened (List.Forall₂ Branch.Hastened) pollFirst
      (pollFirst ts' scene) := by
  cases h with
  | nil => exact .inl ⟨rfl, rfl, rfl, .nil⟩
  | @cons t t' ts ts' ht hts =>
      exact (ih t List.mem_cons_self t' scene ht).map (· :: ts) (· :: ts')
        (fun _ _ hu => .cons hu hts) fun _ _ => rfl

/-- What polling from the cursor on does depends on the first poll alone. -/
lemma pollFrom_matches {earlier : Trace}
    (h : ((u.poll scene').after earlier).Matches (· = ·) (t.poll scene)) :
    ((Branch.pollFrom id kind c 0 (u :: ts) scene').after earlier).Matches (· = ·)
      (Branch.pollFrom id kind c 0 (t :: ts) scene) := by
  obtain ⟨hstatus, hscene, hcalls, hpart⟩ := h
  simp only [Outcome.status_after, Outcome.scene_after, Outcome.part_after] at hstatus hscene hpart
  rw [Branch.pollFrom, Branch.pollFrom]
  simp only [hstatus]
  split
  · exact ⟨hstatus, hscene, hcalls, by simp [hpart]⟩
  · split
    · exact ⟨hstatus, hscene, hcalls, by simp [hpart]⟩
    · split
      · refine ⟨by simp [hscene], by simp [hscene], ?_, by simp [hscene, hpart]⟩
        simp only [Outcome.trace_after, Outcome.trace_map, Trace.hookCalls_append, hscene,
          hcalls, List.append_assoc]
      · refine ⟨rfl, hscene, ?_, by simp [hpart]⟩
        simp only [Outcome.trace_after, Trace.hookCalls_append, hcalls, List.append_assoc]

/-- **Polling the children of a hastened composite** from the cursor on goes on where the other one
pauses. -/
lemma Onward.hastened {o : Outcome (Nat × List (Branch (Node L))) δ}
    (h : Onward id kind c skip ts scene o) (hts : List.Forall₂ Branch.Hastened ts ts')
    (hc : c = true → c' = true) (ih : ∀ t ∈ ts, t.Hastens δ) :
    o.Hastened PassedOn (resumeFrom id kind c' skip)
      (Branch.pollFrom id kind c' skip ts' scene) := by
  induction h generalizing ts' with
  | exhausted =>
      cases hts
      rw [Branch.pollFrom]
      exact .inl ⟨rfl, rfl, rfl, rfl, .nil⟩
  | @skips skip t ts scene o _ ihs =>
      obtain _ | ⟨ht, hts⟩ := hts
      have hrest := ihs hts fun v hv => ih v (List.mem_cons_of_mem _ hv)
      rw [Branch.pollFrom]
      refine hrest.map _ _ (fun p q hpq => ⟨hpq.1, .cons ht hpq.2⟩) fun p scene => ?_
      rw [resumeFrom, resumeFrom, Nat.add_right_comm, Branch.pollFrom]
      rfl
  | @stops t ts scene hs =>
      obtain _ | @⟨_, t', _, ts', ht, hts⟩ := hts
      rcases ih t List.mem_cons_self t' scene ht with h | ⟨hrunning, u, hu, h⟩
      · rw [Branch.pollFrom_stops (by rwa [h.status])]
        exact .inl ⟨h.status, h.scene, h.calls, rfl, .cons h.part hts⟩
      · refine .inr ⟨hrunning, (0, u :: ts'), ⟨rfl, .cons hu hts⟩, ?_⟩
        have hresume : ∀ scene, resumeFrom id kind c' 0 (0, u :: ts') scene =
            Branch.pollFrom id kind c' 0 (u :: ts') scene := by
          intro scene
          simp [resumeFrom, Outcome.map]
        rw [hresume]
        exact pollFrom_matches h
  | @ends t scene hs =>
      obtain _ | @⟨_, t', _, _, ht, hts⟩ := hts
      cases hts
      have h := (ih t List.mem_cons_self t' scene ht).matches (hs ▸ kind.advancesOn_ne_running)
      rw [Branch.pollFrom_ends (h.status.trans hs)]
      exact .inl ⟨h.status, h.scene, h.calls, rfl, .cons h.part .nil⟩
  | @cascades t u us scene o hs hcascade _ ihs =>
      obtain _ | @⟨_, t', _, ts', ht, hts⟩ := hts
      have h := (ih t List.mem_cons_self t' scene ht).matches (hs ▸ kind.advancesOn_ne_running)
      have hrest := ihs hts fun v hv => ih v (List.mem_cons_of_mem _ hv)
      rw [← h.scene] at hrest
      obtain _ | @⟨_, u', _, us', hu, hus⟩ := hts
      rw [Branch.pollFrom_cascades (h.status.trans hs) (hc hcascade)]
      refine Outcome.Hastened.after (hrest.map _ _ (fun p q hpq => ?_) fun p scene => ?_) h.calls
      · exact ⟨congrArg (· + 1) hpq.1, .cons h.part hpq.2⟩
      · rw [resumeFrom, resumeFrom, ← Nat.add_assoc, Branch.pollFrom]
        simp only [Outcome.map, Nat.add_right_comm]
  | @pauses t u us scene hs hpause =>
      obtain _ | @⟨_, t', _, ts', ht, hts⟩ := hts
      have h := (ih t List.mem_cons_self t' scene ht).matches (hs ▸ kind.advancesOn_ne_running)
      obtain _ | @⟨_, u', _, us', hu, hus⟩ := hts
      cases hcascade : c' with
      | false =>
          rw [Branch.pollFrom_pauses (h.status.trans hs) rfl]
          refine .inl ⟨rfl, h.scene, ?_, rfl, .cons h.part (.cons hu hus)⟩
          simp only [Trace.hookCalls_append, h.calls]
      | true =>
          -- the hastened composite goes on to the child that the other one leaves for later
          rw [Branch.pollFrom_cascades (h.status.trans hs) rfl]
          refine .inr ⟨rfl, (1, (t'.poll scene).part :: u' :: us'),
            ⟨rfl, .cons h.part (.cons hu hus)⟩, ?_⟩
          rw [resumeFrom_cons, h.scene]
          refine ⟨rfl, rfl, ?_, rfl⟩
          simp only [Outcome.trace_after, Outcome.trace_map, Trace.hookCalls_append, h.calls]
          simp [Trace.hookCalls, Event.hookCall?]

end Children

/-! ## Polling a node -/

namespace Branch

/-- The same branch with another execution state at its root. -/
def withState (s : NodeState) : Branch (Node L) → Branch (Node L)
  | .node n ts => .node { n with state := s } ts

variable [Behavior L δ]

/-- Runs the root of a branch, which has an activation under way. -/
def runBelow : Branch (Node L) → Scene δ → Outcome (Branch (Node L)) δ
  | .node n ts, scene => n.run ts (pollFirst ts)
    (fun kind cascade cursor => Branch.pollFrom n.id kind cascade cursor ts) scene

lemma poll_eq_conclude (n : Node L) (ts : List (Branch (Node L))) (scene : Scene δ) :
    (node n ts).poll scene =
      (runBelow (node (n.begin scene).1 ts) (n.begin scene).2.1).conclude (n.begin scene).1.id
        (n.begin scene).2.2 := rfl

/-- Running a node neither reads nor changes its execution state. -/
lemma runBelow_withState (b : Branch (Node L)) (s : NodeState) (scene : Scene δ) :
    runBelow (b.withState s) scene = (runBelow b scene).map (withState s) := by
  obtain ⟨⟨id, kind, state⟩, ts⟩ := b
  cases kind with
  | root => rfl
  | composite kind cascade cursor => rfl
  | decorator rule gate =>
      simp only [withState, runBelow]
      cases hadmits : Node.admits rule gate scene.board with
      | true => rw [Node.run_admitted rfl hadmits, Node.run_admitted rfl hadmits]; rfl
      | false => rw [Node.run_refused rfl hadmits, Node.run_refused rfl hadmits]; rfl
  | leaf l => rfl

lemma state_runBelow (b : Branch (Node L)) (scene : Scene δ) :
    (runBelow b scene).part.label.state = b.label.state := by
  obtain ⟨⟨id, kind, state⟩, ts⟩ := b
  cases kind with
  | root => rfl
  | composite kind cascade cursor => rfl
  | decorator rule gate =>
      rw [runBelow]
      cases hadmits : Node.admits rule gate scene.board with
      | true => rw [Node.run_admitted rfl hadmits]; rfl
      | false => rw [Node.run_refused rfl hadmits]
  | leaf l => rfl

/-- The end of a poll writes over what the poll before recorded. -/
lemma conclude_withState (o : Outcome (Branch (Node L)) δ) (id : NodeId) (begun : Trace)
    (status : Status) :
    (o.map (withState (o.part.label.state.record status))).conclude id begun =
      o.conclude id begun := by
  obtain ⟨status, ⟨⟨id, kind, state⟩, ts⟩, scene, trace⟩ := o
  rfl

/-- Resuming a node that paused runs it as if the pause had not been recorded. -/
lemma poll_withState (b : Branch (Node L)) (hstarted : b.label.state.started = true)
    (status : Status) (scene : Scene δ) :
    (b.withState (b.label.state.record status)).poll scene =
      (runBelow b scene).conclude b.label.id [] := by
  obtain ⟨n, ts⟩ := b
  have hbegin : ({ n with state := n.state.record status } : Node L).begin scene =
      ({ n with state := n.state.record status }, scene, []) := by
    rw [Node.begin, if_pos]
    exact hstarted
  have hrun := runBelow_withState (node n ts) (n.state.record status) scene
  have hconclude := conclude_withState (runBelow (node n ts) scene) n.id [] status
  rw [state_runBelow, ← runBelow_withState] at hconclude
  rw [withState, poll_eq_conclude, label_node, hbegin]
  exact hconclude

end Branch

namespace Node

variable [Behavior L δ] {n n' : Node L} {ts ts' : List (Branch (Node L))}

/-- Whether a gate is open does not change in the course of an activation, if it is not evaluated
at every poll. -/
lemma admits_congr {rule : DecoratorRule} (h : rule.gatesEachPoll = false) (gate : Bool)
    (board board' : Blackboard) : admits rule gate board' = admits rule gate board := by
  rw [admits, admits]
  split
  · rfl
  · next honce =>
      rw [DecoratorRule.gate_of_not_gatesEachPoll board h honce,
        DecoratorRule.gate_of_not_gatesEachPoll board' h honce]

lemma Hastened.begin (h : n.Hastened n') (scene : Scene δ) :
    (n.begin scene).1.Hastened (n'.begin scene).1 ∧ (n'.begin scene).2 = (n.begin scene).2 := by
  obtain ⟨id, kind, state⟩ := n
  obtain ⟨id', kind', state'⟩ := n'
  obtain ⟨hid, hkind, hstate⟩ := h
  simp only at hid hkind hstate
  subst hid hstate
  rw [Node.begin, Node.begin]
  split
  · exact ⟨⟨rfl, hkind, rfl⟩, rfl⟩
  · cases hkind with
    | root => exact ⟨⟨rfl, .root, rfl⟩, rfl⟩
    | composite kind cursor hc => exact ⟨⟨rfl, .composite kind 0 hc, rfl⟩, rfl⟩
    | decorator rule gate => exact ⟨⟨rfl, .decorator rule _, rfl⟩, rfl⟩
    | leaf l => exact ⟨⟨rfl, .leaf _, rfl⟩, rfl⟩

lemma Hastened.conclude (h : n.Hastened n') (status : Status) (scene : Scene δ) :
    (n.conclude status scene).1.Hastened (n'.conclude status scene).1 ∧
      (n'.conclude status scene).2 = (n.conclude status scene).2 := by
  obtain ⟨id, kind, state⟩ := n
  obtain ⟨id', kind', state'⟩ := n'
  obtain ⟨hid, hkind, hstate⟩ := h
  simp only at hid hkind hstate
  subst hid hstate
  rw [Node.conclude, Node.conclude]
  split
  · cases hkind with
    | root => exact ⟨⟨rfl, .root, rfl⟩, rfl⟩
    | composite kind cursor hc => exact ⟨⟨rfl, .composite kind cursor hc, rfl⟩, rfl⟩
    | decorator rule gate => exact ⟨⟨rfl, .decorator rule gate, rfl⟩, rfl⟩
    | leaf l => exact ⟨⟨rfl, .leaf _, rfl⟩, rfl⟩
  · exact ⟨⟨rfl, hkind, rfl⟩, rfl⟩

/-- **Running a hastened node** goes on where running the other one pauses. -/
lemma Hastened.run (h : n.Hastened n') (hgated : ¬ n.Gated)
    (hts : List.Forall₂ Branch.Hastened ts ts') (ih : ∀ t ∈ ts, t.Hastens δ) (scene : Scene δ) :
    (runBelow (.node n ts) scene).Hastened Branch.Hastened runBelow
      (runBelow (.node n' ts') scene) := by
  obtain ⟨id, kind, state⟩ := n
  obtain ⟨id', kind', state'⟩ := n'
  obtain ⟨hid, hkind, hstate⟩ := h
  simp only at hid hkind hstate
  subst hid hstate
  cases hkind with
  | root =>
      exact (pollFirst_hastened hts ih scene).map _ _
        (fun _ _ hus => .node ⟨rfl, .root, rfl⟩ hus) fun _ _ => rfl
  | @composite kind c c' cursor hc =>
      have honward := (pollFrom_onward id' kind c cursor ts scene).hastened hts hc ih
      rw [runBelow, runBelow, run_composite rfl, run_composite rfl]
      refine honward.map _ _ (fun p q hpq => ?_) fun p scene => ?_
      · rw [hpq.1]
        exact .node ⟨rfl, .composite kind _ hc, rfl⟩ hpq.2
      · rw [runBelow, run_composite rfl, resumeFrom]
        simp only [Outcome.map, Nat.add_assoc]
  | decorator rule gate =>
      have hrule : rule.gatesEachPoll = false := by
        rw [← Bool.not_eq_true]
        exact fun hgates => hgated ⟨rule, gate, rfl, hgates⟩
      have hnode : Node.Hastened (⟨id', .decorator rule gate, state'⟩ : Node L)
          ⟨id', .decorator rule gate, state'⟩ := ⟨rfl, .decorator rule gate, rfl⟩
      cases hadmits : admits rule gate scene.board with
      | false =>
          rw [runBelow, runBelow, run_refused rfl hadmits, run_refused rfl hadmits]
          exact .inl ⟨rfl, rfl, rfl, .node hnode hts⟩
      | true =>
          rw [runBelow, runBelow, run_admitted rfl hadmits, run_admitted rfl hadmits]
          rcases pollFirst_hastened hts ih scene with h | ⟨hrunning, us, hus, h⟩
          · exact .inl ⟨congrArg rule.map h.status, h.scene, h.calls, .node hnode h.part⟩
          · refine .inr ⟨by rw [hrunning, rule.map_running], node _ us, .node hnode hus, ?_⟩
            -- the gate is open when the child is resumed, as it was before
            have hadmits' : admits rule gate (pollFirst ts scene).scene.board = true := by
              rwa [admits_congr hrule gate scene.board]
            rw [runBelow, Outcome.scene_map, run_admitted rfl hadmits']
            exact ⟨congrArg rule.map h.status, h.scene, h.calls, congrArg (node _) h.part⟩
  | leaf l =>
      exact .inl ⟨rfl, rfl, rfl, .node ⟨rfl, .leaf _, rfl⟩ hts⟩

end Node

section Poll

variable [Behavior L δ]

/-- Clearing keeps trees hastened. -/
lemma Branch.Hastened.clear {t t' : Branch (Node L)} (h : t.Hastened t') :
    (t.map Node.clear).Hastened (t'.map Node.clear) := by
  induction t generalizing t' with
  | node n ts ih =>
      obtain @⟨_, n', _, ts', hn, hts⟩ := h
      rw [map_node, map_node]
      refine .node ⟨hn.id, hn.kind, congrArg NodeState.clear hn.state⟩ ?_
      induction hts with
      | nil => exact .nil
      | cons ht _ ihs =>
          exact .cons (ih _ List.mem_cons_self ht)
            (ihs fun t ht => ih t (List.mem_cons_of_mem _ ht))

lemma Branch.Hastened.state {t t' : Branch (Node L)} (h : t.Hastened t') :
    t'.label.state = t.label.state := by
  obtain ⟨hn, _⟩ := h
  exact hn.state

/-- Recording a result keeps trees hastened. -/
lemma Branch.Hastened.record {t t' : Branch (Node L)} (h : t.Hastened t') (status : Status) :
    (t.withState (t.label.state.record status)).Hastened
      (t'.withState (t'.label.state.record status)) := by
  obtain ⟨hn, hts⟩ := h
  exact .node ⟨hn.id, hn.kind, congrArg (NodeState.record · status) hn.state⟩ hts

lemma Node.Hastened.clearsOn {n n' : Node L} (h : n.Hastened n') (status : Status) :
    n'.clearsOn status = n.clearsOn status := by
  obtain ⟨id, kind, state⟩ := n
  obtain ⟨id', kind', state'⟩ := n'
  cases h.kind <;> rfl

lemma Node.Hastened.settle {n n' : Node L} (h : n.Hastened n') (status : Status)
    {ts ts' : List (Branch (Node L))} (hts : List.Forall₂ Branch.Hastened ts ts') :
    List.Forall₂ Branch.Hastened (n.settle status ts) (n'.settle status ts') := by
  rw [Node.settle, Node.settle, h.clearsOn]
  split
  · induction hts with
    | nil => exact .nil
    | cons ht _ ih => exact .cons ht.clear ih
  · exact hts

lemma Outcome.calls_conclude (o : Outcome (Branch (Node L)) δ) (id : NodeId) (begun : Trace) :
    (o.conclude id begun).trace.hookCalls = begun.hookCalls ++ o.trace.hookCalls ++
      (o.part.label.conclude o.status o.scene).2.2.hookCalls := by
  simp [Outcome.conclude, Trace.hookCalls, List.filterMap_cons, Event.hookCall?]

/-- A poll that asks for another one leaves the children as they are. -/
lemma Outcome.part_conclude_running {o : Outcome (Branch (Node L)) δ} (h : o.status = .running)
    (id : NodeId) (begun : Trace) :
    (o.conclude id begun).part = o.part.withState (o.part.label.state.record .running) := by
  obtain ⟨status, ⟨m, us⟩, scene, trace⟩ := o
  simp only at h
  subst h
  simp only [Outcome.conclude, label_node, children_node, Node.conclude_running, withState,
    Node.settle_running]

/-- **Ending the poll of a hastened node.** -/
lemma Outcome.Hastened.conclude {o o' : Outcome (Branch (Node L)) δ}
    (h : o.Hastened Branch.Hastened runBelow o') (hstarted : o.part.label.state.started = true)
    (id : NodeId) (begun : Trace) :
    (o.conclude id begun).Hastened Branch.Hastened Branch.poll (o'.conclude id begun) := by
  rcases h with h | ⟨hrunning, u, hu, h⟩
  · obtain ⟨status, part, scene, trace⟩ := o
    obtain ⟨status', part', scene', trace'⟩ := o'
    obtain ⟨hstatus, hscene, hcalls, hpart⟩ := h
    simp only at hstatus hscene hcalls hpart
    subst hstatus hscene
    obtain @⟨m, m', us, us', hm, hus⟩ := hpart
    obtain ⟨hconclude, hrest⟩ := hm.conclude status' scene'
    refine .inl ⟨rfl, congrArg Prod.fst hrest, ?_, .node hconclude ?_⟩
    · simp only [calls_conclude, label_node, hcalls, hrest]
    · exact hconclude.settle status' hus
  · -- the hastened tree is resumed from the same pause
    refine .inr ⟨hrunning, u.withState (u.label.state.record .running), ?_, ?_⟩
    · rw [part_conclude_running hrunning]
      exact hu.record .running
    · have hstate := hu.state
      have hscene : (o.conclude id begun).scene = o.scene := by
        simp only [Outcome.conclude, hrunning, Node.conclude_running]
      rw [hscene, poll_withState u (by rw [hstate]; exact hstarted)]
      generalize runBelow u o.scene = r at h
      obtain ⟨hstatus, hscene', hcalls, hpart⟩ := h
      simp only [status_after, scene_after, trace_after, part_after] at hstatus hscene' hcalls hpart
      refine ⟨hstatus, ?_, ?_, ?_⟩
      · simp only [Outcome.conclude, scene_after, hstatus, hscene', hpart]
      · simp only [trace_after, Trace.hookCalls_append, calls_conclude, hcalls, hstatus, hscene',
          hpart, hrunning, Node.conclude_running]
        simp [Trace.hookCalls]
      · simp only [Outcome.conclude, part_after, hstatus, hscene', hpart]

/-- **A poll of a hastened tree** does the same, or it goes on where the poll of the other tree
pauses. -/
theorem Branch.poll_hastened (t : Branch (Node L)) (hgates : ∀ n ∈ t.labels, ¬ n.Gated) :
    t.Hastens δ := by
  induction t with
  | node n ts ih =>
      intro t' scene h
      obtain @⟨_, n', _, ts', hn, hts⟩ := h
      obtain ⟨hbegin, hrest⟩ := hn.begin scene
      have hgated : ¬ (n.begin scene).1.Gated := fun hg =>
        hgates n List.mem_cons_self (Node.gated_of_static (n.static_begin scene).symm hg)
      have hbelow : ∀ t ∈ ts, t.Hastens δ := fun t ht =>
        ih t ht fun m hm => hgates m (List.mem_cons_of_mem _ (mem_labelsAll.mpr ⟨t, ht, hm⟩))
      have hrun := hbegin.run hgated hts hbelow (n.begin scene).2.1
      rw [poll_eq_conclude, poll_eq_conclude, hrest, hbegin.id]
      refine hrun.conclude ?_ _ _
      rw [state_runBelow, label_node]
      exact n.started_begin scene

end Poll

/-- Whether a tree has gates that are evaluated at every poll does not change. -/
lemma not_gated_of_static {b c : Branch (Node L)} (h : c.map Node.static = b.map Node.static)
    (hgates : ∀ n ∈ b.labels, ¬ n.Gated) : ∀ n ∈ c.labels, ¬ n.Gated := by
  intro n hn hgated
  obtain ⟨m, hm, heq⟩ := exists_label_of_static h hn
  exact hgates m hm (Node.gated_of_static heq hgated)

/-! ## Runs of nested trees -/

namespace Outcome

lemma Matches.of_eq {R : τ → τ → Prop} {o o' o'' : Outcome τ δ} (h : o.Matches R o')
    (h' : o'.Matches (· = ·) o'') : o.Matches R o'' :=
  ⟨h'.status.trans h.status, h'.scene.trans h.scene, h'.calls.trans h.calls, h'.part ▸ h.part⟩

lemma Hastened.of_eq {R : τ → τ → Prop} {resume : τ → Scene δ → Outcome τ δ}
    {o o' o'' : Outcome τ δ} (h : o.Hastened R resume o') (h' : o'.Matches (· = ·) o'') :
    o.Hastened R resume o'' := by
  rcases h with h | ⟨hrunning, u, hu, h⟩
  · exact .inl (h.of_eq h')
  · exact .inr ⟨hrunning, u, hu, h.of_eq h'⟩

/-- The hooks that have been called so far will have been called. -/
lemma Hastened.hookCalls_isPrefix {R : τ → τ → Prop} {resume : τ → Scene δ → Outcome τ δ}
    {o o' : Outcome τ δ} (h : o.Hastened R resume o') :
    o.trace.hookCalls <+: o'.trace.hookCalls := by
  rcases h with h | ⟨_, u, _, h⟩
  · exact h.calls ▸ List.prefix_refl _
  · rw [h.calls, trace_after, Trace.hookCalls_append]
    exact List.prefix_append _ _

variable [Behavior L δ]

/-- A run of a nested tree goes on with a further poll, unless it has come to its end. -/
def goOn (o : Outcome (Branch (Node L)) δ) : Outcome (Branch (Node L)) δ :=
  if o.status.isTerminal then o else (o.part.poll o.scene).after o.trace

/-- A run of a nested tree goes on for a number of polls. -/
def goOnFor (o : Outcome (Branch (Node L)) δ) : Nat → Outcome (Branch (Node L)) δ
  | 0 => o
  | n + 1 => (o.goOnFor n).goOn

variable {o o' : Outcome (Branch (Node L)) δ}

lemma goOn_of_terminal (h : o.status.isTerminal = true) : o.goOn = o := if_pos h

lemma goOn_of_running (h : o.status = .running) :
    o.goOn = (o.part.poll o.scene).after o.trace := by
  rw [goOn, h]
  rfl

lemma map_static_goOn (o : Outcome (Branch (Node L)) δ) :
    o.goOn.part.map Node.static = o.part.map Node.static := by
  rw [goOn]
  split
  · rfl
  · exact map_static_poll o.part o.scene

lemma map_static_goOnFor (o : Outcome (Branch (Node L)) δ) (n : Nat) :
    (o.goOnFor n).part.map Node.static = o.part.map Node.static := by
  induction n with
  | zero => rfl
  | succ n ih => rw [goOnFor, map_static_goOn, ih]

lemma prefix_goOn (o : Outcome (Branch (Node L)) δ) :
    o.trace.hookCalls <+: o.goOn.trace.hookCalls := by
  rw [goOn]
  split
  · exact List.prefix_refl _
  · rw [trace_after, Trace.hookCalls_append]
    exact List.prefix_append _ _

lemma prefix_goOnFor (o : Outcome (Branch (Node L)) δ) {m n : Nat} (h : m ≤ n) :
    (o.goOnFor m).trace.hookCalls <+: (o.goOnFor n).trace.hookCalls := by
  induction h with
  | refl => exact List.prefix_refl _
  | step _ ih => exact ih.trans (prefix_goOn _)

/-- A poll of the slower tree either brings it closer to the hastened one, or both are polled. -/
lemma Hastened.goOn (h : o.Hastened Branch.Hastened Branch.poll o')
    (hgates : ∀ n ∈ o.part.labels, ¬ n.Gated) :
    o.goOn.Hastened Branch.Hastened Branch.poll o' ∨
      o.goOn.Hastened Branch.Hastened Branch.poll o'.goOn := by
  rcases h with h | ⟨hrunning, u, hu, h⟩
  · cases hstatus : o.status.isTerminal with
    | true =>
        rw [goOn_of_terminal hstatus]
        exact .inl (.inl h)
    | false =>
        have hrunning := Status.isTerminal_eq_false_iff.mp hstatus
        rw [goOn_of_running hrunning, goOn_of_running (h.status.trans hrunning), h.scene]
        exact .inr ((o.part.poll_hastened hgates _ o.scene h.part).after h.calls)
  · rw [goOn_of_running hrunning]
    exact .inl (((o.part.poll_hastened hgates u o.scene hu).after rfl).of_eq h)

/-- **A hastened tree needs no more polls** to get as far as the slower one. -/
theorem Hastened.goOnFor (h : o.Hastened Branch.Hastened Branch.poll o')
    (hgates : ∀ n ∈ o.part.labels, ¬ n.Gated) (n : Nat) :
    ∃ m ≤ n, (o.goOnFor n).Hastened Branch.Hastened Branch.poll (o'.goOnFor m) := by
  induction n with
  | zero => exact ⟨0, Nat.le_refl 0, h⟩
  | succ n ih =>
      obtain ⟨m, hm, hahead⟩ := ih
      have hgates' := not_gated_of_static (o.map_static_goOnFor n) hgates
      rcases hahead.goOn hgates' with h' | h'
      · exact ⟨m, Nat.le_succ_of_le hm, h'⟩
      · exact ⟨m + 1, Nat.succ_le_succ hm, h'⟩

end Outcome

/-! ## Runs of trees -/

namespace Tree

/-- The second tree is the first, except that more composites may cascade. -/
structure Hastened (t t' : Tree L) : Prop where
  length : t'.arena.length = t.arena.length
  slot : ∀ (i : Nat) (slot slot' : Slot (Node L)), t.arena[i]? = some slot →
    t'.arena[i]? = some slot' → slot'.children = slot.children ∧
      slot'.label.id = slot.label.id ∧ slot.label.kind.Hastened slot'.label.kind

variable [Behavior L δ]

/-- Updates a tree a number of times, each time over the context that the driver has been left
with. -/
def updates (t : Tree L) (driver : δ) : Nat → Except Misuse (Updated L δ)
  | 0 => .ok ⟨t.state, t, driver, []⟩
  | n + 1 => do
    let before ← t.updates driver n
    let now ← before.tree.update before.driver
    return { now with trace := before.trace ++ now.trace }

/-- What is left of a tree and its driver after a run of its nested tree. -/
def ofRun (o : Outcome (Branch (Node L)) δ) : Updated L δ :=
  ⟨o.status, ⟨o.part.layout 0, some o.scene.board, o.status⟩, o.scene.driver, o.trace⟩

/-- **Updating a tree again and again** is a run of its nested tree. -/
lemma updates_ofRun {o : Outcome (Branch (Node L)) δ} (hnodup : o.part.ids.Nodup)
    (htrace : o.trace = []) (n : Nat) :
    (ofRun o).tree.updates o.scene.driver n = .ok (ofRun (o.goOnFor n)) := by
  induction n with
  | zero =>
      obtain ⟨status, part, scene, trace⟩ := o
      simp only at htrace
      subst htrace
      rfl
  | succ n ih =>
      rw [Tree.updates, ih, Outcome.goOnFor]
      have hshows : (ofRun (o.goOnFor n)).tree.Shows (o.goOnFor n).part :=
        ⟨rfl, by rwa [ids_of_static (o.map_static_goOnFor n)]⟩
      generalize o.goOnFor n = p at hshows
      cases hstatus : p.status.isTerminal with
      | true =>
          have hupdate := update_of_terminal (t := (ofRun p).tree) rfl hstatus (ofRun p).driver
          simp only [bind, Except.bind, hupdate, List.append_nil, p.goOn_of_terminal hstatus]
          rfl
      | false =>
          have hrunning := Status.isTerminal_eq_false_iff.mp hstatus
          have hboard : (ofRun p).tree.board = some p.scene.board := rfl
          have hupdate := hshows.update hboard hrunning p.scene.driver
          simp only [bind, Except.bind]
          rw [show (ofRun p).driver = p.scene.driver from rfl, hupdate, p.goOn_of_running hrunning]
          rfl

end Tree

/-- Reading hastened trees off their arenas. -/
lemma branchAt_hastened {slots slots' : Arena L} (hlen : slots'.length = slots.length)
    (h : ∀ (i : Nat) (slot slot' : Slot (Node L)), slots[i]? = some slot →
      slots'[i]? = some slot' →
      slot'.children = slot.children ∧ slot.label.Hastened slot'.label) :
    ∀ (i : Nat) (hi : i < slots.length) (hi' : i < slots'.length),
      (Slot.branchAt slots i hi).Hastened (Slot.branchAt slots' i hi') := by
  intro i
  induction hk : slots.length - i using Nat.strongRecOn generalizing i with
  | ind k ih =>
      intro hi hi'
      obtain ⟨hchildren, hlabel⟩ := h i slots[i] slots'[i] (List.getElem?_eq_getElem hi)
        (List.getElem?_eq_getElem hi')
      rw [Slot.branchAt, Slot.branchAt, hchildren]
      refine .node hlabel ?_
      induction slots[i].children with
      | nil => exact .nil
      | cons c cs ihs =>
          rw [List.filterMap_cons, List.filterMap_cons]
          by_cases hc : Slot.Forward slots.length i c
          · have hc' : Slot.Forward slots'.length i c := by rwa [hlen]
            have hlt := hc.1
            rw [dif_pos hc, dif_pos hc']
            exact .cons (ih (slots.length - c) (by omega) c rfl hc.2 hc'.2) ihs
          · have hc' : ¬ Slot.Forward slots'.length i c := by rwa [hlen]
            rw [dif_neg hc, dif_neg hc']
            exact ihs

namespace Tree

/-- Fresh trees that are hastened show hastened nested trees. -/
lemma Hastened.branch {t t' : Tree L} {b b' : Branch (Node L)} (h : t.Hastened t')
    (hb : t.Pristine b) (hb' : t'.Pristine b') : b.Hastened b' := by
  have hslots : ∀ (i : Nat) (slot slot' : Slot (Node L)), (b.layout 0)[i]? = some slot →
      (b'.layout 0)[i]? = some slot' →
      slot'.children = slot.children ∧ slot.label.Hastened slot'.label := by
    intro i slot slot' hslot hslot'
    rw [← hb.arena] at hslot
    rw [← hb'.arena] at hslot'
    obtain ⟨hchildren, hid, hkind⟩ := h.slot i slot slot' hslot hslot'
    refine ⟨hchildren, hid, hkind, ?_⟩
    rw [hb.state_eq_fresh (hb.toShows.label_mem hslot),
      hb'.state_eq_fresh (hb'.toShows.label_mem hslot')]
  have hlen : (b'.layout 0).length = (b.layout 0).length := by
    rw [← hb.arena, ← hb'.arena]
    exact h.length
  have hpos : 0 < (b.layout 0).length := by
    rw [length_layout]
    exact b.size_pos
  have hbranch := branchAt_hastened hlen hslots 0 hpos (hlen ▸ hpos)
  rwa [Slot.branchAt_layout, Slot.branchAt_layout] at hbranch

variable [Behavior L δ]

/-- Updating a fresh tree that has been started is a run of its nested tree. -/
lemma Pristine.updates {t s : Tree L} {b : Branch (Node L)} (h : t.Pristine b)
    (hs : t.start = .ok s) (edit : Blackboard → Blackboard) (driver : δ) (n : Nat) :
    (s.editBoard edit).updates driver n =
      .ok (ofRun ((⟨.running, b, ⟨edit .empty, driver⟩, []⟩ : Outcome _ δ).goOnFor n)) := by
  obtain ⟨arena, board, state⟩ := t
  obtain ⟨⟨harena, hnodup⟩, _, hboard, hstate⟩ := h
  simp only at harena hboard hstate
  subst harena hboard hstate
  rw [Tree.start, Except.ok.injEq] at hs
  subst hs
  exact updates_ofRun (o := ⟨.running, b, ⟨edit .empty, driver⟩, []⟩) hnodup rfl n

/-- **Cascading is a matter of pace.**  Two fresh trees are started that differ only in that more
composites of the second one cascade, and neither has a gate that is evaluated at every poll.  After
the same number of updates the second one has called the same hooks and perhaps more, and if the
first one has come to its end, the second one has come to the same end no later. -/
theorem Fresh.hastened_updates {t t' s s' : Tree L} (h : t.Fresh) (h' : t'.Fresh)
    (hastened : t.Hastened t') (hgates : ∀ slot ∈ t.arena, ¬ slot.label.Gated)
    (hs : t.start = .ok s) (hs' : t'.start = .ok s') (edit : Blackboard → Blackboard)
    (driver : δ) (n : Nat) :
    ∃ r r', (s.editBoard edit).updates driver n = .ok r ∧
      (s'.editBoard edit).updates driver n = .ok r' ∧
      r.trace.hookCalls <+: r'.trace.hookCalls ∧
      (r.status.isTerminal = true → ∃ m ≤ n, ∃ e, (s'.editBoard edit).updates driver m = .ok e ∧
        e.status = r.status ∧ e.trace.hookCalls = r.trace.hookCalls ∧
        e.tree.board = r.tree.board ∧ e.driver = r.driver) := by
  obtain ⟨b, hb⟩ := h.pristine
  obtain ⟨b', hb'⟩ := h'.pristine
  set o : Outcome (Branch (Node L)) δ := ⟨.running, b, ⟨edit .empty, driver⟩, []⟩ with ho
  set o' : Outcome (Branch (Node L)) δ := ⟨.running, b', ⟨edit .empty, driver⟩, []⟩ with ho'
  have hgates' : ∀ m ∈ o.part.labels, ¬ m.Gated := by
    intro m hm
    obtain ⟨slot, hslot, rfl⟩ := hb.toShows.exists_of_label hm
    exact hgates slot hslot
  have hstart : o.Hastened Branch.Hastened Branch.poll o' :=
    .inl ⟨rfl, rfl, rfl, hastened.branch hb hb'⟩
  obtain ⟨m, hm, hahead⟩ := hstart.goOnFor hgates' n
  have hrun' := hb'.updates hs' edit driver
  refine ⟨_, _, hb.updates hs edit driver n, hrun' n, ?_, fun hterminal => ?_⟩
  · exact hahead.hookCalls_isPrefix.trans (o'.prefix_goOnFor hm)
  · have hne : (o.goOnFor n).status ≠ .running := fun hrunning =>
      Bool.false_ne_true ((Status.isTerminal_eq_false_iff.mpr hrunning).symm.trans hterminal)
    have hmatches := hahead.matches hne
    refine ⟨m, hm, _, hrun' m, hmatches.status, hmatches.calls, ?_, ?_⟩
    · exact congrArg (fun scene => some scene.board) hmatches.scene
    · exact congrArg Scene.driver hmatches.scene

/-- A sequence of two leaves that succeed takes two updates, and a cascading one no more. -/
theorem hastened_sequence :
    let tree (c : Bool) : Tree Constant := ofBranch (.node (.fresh ⟨0⟩ .root)
      [.node (.fresh ⟨1⟩ (.composite .sequence c 0))
        [.node (.fresh ⟨2⟩ (.leaf .succeed)) [], .node (.fresh ⟨3⟩ (.leaf .succeed)) []]])
    let started (c : Bool) : Tree Constant := { tree c with board := some .empty }
    (∀ c, Tree.build .standard (some (.composite none .sequence (some c)
      [.leaf none Constant.succeed, .leaf none Constant.succeed])) = .ok (tree c)) ∧
      (tree false).Hastened (tree true) ∧
      ∃ r, (started false).updates () 2 = .ok r ∧ r.status = .success ∧
        ∃ m ≤ 2, ∃ e, (started true).updates () m = .ok e ∧ e.status = .success ∧
          e.trace.hookCalls = r.trace.hookCalls := by
  intro tree started
  have hbuild : ∀ c, Tree.build .standard (some (.composite none .sequence (some c)
      [.leaf none Constant.succeed, .leaf none Constant.succeed])) = .ok (tree c) := fun _ => rfl
  have hhastened : (tree false).Hastened (tree true) := by
    refine ⟨rfl, fun i slot slot' h h' => ?_⟩
    rcases i with _ | _ | _ | _ | i
    · cases h; cases h'; exact ⟨rfl, rfl, .root⟩
    · cases h; cases h'; exact ⟨rfl, rfl, .composite .sequence 0 (by simp)⟩
    · cases h; cases h'; exact ⟨rfl, rfl, .leaf Constant.succeed⟩
    · cases h; cases h'; exact ⟨rfl, rfl, .leaf Constant.succeed⟩
    · cases h
  have hgates : ∀ slot ∈ (tree false).arena, ¬ slot.label.Gated := by
    simp [tree, ofBranch, layout, layoutAll, Node.Gated, Node.fresh]
  obtain ⟨r, r', hr, hr', _, hend⟩ := (Fresh.built .standard _ (hbuild false)).hastened_updates
    (Fresh.built .standard _ (hbuild true)) hhastened hgates rfl rfl id () 2
  have hstatus : ((started false).updates () 2).toOption.map Updated.status = some .success := by
    decide +kernel
  have hr : (started false).updates () 2 = .ok r := hr
  rw [hr] at hstatus
  have hsuccess : r.status = .success := Option.some.inj hstatus
  obtain ⟨m, hm, e, he, hsame, hcalls, _⟩ := hend (by rw [hsuccess]; rfl)
  exact ⟨hbuild, hhastened, r, hr, hsuccess, m, hm, e, he, hsame.trans hsuccess, hcalls⟩

end Tree

end BehaviorTree
