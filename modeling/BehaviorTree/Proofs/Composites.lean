import BehaviorTree.Proofs.Rounds
import BehaviorTree.Proofs.Visits

/-!
# How a composite goes through its children

What a trace shows of some nodes is where their polls and their activations begin and end
(`Trace.bounds`).  For a composite and its children this is what `BehaviorTree.Proofs.Rounds` gives
an account of, and here the engine is brought to it.

* **`bounds_poll`** — of the polled node alone a poll shows that it is entered, that it may start,
  and that it ends.  **`started_poll`**: afterwards an activation is under way exactly if the poll
  ended as running.
* **`Onward.course`** — polling children from the cursor on carries an activation of the composite
  on, or brings it to its end.
* `Trace.count` — the children that are left behind, counted along a trace.  **`Onward.count`**: the
  cursor moves with the count.
-/

namespace BehaviorTree

open Branch

variable {L δ : Type}

/-! ## What a log shows of a family of nodes -/

/-- Whether the event is the beginning or the end of a poll, or the start of an activation. -/
def Event.isBound : Event → Bool
  | enter _ => true
  | start _ => true
  | leave _ _ => true
  | _ => false

/-- Where the polls and the activations of the given nodes begin and end. -/
def Trace.bounds (ids : List NodeId) (trace : Trace) : Trace :=
  trace.filter fun e => e.isBound && e.node?.any fun id => decide (id ∈ ids)

/-- The event that a moment is, if it is one. -/
def Moment.event? : Moment → Option Event
  | event e => some e
  | rearm => none

/-- Where the polls and the activations of the given nodes begin and end in the course of a run. -/
def boundsOf (ids : List NodeId) (log : List Moment) : Trace :=
  Trace.bounds ids (log.filterMap Moment.event?)

namespace Trace

variable {ids : List NodeId} {trace s t : Trace}

@[simp] lemma bounds_append (ids : List NodeId) (s t : Trace) :
    bounds ids (s ++ t) = bounds ids s ++ bounds ids t := List.filter_append _ _

lemma bounds_cons (ids : List NodeId) (e : Event) (t : Trace) :
    bounds ids (e :: t) = bounds ids [e] ++ bounds ids t := bounds_append ids [e] t

lemma bounds_of_silent (h : trace.Silent ids) : trace.bounds ids = [] := by
  refine List.filter_eq_nil_iff.mpr fun e he hbound => ?_
  rw [Bool.and_eq_true, Option.any_eq_true] at hbound
  obtain ⟨-, id, hid, hmem⟩ := hbound
  exact h e he id (of_decide_eq_true hmem) hid

lemma bounds_enter {id : NodeId} (hid : id ∈ ids) : bounds ids [.enter id] = [.enter id] := by
  simp [bounds, Event.isBound, Event.node?, hid]

lemma bounds_start {id : NodeId} (hid : id ∈ ids) : bounds ids [.start id] = [.start id] := by
  simp [bounds, Event.isBound, Event.node?, hid]

lemma bounds_leave {id : NodeId} (hid : id ∈ ids) (status : Status) :
    bounds ids [.leave id status] = [.leave id status] := by
  simp [bounds, Event.isBound, Event.node?, hid]

/-- The bounds with which the poll of a node begins. -/
lemma bounds_begun {id : NodeId} (hid : id ∈ ids) (started : Bool) :
    bounds ids (.enter id :: if started then [] else [.start id]) =
      .enter id :: if started then [] else [.start id] := by
  rw [bounds_cons, bounds_enter hid]
  cases started with
  | true => rfl
  | false => exact congrArg (.enter id :: ·) (bounds_start hid)

@[simp] lemma bounds_hook (ids : List NodeId) (id : NodeId) (call : HookCall) :
    bounds ids [.hook id call] = [] := rfl

@[simp] lemma bounds_advance (ids : List NodeId) (id : NodeId) : bounds ids [.advance id] = [] :=
  rfl

end Trace

section Bounds

variable [Behavior L δ] {ids : List NodeId} {n : Node L} {ts : List (Branch (Node L))}

lemma bounds_begin (hid : n.id ∈ ids) (scene : Scene δ) :
    (n.begin scene).2.2.bounds ids = if n.state.started then [] else [.start n.id] := by
  obtain ⟨id, kind, state⟩ := n
  have hstart := Trace.bounds_start hid
  rw [Node.begin]
  split
  · rfl
  · cases kind with
    | leaf l =>
        refine (Trace.bounds_cons ids _ _).trans ?_
        rw [hstart, Trace.bounds_hook, List.append_nil]
    | _ => exact hstart

lemma bounds_conclude (n : Node L) (status : Status) (scene : Scene δ) :
    (n.conclude status scene).2.2.bounds ids = [] := by
  rcases n.trace_conclude status scene with h | ⟨-, h⟩ <;> rw [h]
  · rfl
  · exact Trace.bounds_hook _ _ _

lemma Onward.bounds_eq_nil {id : NodeId} {kind : CompositeKind} {cascade : Bool} {skip : Nat}
    {scene : Scene δ} {o : Outcome (Nat × List (Branch (Node L))) δ}
    (h : Onward id kind cascade skip ts scene o) (hids : ∀ x ∈ idsAll ts, x ∉ ids) :
    o.trace.bounds ids = [] := by
  have hpoll : ∀ t ∈ ts, ∀ scene : Scene δ, (t.poll scene).trace.bounds ids = [] :=
    fun t ht scene => Trace.bounds_of_silent ((t.within_poll scene).silent
      fun x hx hmem => hids x (mem_idsAll ht hmem) hx)
  clear hids
  induction h with
  | exhausted => rfl
  | skips _ ih => exact ih fun t ht => hpoll t (List.mem_cons_of_mem _ ht)
  | stops => exact hpoll _ List.mem_cons_self _
  | ends => exact hpoll _ List.mem_cons_self _
  | cascades _ _ _ ih =>
      rw [Outcome.trace_after, Outcome.trace_map, Trace.bounds_append,
        hpoll _ List.mem_cons_self, ih fun t ht => hpoll t (List.mem_cons_of_mem _ ht)]
      rfl
  | pauses =>
      rw [Trace.bounds_append, hpoll _ List.mem_cons_self, Trace.bounds_advance]
      rfl

/-- Running a node shows nothing of it but what it shows of its children. -/
lemma bounds_runBelow (hids : ∀ x ∈ idsAll ts, x ∉ ids) (scene : Scene δ) :
    (runBelow (node n ts) scene).trace.bounds ids = [] := by
  have hfirst : (pollFirst ts scene).trace.bounds ids = [] := by
    cases ts with
    | nil => rfl
    | cons t ts =>
        exact Trace.bounds_of_silent ((t.within_poll scene).silent
          fun x hx hmem => hids x (mem_idsAll List.mem_cons_self hmem) hx)
  rw [runBelow]
  cases hk : n.kind with
  | root =>
      rw [Node.run_root hk]
      exact hfirst
  | composite kind cascade cursor =>
      rw [Node.run_composite hk]
      exact (pollFrom_onward n.id kind cascade cursor ts scene).bounds_eq_nil hids
  | decorator rule gate =>
      cases ha : Node.admits rule gate scene.board with
      | true =>
          rw [Node.run_admitted hk ha]
          exact hfirst
      | false =>
          rw [Node.run_refused hk ha]
          rfl
  | leaf l =>
      rw [Node.run_leaf hk]
      rfl

lemma status_poll (n : Node L) (ts : List (Branch (Node L))) (scene : Scene δ) :
    ((node n ts).poll scene).status =
      (runBelow (node (n.begin scene).1 ts) (n.begin scene).2.1).status := rfl

/-- What a poll shows of the node itself and of other nodes around it. -/
lemma bounds_poll_node (hid : n.id ∈ ids) (scene : Scene δ) :
    ((node n ts).poll scene).trace.bounds ids =
      .enter n.id :: (if n.state.started then [] else [.start n.id]) ++
        (runBelow (node (n.begin scene).1 ts) (n.begin scene).2.1).trace.bounds ids ++
        [.leave n.id ((node n ts).poll scene).status] := by
  rw [status_poll, poll_eq_conclude, Outcome.conclude, Node.id_begin]
  simp only [List.cons_append, List.append_assoc]
  rw [Trace.bounds_cons, Trace.bounds_enter hid]
  simp only [Trace.bounds_append, bounds_begin hid, bounds_conclude, Trace.bounds_leave hid,
    List.nil_append, List.cons_append]

/-- What a poll shows of a node, if nothing below it is looked at. -/
lemma bounds_poll {t : Branch (Node L)} (hid : t.label.id ∈ ids)
    (hids : ∀ x ∈ idsAll t.children, x ∉ ids) (scene : Scene δ) (round index : Nat) :
    (t.poll scene).trace.bounds ids =
      ChildPoll.events
        ⟨round, index, t.label.id, !t.label.state.started, (t.poll scene).status⟩ := by
  obtain ⟨n, ts⟩ := t
  rw [label_node] at hid
  rw [children_node] at hids
  rw [bounds_poll_node hid, bounds_runBelow hids, ChildPoll.events]
  cases hs : n.state.started <;> simp [hs]

/-- After a poll an activation is under way exactly if the node asks for another poll. -/
lemma started_poll (t : Branch (Node L)) (scene : Scene δ) :
    (t.poll scene).part.label.state.started = (t.poll scene).status.isRunning := by
  obtain ⟨n, ts⟩ := t
  have hstate := state_runBelow (node (n.begin scene).1 ts) (n.begin scene).2.1
  have hstarted := n.started_begin scene
  rw [label_node] at hstate
  rw [status_poll, poll_eq_conclude, Outcome.conclude]
  simp only [label_node]
  rw [Node.state_conclude, hstate]
  cases hs : (runBelow (node (n.begin scene).1 ts) (n.begin scene).2.1).status with
  | running => exact hstarted
  | success => rfl
  | failure => rfl

end Bounds

/-! ## Polling children in the course of an activation -/

/-- The child in turn is started exactly if it has begun, and no other child is. -/
def OnlyStarted (place : Nat) (begun : Bool) (ts : List (Branch (Node L))) : Prop :=
  ∀ k t, ts[k]? = some t → (t.label.state.started = true ↔ k = place ∧ begun = true)

section OnlyStarted

variable {t : Branch (Node L)} {ts : List (Branch (Node L))} {place : Nat} {begun : Bool}

lemma onlyStarted_cons_succ :
    OnlyStarted (place + 1) begun (t :: ts) ↔
      t.label.state.started = false ∧ OnlyStarted place begun ts := by
  constructor
  · intro h
    have hhead := h 0 t rfl
    exact ⟨by simpa using hhead, fun k u hu => by simpa using h (k + 1) u hu⟩
  · rintro ⟨ht, h⟩ k u hu
    cases k with
    | zero =>
        obtain rfl : t = u := by simpa using hu
        simp [ht]
    | succ k => simpa using h k u hu

lemma onlyStarted_cons_zero :
    OnlyStarted 0 begun (t :: ts) ↔ t.label.state.started = begun ∧ OnlyStarted 0 false ts := by
  constructor
  · intro h
    have hhead := h 0 t rfl
    refine ⟨Bool.eq_iff_iff.mpr (by simpa using hhead), fun k u hu => ?_⟩
    simpa using h (k + 1) u hu
  · rintro ⟨rfl, h⟩ k u hu
    cases k with
    | zero =>
        obtain rfl : t = u := by simpa using hu
        simp
    | succ k => simpa using h k u hu

end OnlyStarted

section Onward

variable [Behavior L δ] {ids : List NodeId} {id : NodeId} {kind : CompositeKind} {cascade : Bool}
  {skip : Nat} {ts : List (Branch (Node L))} {scene : Scene δ}
  {o : Outcome (Nat × List (Branch (Node L))) δ}

/-- Every poll of a child shows the child and nothing below it. -/
def ShowsChildren (δ : Type) [Behavior L δ] (ids : List NodeId) (ts : List (Branch (Node L))) :
    Prop :=
  ∀ t ∈ ts, ∀ (scene : Scene δ) (round index : Nat),
    (t.poll scene).trace.bounds ids = ChildPoll.events
      ⟨round, index, t.label.id, !t.label.state.started, (t.poll scene).status⟩

lemma eq_opposite {s : Status} (hrunning : s ≠ .running) (hadvances : s ≠ kind.advancesOn) :
    s = kind.opposite := by
  revert hrunning hadvances
  cases kind <;> cases s <;> decide

/-- The first of the remaining children is the child in turn. -/
lemma drop_of_children {children : List NodeId} {base : Nat} {t : Branch (Node L)}
    (h : children.drop base = (t :: ts).map fun t => t.label.id) :
    children[base]? = some t.label.id ∧ children.drop (base + 1) = (ts.map fun t => t.label.id) ∧
      children.length = base + 1 + ts.length := by
  rw [List.map_cons] at h
  have hlen := congrArg List.length h
  rw [List.length_drop, List.length_cons, List.length_map] at hlen
  refine ⟨?_, ?_, by omega⟩
  · have hhead := congrArg (·[0]?) h
    simpa using hhead
  · rw [← List.drop_drop, h, List.drop_succ_cons, List.drop_zero]

/-- What the poll of the child in turn shows. -/
lemma ShowsChildren.head {t : Branch (Node L)} (h : ShowsChildren δ ids (t :: ts)) {c : Course}
    (hbegun : t.label.state.started = c.begun) (scene : Scene δ) :
    (t.poll scene).trace.bounds ids = (c.poll t.label.id (t.poll scene).status).events := by
  rw [h t List.mem_cons_self scene c.round c.next, hbegun]
  rfl

lemma ShowsChildren.tail {t : Branch (Node L)} (h : ShowsChildren δ ids (t :: ts)) :
    ShowsChildren δ ids ts := fun u hu => h u (List.mem_cons_of_mem _ hu)

/-- **Polling children from the cursor on carries an activation on**: it is under way as before, and
the poll of the composite ends as running, or it comes to its end. -/
lemma Onward.course (h : Onward id kind cascade skip ts scene o) {children : List NodeId}
    (hshows : ShowsChildren δ ids ts) {c : Course} {base : Nat}
    (hc : c.Possible id kind cascade children) (hopen : c.paused = false)
    (hnext : c.next = base + skip)
    (hchildren : children.drop base = ts.map fun t => t.label.id)
    (hstarted : OnlyStarted skip c.begun ts) :
    (o.status = .running ∧ ∃ c' : Course, c'.Possible id kind cascade children ∧
      c'.paused = true ∧ c'.trace = c.trace ++ o.trace.bounds ids ++ [.leave id .running] ∧
      c'.next = base + (skip + o.part.1) ∧ OnlyStarted (skip + o.part.1) c'.begun o.part.2) ∨
    ∃ polls, Concluded id kind cascade children (c.trace ++ o.trace.bounds ids) polls o.status := by
  induction h generalizing c base with
  | exhausted skip scene =>
      -- the child in turn is there, unless there are no children at all
      have hle : children.length ≤ base := List.drop_eq_nil_iff.mp hchildren
      rcases hc.sound.within with rfl | hlt
      · have hnone : children = [] := by
          have hzero : base = 0 := by
            have : 0 = base + skip := hnext
            omega
          exact List.length_eq_zero_iff.mp (by omega)
        exact .inr ⟨[], .empty hnone⟩
      · omega
  | @skips skip t ts scene o _ ih =>
      obtain ⟨-, hrest, -⟩ := drop_of_children hchildren
      obtain ⟨hidle, hstarted⟩ := onlyStarted_cons_succ.mp hstarted
      rcases ih hshows.tail hc hopen (by omega) hrest hstarted with
        ⟨hrunning, c', hc', hpaused, htrace, hnext', hstarted'⟩ | hended
      · refine .inl ⟨hrunning, c', hc', hpaused, htrace, ?_, ?_⟩
        · rw [hnext', Outcome.part_map]
          omega
        · rw [Outcome.part_map, Nat.add_right_comm]
          exact onlyStarted_cons_succ.mpr ⟨hidle, hstarted'⟩
      · exact .inr hended
  | @stops t ts scene hs =>
      obtain ⟨hid, -, -⟩ := drop_of_children hchildren
      obtain ⟨hbegun, hothers⟩ := onlyStarted_cons_zero.mp hstarted
      have hevents := hshows.head hbegun scene
      obtain rfl : c.next = base := hnext
      rw [Outcome.status_map, Outcome.trace_map, Outcome.part_map, hevents]
      by_cases hrunning : (t.poll scene).status = .running
      · refine .inl ⟨hrunning, c.wait id t.label.id, .waits hc hopen hid, rfl, ?_, rfl, ?_⟩
        · rw [hrunning]
          rfl
        · refine onlyStarted_cons_zero.mpr ⟨?_, hothers⟩
          rw [started_poll, hrunning]
          rfl
      · rw [eq_opposite hrunning hs]
        exact .inr ⟨_, .stops hc hopen hid⟩
  | @ends t scene hs =>
      obtain ⟨hid, -, hlen⟩ := drop_of_children hchildren
      obtain ⟨hbegun, -⟩ := onlyStarted_cons_zero.mp hstarted
      have hevents := hshows.head hbegun scene
      obtain rfl : c.next = base := hnext
      rw [Outcome.status_map, Outcome.trace_map, hevents, hs]
      exact .inr ⟨_, .ends hc hopen hid hlen.symm⟩
  | @cascades t u us scene o hs hcascade _ ih =>
      obtain ⟨hid, hrest, hlen⟩ := drop_of_children hchildren
      obtain ⟨hbegun, hothers⟩ := onlyStarted_cons_zero.mp hstarted
      have hevents := hshows.head hbegun scene
      obtain rfl : c.next = base := hnext
      subst hcascade
      rw [hs] at hevents
      have hpassed : (c.pass id t.label.id kind true).trace =
          c.trace ++ (t.poll scene).trace.bounds ids := by
        rw [hevents]
        exact List.append_nil _
      have hlt : c.next + 1 < children.length := by
        rw [hlen, List.length_cons]
        omega
      rw [Outcome.status_after, Outcome.status_map, Outcome.trace_after, Outcome.trace_map,
        Outcome.part_after, Outcome.part_map, Trace.bounds_append, ← List.append_assoc, ← hpassed]
      rcases ih hshows.tail (.passes hc hopen hid hlt) rfl rfl hrest hothers with
        ⟨hrunning, c', hc', hpaused, htrace, hnext', hstarted'⟩ | hended
      · refine .inl ⟨hrunning, c', hc', hpaused, htrace, ?_, ?_⟩
        · rw [hnext']
          omega
        · rw [← Nat.add_assoc]
          refine onlyStarted_cons_succ.mpr ⟨?_, hstarted'⟩
          rw [started_poll, hs]
          cases kind <;> rfl
      · exact .inr hended
  | @pauses t u us scene hs hcascade =>
      obtain ⟨hid, -, hlen⟩ := drop_of_children hchildren
      obtain ⟨hbegun, hothers⟩ := onlyStarted_cons_zero.mp hstarted
      have hevents := hshows.head hbegun scene
      obtain rfl : c.next = base := hnext
      subst hcascade
      rw [hs] at hevents
      have hlt : c.next + 1 < children.length := by
        rw [hlen, List.length_cons]
        omega
      refine .inl ⟨rfl, c.pass id t.label.id kind false, .passes hc hopen hid hlt, rfl, ?_, rfl, ?_⟩
      · rw [Trace.bounds_append, Trace.bounds_advance, List.append_nil, hevents]
        rfl
      · refine onlyStarted_cons_succ.mpr ⟨?_, hothers⟩
        rw [started_poll, hs]
        cases kind <;> rfl

end Onward

/-! ## Counting the children that have been left behind -/

/-- The count goes on by one when a child ends with the outcome on which the composite advances.  It
begins anew with each activation, and when the tree is rearmed. -/
def Moment.count (x : NodeId) (kind : CompositeKind) (children : List NodeId) (count : Nat) :
    Moment → Nat
  | .rearm => 0
  | .event (.start id) => if id = x then 0 else count
  | .event (.leave id status) =>
    if id ∈ children ∧ status = kind.advancesOn then count + 1 else count
  | .event _ => count

/-- How many children of a composite have ended with the outcome on which it advances, in the course
of its latest activation. -/
def advanced (x : NodeId) (kind : CompositeKind) (children : List NodeId) (log : List Moment) :
    Nat :=
  log.foldl (Moment.count x kind children) 0

/-- The same count, over events alone and from a given number on. -/
def Trace.count (x : NodeId) (kind : CompositeKind) (children : List NodeId) (count : Nat)
    (trace : Trace) : Nat :=
  trace.foldl (fun k e => Moment.count x kind children k (.event e)) count

section Count

variable {x : NodeId} {kind : CompositeKind} {children : List NodeId}

lemma advanced_events (log : List Moment) (trace : Trace) :
    advanced x kind children (log ++ trace.map .event) =
      trace.count x kind children (advanced x kind children log) := by
  rw [advanced, List.foldl_append, List.foldl_map]
  rfl

lemma Trace.count_append (k : Nat) (s t : Trace) :
    Trace.count x kind children k (s ++ t) =
      Trace.count x kind children (Trace.count x kind children k s) t := List.foldl_append

/-- Only the bounds of the composite and of its children count. -/
lemma Trace.count_bounds (k : Nat) (trace : Trace) :
    (trace.bounds (x :: children)).count x kind children k = trace.count x kind children k := by
  rw [Trace.count, Trace.bounds, List.foldl_filter, Trace.count]
  congr 1
  funext k e
  cases e with
  | start id =>
      by_cases hid : id = x
      · simp [Event.isBound, Event.node?, hid]
      · simp [Event.isBound, Event.node?, Moment.count, hid]
  | leave id status =>
      by_cases hid : id ∈ children
      · simp [Event.isBound, Event.node?, hid]
      · simp [Event.isBound, Event.node?, Moment.count, hid]
  | _ => simp [Moment.count]

lemma Trace.count_of_forall {trace : Trace}
    (h : ∀ e ∈ trace, ∀ k, Moment.count x kind children k (.event e) = k) (k : Nat) :
    trace.count x kind children k = k := by
  induction trace with
  | nil => rfl
  | cons e trace ih =>
      rw [Trace.count, List.foldl_cons, h e List.mem_cons_self]
      exact ih fun e he => h e (List.mem_cons_of_mem _ he)

/-- A poll of a child counts if it ends as the composite advances. -/
lemma ChildPoll.count_events {p : ChildPoll} (hmem : p.id ∈ children) (hx : x ∉ children)
    (k : Nat) :
    p.events.count x kind children k = if p.status = kind.advancesOn then k + 1 else k := by
  have hne : p.id ≠ x := fun heq => hx (heq ▸ hmem)
  rw [events]
  cases p.begins <;> simp [Trace.count, Moment.count, hmem, hne]

end Count

section Onward

variable [Behavior L δ] {x id : NodeId} {kind : CompositeKind} {cascade : Bool} {skip : Nat}
  {ts : List (Branch (Node L))} {scene : Scene δ} {children : List NodeId}

lemma count_poll (kind : CompositeKind) {t : Branch (Node L)}
    (h : ShowsChildren δ (x :: children) (t :: ts))
    (hx : x ∉ children) (hmem : t.label.id ∈ children) (scene : Scene δ) (k : Nat) :
    (t.poll scene).trace.count x kind children k =
      if (t.poll scene).status = kind.advancesOn then k + 1 else k := by
  rw [← Trace.count_bounds, h t List.mem_cons_self scene 0 0]
  exact ChildPoll.count_events hmem hx k

/-- **The cursor moves with the count** while children are polled. -/
lemma Onward.count {o : Outcome (Nat × List (Branch (Node L))) δ}
    (h : Onward id kind cascade skip ts scene o) (hshows : ShowsChildren δ (x :: children) ts)
    (hx : x ∉ children) (hmem : ∀ t ∈ ts, t.label.id ∈ children) (k : Nat) :
    o.trace.count x kind children k = k + o.part.1 := by
  induction h generalizing k with
  | exhausted => rfl
  | skips _ ih => exact ih hshows.tail (fun u hu => hmem u (List.mem_cons_of_mem _ hu)) k
  | stops hs =>
      have hone := count_poll kind hshows hx (hmem _ List.mem_cons_self)
      rw [Outcome.trace_map, hone, if_neg hs]
      rfl
  | ends hs =>
      have hone := count_poll kind hshows hx (hmem _ List.mem_cons_self)
      rw [Outcome.trace_map, hone, if_pos hs]
      rfl
  | @cascades t u us scene o hs _ _ ih =>
      have hone := count_poll kind hshows hx (hmem _ List.mem_cons_self)
      have hrest := ih hshows.tail (fun u hu => hmem u (List.mem_cons_of_mem _ hu)) (k + 1)
      rw [Outcome.trace_after, Outcome.trace_map, Trace.count_append, hone, if_pos hs, hrest,
        Outcome.part_after, Outcome.part_map]
      omega
  | pauses hs =>
      have hone := count_poll kind hshows hx (hmem _ List.mem_cons_self)
      rw [Trace.count_append, hone, if_pos hs]
      rfl

/-- The cursor has moved with the count when the turn of a child comes. -/
lemma Turns.count {turn : Turn L δ} (h : Turns kind cascade skip ts scene turn)
    (hshows : ShowsChildren δ (x :: children) ts) (hx : x ∉ children)
    (hmem : ∀ t ∈ ts, t.label.id ∈ children) (k : Nat) :
    turn.early.count x kind children k = k + turn.moves := by
  induction h generalizing k with
  | here => rfl
  | skips _ ih => exact ih hshows.tail (fun u hu => hmem u (List.mem_cons_of_mem _ hu)) k
  | onward hs _ _ ih =>
      have hone := count_poll kind hshows hx (hmem _ List.mem_cons_self)
      have hrest := ih hshows.tail (fun u hu => hmem u (List.mem_cons_of_mem _ hu)) (k + 1)
      rw [Trace.count_append, hone, if_pos hs, hrest, Nat.add_assoc, Nat.add_comm 1]

end Onward

/-! ## The poll of a composite -/

section Composite

variable [Behavior L δ]

/-- A composite begins with its first child, unless an activation is under way. -/
lemma begin_composite (id : NodeId) (kind : CompositeKind) (cascade : Bool) (cursor : Nat)
    (state : NodeState) (scene : Scene δ) :
    (⟨id, .composite kind cascade cursor, state⟩ : Node L).begin scene =
      (⟨id, .composite kind cascade (if state.started then cursor else 0),
        if state.started then state else state.activate⟩, scene,
        if state.started then [] else [.start id]) := by
  rw [Node.begin]
  cases hs : state.started <;> simp [Node.activate]

/-- The poll of a composite polls its children from the one in turn on. -/
lemma poll_composite (id : NodeId) (kind : CompositeKind) (cascade : Bool) (cursor : Nat)
    (state : NodeState) (ts : List (Branch (Node L))) (scene : Scene δ) :
    ∃ o state', Onward id kind cascade (if state.started then cursor else 0) ts scene o ∧
      (node ⟨id, .composite kind cascade cursor, state⟩ ts).poll scene =
        ⟨o.status, node ⟨id, .composite kind cascade
            ((if state.started then cursor else 0) + o.part.1), state'⟩ o.part.2, o.scene,
          .enter id :: (if state.started then [] else [.start id]) ++ o.trace ++
            [.leave id o.status]⟩ := by
  have honward := pollFrom_onward (δ := δ) id kind cascade (if state.started then cursor else 0) ts
    scene
  rw [poll_eq_conclude, begin_composite, runBelow, Node.run_composite rfl]
  generalize Branch.pollFrom id kind cascade (if state.started then cursor else 0) ts scene = o at *
  obtain ⟨status, ⟨moves, us⟩, scene', trace⟩ := o
  rw [Outcome.conclude, Node.conclude]
  cases hs : status.isTerminal with
  | true =>
      refine ⟨_, ((if state.started then state else state.activate).record status).finish,
        honward, ?_⟩
      simp [hs, Node.settle, Node.clearsOn]
  | false =>
      refine ⟨_, (if state.started then state else state.activate).record status, honward, ?_⟩
      simp [hs, Node.settle, Node.clearsOn]

end Composite

end BehaviorTree
