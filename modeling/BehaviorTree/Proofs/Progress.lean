import BehaviorTree.Proofs.Budget
import BehaviorTree.Proofs.Pacing

/-!
# Progress of trees without repeats

A tree in which nothing repeats comes to its end as its leaves do.  Until it is rearmed no node of
it is activated twice, every update that asks for another one has one reason to do so, and a
composite is the reason only so often as it has children to leave behind.

* `Tree.traceAll` — what happens in the course of a run of calls.
* `Node.Counted` — the count of activations grows by no more than the activations in the trace.
  **`Branch.counts_poll`**: a poll counts so.
* **`Shows.cost_traceAll`** — a run without rearming pays out of the budget of the nested tree.
* **`Fresh.paced`** — the account of such a run, for every tree, from whatever state.
-/

namespace BehaviorTree

open Branch

variable {L δ : Type}

/-! ## Counting activations -/

/-- It is the same node, and the count of its activations has grown by no more than the activations
in the trace. -/
structure Node.Counted (trace : Trace) (n n' : Node L) : Prop where
  id : n'.id = n.id
  count : n'.state.activations.toNat ≤ n.state.activations.toNat + trace.count (.start n.id)

namespace Node

variable {n n' n'' : Node L} {s t : Trace}

lemma counted_of_activations (hid : n'.id = n.id)
    (hcount : n'.state.activations = n.state.activations) : Counted t n n' :=
  ⟨hid, by rw [hcount]; exact Nat.le_add_right _ _⟩

lemma counted_refl (t : Trace) (n : Node L) : Counted t n n := counted_of_activations rfl rfl

lemma Counted.trans (h : Counted s n n') (h' : Counted t n' n'') : Counted (s ++ t) n n'' where
  id := h'.id.trans h.id
  count := by
    have hfirst := h.count
    have hsecond := h'.count
    rw [h.id] at hsecond
    rw [List.count_append]
    omega

/-- Nothing is lost by looking at more events. -/
lemma Counted.mono (h : Counted s n n') (hst : s.Sublist t) : Counted t n n' where
  id := h.id
  count := Nat.le_trans h.count (Nat.add_le_add_left (hst.count_le _) _)

variable [Behavior L δ]

lemma counted_begin (n : Node L) (scene : Scene δ) :
    Counted (n.begin scene).2.2 n (n.begin scene).1 := by
  obtain ⟨id, kind, state⟩ := n
  rw [begin]
  split
  · exact counted_refl _ _
  · have hcount := state.toNat_activate
    refine ⟨by cases kind <;> rfl, ?_⟩
    cases kind <;> simp only [activate, List.count_cons_self, hcount] <;> omega

lemma counted_conclude (n : Node L) (status : Status) (scene : Scene δ) (t : Trace) :
    Counted t n (n.conclude status scene).1 := by
  obtain ⟨id, kind, state⟩ := n
  refine counted_of_activations ?_ ?_ <;> rw [conclude] <;> split <;> cases kind <;> rfl

end Node

namespace Branch

/-- The nodes of two branches are counted one by one. -/
abbrev Counts (trace : Trace) (t t' : List (Node L)) : Prop :=
  List.Forall₂ (Node.Counted trace) t t'

lemma Counts.mono {s t : Trace} {ns ns' : List (Node L)} (h : Counts s ns ns')
    (hst : s.Sublist t) : Counts t ns ns' := h.imp fun _ _ hn => hn.mono hst

lemma counts_refl (t : Trace) (ns : List (Node L)) : Counts t ns ns :=
  List.forall₂_same.mpr fun n _ => n.counted_refl t

lemma Counts.trans {s t : Trace} {ns ns' ns'' : List (Node L)} (h : Counts s ns ns')
    (h' : Counts t ns' ns'') : Counts (s ++ t) ns ns'' := by
  induction h generalizing ns'' with
  | nil => cases h'; exact .nil
  | cons hn _ ih =>
      cases h' with
      | cons hn' h' => exact .cons (hn.trans hn') (ih h')

lemma Counts.append {t : Trace} {ns ns' ms ms' : List (Node L)} (h : Counts t ns ns')
    (h' : Counts t ms ms') : Counts t (ns ++ ms) (ns' ++ ms') := List.rel_append h h'

end Branch

section Poll

variable [Behavior L δ] {ts : List (Branch (Node L))}

lemma pollFirst_counts
    (ih : ∀ t ∈ ts, ∀ scene : Scene δ, Counts (t.poll scene).trace t.labels
      (t.poll scene).part.labels) (scene : Scene δ) :
    Counts (pollFirst ts scene).trace (labelsAll ts) (labelsAll (pollFirst ts scene).part) := by
  cases ts with
  | nil => exact .nil
  | cons t ts => exact (ih t List.mem_cons_self scene).append (counts_refl _ _)

lemma Onward.counts {id : NodeId} {kind : CompositeKind} {cascade : Bool} {skip : Nat}
    {scene : Scene δ} {o : Outcome (Nat × List (Branch (Node L))) δ}
    (h : Onward id kind cascade skip ts scene o)
    (ih : ∀ t ∈ ts, ∀ scene : Scene δ, Counts (t.poll scene).trace t.labels
      (t.poll scene).part.labels) :
    Counts o.trace (labelsAll ts) (labelsAll o.part.2) := by
  induction h with
  | exhausted => exact .nil
  | skips _ ihs => exact (counts_refl _ _).append (ihs fun t ht => ih t (List.mem_cons_of_mem _ ht))
  | stops => exact (ih _ List.mem_cons_self _).append (counts_refl _ _)
  | ends => exact (ih _ List.mem_cons_self _).append (counts_refl _ _)
  | @cascades t _ _ scene _ _ _ _ ihs =>
      have hhead := ih t List.mem_cons_self scene
      have htail := ihs fun t ht => ih t (List.mem_cons_of_mem _ ht)
      exact (hhead.mono (List.sublist_append_left _ _)).append
        (htail.mono (List.sublist_append_right _ _))
  | @pauses t _ _ scene =>
      have hhead := ih t List.mem_cons_self scene
      exact (hhead.mono (List.sublist_append_left _ _)).append (counts_refl _ _)

namespace Node

/-- Running a node counts the activations below it. -/
lemma run_counts {n : Node L}
    (ih : ∀ t ∈ ts, ∀ scene : Scene δ, Counts (t.poll scene).trace t.labels
      (t.poll scene).part.labels) (scene : Scene δ) :
    let o := n.run ts (pollFirst ts) (fun kind cascade cursor =>
      Branch.pollFrom n.id kind cascade cursor ts) scene
    Counts o.trace (labelsAll ts) (labelsAll o.part.children) := by
  cases hk : n.kind with
  | root =>
      rw [run_root hk]
      exact pollFirst_counts ih scene
  | composite kind cascade cursor =>
      rw [run_composite hk]
      exact (pollFrom_onward n.id kind cascade cursor ts scene).counts ih
  | decorator rule gate =>
      cases ha : admits rule gate scene.board with
      | true =>
          rw [run_admitted hk ha]
          exact pollFirst_counts ih scene
      | false =>
          rw [run_refused hk ha]
          exact counts_refl _ _
  | leaf l =>
      rw [run_leaf hk]
      exact counts_refl _ _

/-- Clearing nodes leaves their counts as they are. -/
lemma counts_settle {n : Node L} {status : Status} {t : Trace} {ns : List (Node L)}
    (h : Counts t ns (labelsAll ts)) : Counts t ns (labelsAll (n.settle status ts)) := by
  rw [settle]
  split
  · rw [← mapAll_eq_map, labelsAll_mapAll]
    exact List.forall₂_map_right_iff.mpr (h.imp fun _ _ hn => ⟨hn.id, hn.count⟩)
  · exact h

end Node

/-- Running a node leaves its identity and its state as they are. -/
lemma Node.counted_run (n : Node L) (ts : List (Branch (Node L))) (scene : Scene δ) :
    let o := n.run ts (pollFirst ts) (fun kind cascade cursor =>
      Branch.pollFrom n.id kind cascade cursor ts) scene
    Node.Counted [] n o.part.label := by
  intro o
  refine counted_of_activations (id_eq_of_static (static_label_run n ts scene)) ?_
  exact congrArg NodeState.activations (state_runBelow (node n ts) scene)

/-- **A poll counts the activations that it begins**, at every node of the branch. -/
theorem Branch.counts_poll (t : Branch (Node L)) (scene : Scene δ) :
    Counts (t.poll scene).trace t.labels (t.poll scene).part.labels := by
  induction t generalizing scene with
  | node n ts ih =>
      have hran := Node.run_counts (n := (n.begin scene).1) ih (n.begin scene).2.1
      have hlabel := (n.counted_begin scene).trans
        ((n.begin scene).1.counted_run ts (n.begin scene).2.1)
      rw [poll_node, labels, Outcome.conclude, labels]
      refine .cons ((hlabel.trans (Node.counted_conclude _ _ _ [])).mono ?_)
        (Node.counts_settle (hran.mono ?_))
      · simp
      · exact ((List.sublist_append_right _ _).trans (List.sublist_append_left _ _)).trans
          (List.sublist_append_left _ _)

end Poll

/-! ## Runs -/

namespace Reply

/-- What happened in the course of a call. -/
def trace : Reply δ → Trace
  | updated _ _ trace => trace
  | _ => []

/-- An update has returned that it wants another one. -/
def asksAgain : Reply δ → Bool
  | updated status _ _ => status.isRunning
  | _ => false

end Reply

namespace Tree

variable [Behavior L δ] {t : Tree L} {b : Branch (Node L)}

/-- What happens in the course of a run. -/
def traceAll (t : Tree L) (calls : List (Call δ)) : Trace :=
  (t.replies calls).flatMap Reply.trace

/-- How many updates of a run ask for another one. -/
def openUpdates (t : Tree L) (calls : List (Call δ)) : Nat :=
  (t.replies calls).countP Reply.asksAgain

@[simp] lemma traceAll_cons (t : Tree L) (call : Call δ) (calls : List (Call δ)) :
    t.traceAll (call :: calls) =
      (t.reply call).trace ++ (t.perform call).1.traceAll calls := rfl

lemma performAll_cons (t : Tree L) (call : Call δ) (calls : List (Call δ)) :
    (t.performAll (call :: calls)).1 = ((t.perform call).1.performAll calls).1 := rfl

/-- The account of a run in which a tree is not rearmed. -/
structure Paced (t : Tree L) (calls : List (Call δ)) : Prop where
  /-- No node is activated twice. -/
  activated (id : NodeId) : (t.traceAll calls).count (.start id) ≤ 1
  /-- So the count of its activations grows by one at most. -/
  counted {p : Nat} {slot now : Slot (Node L)} : t.arena[p]? = some slot →
    (t.performAll calls).1.arena[p]? = some now →
      now.label.state.activations.toNat ≤ slot.label.state.activations.toNat + 1
  /-- A call has one reason to ask for another update, if it does, and none if it does not. -/
  reasons (r : Reply δ) : r ∈ t.replies calls →
    r.trace.countP Event.isWait + r.trace.countP Event.isAdvance = r.asksAgain.toNat
  /-- The updates that ask for another one are the leaves that were still running, and the children
  that were left to the next update. -/
  openUpdates_eq : t.openUpdates calls =
    (t.traceAll calls).countP Event.isWait + (t.traceAll calls).countP Event.isAdvance
  /-- A composite leaves each of its children but the first to the next update once, if it does not
  cascade, and none if it does. -/
  advances {slot : Slot (Node L)} : slot ∈ t.arena →
    (t.traceAll calls).count (.advance slot.label.id) ≤ slot.label.kind.breaks slot.children.length
  openUpdates_le : t.openUpdates calls ≤ (t.traceAll calls).countP Event.isWait +
    (t.arena.map fun slot => slot.label.kind.breaks slot.children.length).sum

/-- A call other than a rearming does nothing to the nodes, or it polls them. -/
lemma Shows.perform_cases (h : t.Shows b) {call : Call δ} (hcall : call ≠ .rearm) :
    ((t.reply call).trace = [] ∧ (t.reply call).asksAgain = false ∧
      (t.perform call).1.Shows b ∧ ((t.perform call).1.state = .running → t.state = .running)) ∨
    ∃ scene : Scene δ, t.state = .running ∧
      t.reply call = .updated (b.poll scene).status (b.poll scene).scene.driver
        (b.poll scene).trace ∧
      (t.perform call).1.Shows (b.poll scene).part ∧
      (t.perform call).1.state = (b.poll scene).status := by
  cases call with
  | start =>
      refine .inl ?_
      rw [Tree.perform, Tree.reply, Tree.start]
      cases t.board with
      | none => exact ⟨rfl, rfl, ⟨h.arena, h.nodup⟩, id⟩
      | some board => exact ⟨rfl, rfl, h, id⟩
  | update driver =>
      cases hboard : t.board with
      | none =>
          have hupdate : t.update driver = .error .notStarted := by rw [Tree.update, hboard]
          refine .inl ?_
          rw [Tree.perform, Tree.reply, hupdate]
          exact ⟨rfl, rfl, h, id⟩
      | some board =>
          cases hstate : t.state.isTerminal with
          | false =>
              have hrunning := Status.isTerminal_eq_false_iff.mp hstate
              refine .inr ⟨⟨board, driver⟩, hrunning, ?_⟩
              rw [Tree.perform, Tree.reply, h.update hboard hrunning driver]
              exact ⟨rfl, h.of_static (map_static_poll b _) rfl, rfl⟩
          | true =>
              have hopen : t.state.isRunning = false := by
                simpa [Status.isTerminal] using hstate
              refine .inl ?_
              rw [Tree.perform, Tree.reply, update_of_terminal hboard hstate]
              exact ⟨rfl, hopen, h, id⟩
  | halt => exact .inl ⟨rfl, rfl, ⟨h.arena, h.nodup⟩, fun hstate => by cases hstate⟩
  | rearm => exact absurd rfl hcall
  | edit f => exact .inl ⟨rfl, rfl, ⟨h.arena, h.nodup⟩, id⟩

/-- Whether a tree repeats does not change. -/
lemma not_repeats_of_static {c : Branch (Node L)} (h : c.map Node.static = b.map Node.static)
    (hrepeats : ∀ n ∈ b.labels, ¬ n.Repeats) : ∀ n ∈ c.labels, ¬ n.Repeats := by
  intro n hn hrep
  obtain ⟨m, hm, heq⟩ := exists_label_of_static h hn
  exact hrepeats m hm (Node.repeats_of_static heq.symm hrep)

section Run

variable {calls : List (Call δ)}

/-- **A run without rearming pays out of the budget of the nested tree**, and there is nothing to
pay once the tree has come to its end. -/
theorem Shows.cost_traceAll (c : Tariff) (h : t.Shows b) (hrepeats : ∀ n ∈ b.labels, ¬ n.Repeats)
    (hrearm : .rearm ∉ calls) :
    (t.traceAll calls).cost c ≤ if t.state.isRunning then b.budget c else 0 := by
  induction calls generalizing t b with
  | nil => exact Nat.zero_le _
  | cons call calls ih =>
      rw [List.mem_cons, not_or] at hrearm
      rw [traceAll_cons, Trace.cost_append]
      rcases h.perform_cases (Ne.symm hrearm.1) with ⟨htrace, -, hshows, hstate⟩ |
        ⟨scene, hstate, hreply, hshows, hnow⟩
      · have hlater := ih hshows hrepeats hrearm.2
        rw [htrace, Trace.cost_nil, Nat.zero_add]
        refine Nat.le_trans hlater ?_
        by_cases hrunning : (t.perform call).1.state = .running
        · exact Nat.le_of_eq (by rw [hrunning, hstate hrunning])
        · rw [if_neg (Status.isRunning_iff.not.mpr hrunning)]
          exact Nat.zero_le _
      · have hstill := not_repeats_of_static (map_static_poll b scene) hrepeats
        have hlater := ih hshows hstill hrearm.2
        obtain ⟨hpaid, hahead⟩ := b.cost_poll (c := c) hrepeats scene
        rw [hnow] at hlater
        rw [hreply, hstate, Reply.trace]
        show _ ≤ b.budget c
        by_cases hrunning : (b.poll scene).status = .running
        · have hleft := hahead hrunning
          rw [hrunning] at hlater
          change _ ≤ (b.poll scene).part.budget c at hlater
          omega
        · rw [if_neg (Status.isRunning_iff.not.mpr hrunning)] at hlater
          omega

/-- Every call has one reason to ask for another update, if it does, and none if it does not. -/
lemma Shows.reasons_replies (h : t.Shows b) (hrepeats : ∀ n ∈ b.labels, ¬ n.Repeats)
    (hrearm : .rearm ∉ calls) : ∀ r ∈ t.replies calls, r.trace.pauses = r.asksAgain.toNat := by
  induction calls generalizing t b with
  | nil => intro r hr; cases hr
  | cons call calls ih =>
      rw [List.mem_cons, not_or] at hrearm
      rw [Tree.replies, List.forall_mem_cons]
      rcases h.perform_cases (Ne.symm hrearm.1) with ⟨htrace, hasks, hshows, -⟩ |
        ⟨scene, -, hreply, hshows, -⟩
      · refine ⟨?_, ih hshows hrepeats hrearm.2⟩
        rw [htrace, hasks]
        rfl
      · have hstill := not_repeats_of_static (map_static_poll b scene) hrepeats
        refine ⟨?_, ih hshows hstill hrearm.2⟩
        rw [hreply]
        exact b.pauses_poll hrepeats scene

/-- A run without rearming counts the activations that it begins. -/
lemma Shows.counts_traceAll (h : t.Shows b) (hrearm : .rearm ∉ calls) :
    ∃ d, (t.performAll calls).1.Shows d ∧ Counts (t.traceAll calls) b.labels d.labels := by
  induction calls generalizing t b with
  | nil => exact ⟨b, h, counts_refl _ _⟩
  | cons call calls ih =>
      rw [List.mem_cons, not_or] at hrearm
      rw [performAll_cons, traceAll_cons]
      rcases h.perform_cases (Ne.symm hrearm.1) with ⟨htrace, -, hshows, -⟩ |
        ⟨scene, -, hreply, hshows, -⟩
      · obtain ⟨d, hd, hcounts⟩ := ih hshows hrearm.2
        exact ⟨d, hd, by rwa [htrace]⟩
      · obtain ⟨d, hd, hcounts⟩ := ih hshows hrearm.2
        refine ⟨d, hd, ?_⟩
        rw [hreply]
        exact (b.counts_poll scene).trans hcounts

end Run

/-! ## The account of a run -/

/-- What a nested tree can be charged for, read off the arena. -/
lemma Shows.fullBudget_eq (h : t.Shows b) (c : Tariff) :
    b.fullBudget c = (t.arena.map fun slot => c.start slot.label.id +
      c.advance slot.label.id * slot.label.kind.breaks slot.children.length).sum := by
  rw [fullBudget, h.arena]
  refine congrArg List.sum (List.ext_getElem? fun k => ?_)
  rw [List.getElem?_map, List.getElem?_map, getElem?_layout, Option.map_map]
  refine congrArg (Option.map · b.parts[k]?) (funext fun s => ?_)
  show _ = c.start s.label.id + c.advance s.label.id * s.label.kind.breaks (roots _ _).length
  rw [length_roots]

/-- What one node is charged for, where no two nodes have the same identity. -/
lemma sum_le_of_nodup {slots : List (Slot (Node L))} {x : NodeId} {f : Slot (Node L) → Nat}
    {m : Nat} (hnodup : (slots.map fun slot => slot.label.id).Nodup)
    (h : ∀ slot ∈ slots, slot.label.id = x → f slot ≤ m) :
    (slots.map fun slot => if slot.label.id = x then f slot else 0).sum ≤ m := by
  induction slots with
  | nil => exact Nat.zero_le _
  | cons slot slots ih =>
      rw [List.map_cons, List.nodup_cons] at hnodup
      rw [List.map_cons, List.sum_cons]
      by_cases hx : slot.label.id = x
      · have hrest : (slots.map fun slot => if slot.label.id = x then f slot else 0) =
            slots.map fun _ => 0 := by
          refine List.map_congr_left fun other hother => if_neg fun heq => hnodup.1 ?_
          exact List.mem_map.mpr ⟨other, hother, heq.trans hx.symm⟩
        rw [if_pos hx, hrest, List.map_const', List.sum_replicate_nat, Nat.mul_zero, Nat.add_zero]
        exact h slot List.mem_cons_self hx
      · rw [if_neg hx, Nat.zero_add]
        exact ih hnodup.2 fun other hother => h other (List.mem_cons_of_mem _ hother)

section Account

variable {calls : List (Call δ)}

/-- A run costs no more than the arena can be charged for. -/
lemma Shows.cost_le_full (c : Tariff) (h : t.Shows b) (hrepeats : ∀ n ∈ b.labels, ¬ n.Repeats)
    (hrearm : .rearm ∉ calls) :
    (t.traceAll calls).cost c ≤ (t.arena.map fun slot => c.start slot.label.id +
      c.advance slot.label.id * slot.label.kind.breaks slot.children.length).sum := by
  have hpaid := h.cost_traceAll c hrepeats hrearm
  rw [← h.fullBudget_eq]
  have hfull := b.budget_le_full (c := c)
  split at hpaid <;> omega

lemma Shows.count_start_le (h : t.Shows b) (hrepeats : ∀ n ∈ b.labels, ¬ n.Repeats)
    (hrearm : .rearm ∉ calls) (x : NodeId) : (t.traceAll calls).count (.start x) ≤ 1 := by
  have hcost := h.cost_le_full ⟨fun y => if y = x then 1 else 0, fun _ => 0⟩ hrepeats hrearm
  rw [Trace.cost_eq_countP (p := (· == .start x))
    fun e => by cases e <;> simp [Tariff.fee]] at hcost
  simp only [Nat.zero_mul, Nat.add_zero] at hcost
  exact Nat.le_trans hcost (sum_le_of_nodup h.nodup_ids fun _ _ _ => Nat.le_refl 1)

lemma Shows.count_advance_le (h : t.Shows b) (hrepeats : ∀ n ∈ b.labels, ¬ n.Repeats)
    (hrearm : .rearm ∉ calls) {slot : Slot (Node L)} (hslot : slot ∈ t.arena) :
    (t.traceAll calls).count (.advance slot.label.id) ≤
      slot.label.kind.breaks slot.children.length := by
  have hcost := h.cost_le_full ⟨fun _ => 0, fun y => if y = slot.label.id then 1 else 0⟩
    hrepeats hrearm
  rw [Trace.cost_eq_countP (p := (· == .advance slot.label.id))
    fun e => by cases e <;> simp [Tariff.fee]] at hcost
  have hprice : ∀ k : Nat, ∀ z : NodeId,
      (if z = slot.label.id then 1 else 0) * k = if z = slot.label.id then k else 0 := by
    intro k z
    split
    · exact Nat.one_mul k
    · exact Nat.zero_mul k
  simp only [Nat.zero_add, hprice] at hcost
  refine Nat.le_trans hcost (sum_le_of_nodup h.nodup_ids fun other hother hid => ?_)
  obtain rfl := List.inj_on_of_nodup_map h.nodup_ids hother hslot hid
  exact Nat.le_refl _

lemma Shows.countP_isAdvance_le (h : t.Shows b) (hrepeats : ∀ n ∈ b.labels, ¬ n.Repeats)
    (hrearm : .rearm ∉ calls) : (t.traceAll calls).countP Event.isAdvance ≤
      (t.arena.map fun slot => slot.label.kind.breaks slot.children.length).sum := by
  have hcost := h.cost_le_full ⟨fun _ => 0, fun _ => 1⟩ hrepeats hrearm
  rw [Trace.cost_eq_countP (p := Event.isAdvance) fun e => by cases e <;> rfl] at hcost
  simpa only [Nat.zero_add, Nat.one_mul] using hcost

/-- The reasons of the calls add up. -/
lemma openUpdates_eq_pauses (h : ∀ r ∈ t.replies calls, r.trace.pauses = r.asksAgain.toNat) :
    t.openUpdates calls = (t.traceAll calls).pauses := by
  rw [openUpdates, traceAll]
  revert h
  generalize t.replies calls = rs
  intro h
  induction rs with
  | nil => rfl
  | cons r rs ih =>
      rw [List.forall_mem_cons] at h
      rw [List.countP_cons, List.flatMap_cons, Trace.pauses_append, h.1, ih h.2]
      cases r.asksAgain <;> simp [Nat.add_comm]

end Account

/-- **The account of a tree in which nothing repeats**: in whatever state a run has left it, and as
long as it is not rearmed. -/
theorem Fresh.paced (h : t.Fresh) (hrepeats : ∀ slot ∈ t.arena, ¬ slot.label.Repeats)
    (before : List (Call δ)) {calls : List (Call δ)} (hrearm : .rearm ∉ calls) :
    (t.performAll before).1.Paced calls := by
  obtain ⟨b₀, hb₀⟩ := h.pristine
  obtain ⟨b, hb, hsteps⟩ := hb₀.toShows.performAll before
  have hnone : ∀ n ∈ b.labels, ¬ n.Repeats := by
    refine not_repeats_of_static hsteps.map_static fun n hn => ?_
    obtain ⟨slot, hslot, rfl⟩ := hb₀.exists_of_label hn
    exact hrepeats slot hslot
  have hreasons := hb.reasons_replies hnone hrearm
  have hopen := openUpdates_eq_pauses hreasons
  have hadvances := hb.countP_isAdvance_le hnone hrearm
  rw [Trace.pauses_eq] at hopen
  refine ⟨hb.count_start_le hnone hrearm, ?_, ?_, hopen, hb.count_advance_le hnone hrearm, ?_⟩
  · intro p slot now hslot hnow
    obtain ⟨d, hd, hcounts⟩ := hb.counts_traceAll hrearm
    have hn : b.labels[p]? = some slot.label := by
      rw [← hb.map_label, List.getElem?_map, hslot, Option.map_some]
    have hm : d.labels[p]? = some now.label := by
      rw [← hd.map_label, List.getElem?_map, hnow, Option.map_some]
    rw [List.getElem?_eq_some_iff] at hn hm
    obtain ⟨hp, hn⟩ := hn
    obtain ⟨hp', hm⟩ := hm
    have hcounted := (hcounts.get hp hp').count
    rw [List.get_eq_getElem, List.get_eq_getElem, hn, hm] at hcounted
    have hone := hb.count_start_le hnone hrearm slot.label.id
    omega
  · intro r hr
    rw [← Trace.pauses_eq]
    exact hreasons r hr
  · rw [hopen]
    exact Nat.add_le_add_left hadvances _

/-- A sequence that leaves a running leaf to its second update, rearmed in mid-course. -/
theorem paced_sequence :
    let t : Tree Constant := ofBranch (.node (.fresh ⟨0⟩ .root)
      [.node (.fresh ⟨1⟩ (.composite .sequence false 0))
        [.node (.fresh ⟨2⟩ (.leaf .succeed)) [], .node (.fresh ⟨3⟩ (.leaf .running)) []]])
    let before : List (Call Unit) := [.start, .update (), .update (), .rearm]
    let calls : List (Call Unit) :=
      [.update (), .edit fun b => b.set "k" (.bool true), .update (), .update (), .halt, .update ()]
    let rearmed := (t.performAll before).1
    Tree.build .standard (some (.composite none .sequence (some false)
        [.leaf none Constant.succeed, .leaf none .running])) = .ok t ∧
      (∀ slot ∈ t.arena, ¬ slot.label.Repeats) ∧ .rearm ∉ calls ∧
      rearmed.openUpdates calls = 3 ∧ (rearmed.traceAll calls).countP Event.isWait = 2 ∧
      rearmed.Paced calls := by
  intro t before calls rearmed
  have hbuild : Tree.build .standard (some (.composite none .sequence (some false)
      [.leaf none Constant.succeed, .leaf none .running])) = .ok t := rfl
  have hrepeats : ∀ slot ∈ t.arena, ¬ slot.label.Repeats := by
    simp [t, ofBranch, layout, layoutAll, Node.Repeats, Node.fresh]
  have hrearm : .rearm ∉ calls := by simp [calls]
  exact ⟨hbuild, hrepeats, hrearm, by decide +kernel, by decide +kernel,
    (Fresh.built .standard _ hbuild).paced hrepeats before hrearm⟩

end Tree

end BehaviorTree
