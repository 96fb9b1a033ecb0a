import BehaviorTree.Proofs.Activations

/-!
# What a failed reset clears

The poll of a node ends with recording its result.  If the node is a reset and has failed, every
node below it is cleared then, one position after the other, and that is all.

* `Visit.ran`, `Visit.recorded` and `Visit.ended` — the end of a poll, in three steps: the node has
  run, its result has been recorded, and the nodes below have been cleared.
* **`Arena.getElem?_clearBelow`** — clearing reaches every position below and no other.
* `StartsAnew` — the next time a node is polled, an activation of it begins.
  **`Steps.startsAnew`**: so it is for every idle node.
* **`Fresh.reset_clears`** — the poll of a reset in the course of an update, and what is left of it
  afterwards (`Tree.ResetPoll`).
-/

namespace BehaviorTree

open Branch

variable {L δ : Type}

/-! ## The specification -/

/-- The slot with its node back at idle. -/
def Slot.cleared (slot : Slot (Node L)) : Slot (Node L) := { slot with label := slot.label.clear }

namespace Visit

variable [Behavior L δ]

/-- The visited node has run, and everything that it polls has been polled. -/
def ran (v : Visit L δ) : Polled L δ :=
  run (pollBelow v.world.arena.length v.position) v.position
    (v.world.activate v.position v.branch.label).1

/-- The arena once the result has been recorded at the node. -/
def recorded (v : Visit L δ) : Arena L :=
  v.ran.world.arena.relabel v.position fun n => (n.conclude v.ran.status v.ran.world.scene).1

/-- The world once the poll has ended, and what happened at its end. -/
def ended (v : Visit L δ) : World L δ × Trace := v.ran.world.conclude v.position v.ran.status

end Visit

/-- The first time the node is polled, an activation of it begins. -/
def StartsAnew (id : NodeId) (log : List Moment) : Prop :=
  ∀ pre post, log = pre ++ .event (.enter id) :: post → .event (.enter id) ∉ pre →
    ∃ rest, post = .event (.start id) :: rest

namespace Tree

/-- The poll of the reset at position `p` in the course of an update, and what is left of it. -/
structure ResetPoll [Behavior L δ] (now : Tree L) (driver : δ) (u : Updated L δ) (p : Nat)
    (status : Status) (v : Visit L δ) : Prop where
  comes : now.ComesTo driver v
  position : v.position = p
  poll : poll now.size p v.world = ⟨status, v.ended.1,
    .enter v.branch.label.id :: (v.world.activate p v.branch.label).2 ++ v.ran.trace ++ v.ended.2 ++
      [.leave v.branch.label.id status]⟩
  /-- What happens behind the poll is not about the reset, and not about any node below it. -/
  trace : ∃ late, u.trace = v.early ++ (BehaviorTree.poll now.size p v.world).trace ++ late ∧
    late.Silent v.branch.ids
  /-- No hook is called at the end, and neither the blackboard nor the driver's context changes. -/
  quiet : v.ended.2 = [] ∧ v.ended.1.scene = v.ran.world.scene
  frame : ∀ j ∉ Slot.below now.arena p, v.ended.1.arena[j]? = v.recorded[j]?
  /-- After a failure every node below is as its polls have left it, but idle, and it stays so until
  the update ends. -/
  cleared : status = .failure → ∀ j ∈ Slot.below now.arena p, ∃ left,
    v.ran.world.arena[j]? = some left ∧ v.ended.1.arena[j]? = some left.cleared ∧
      u.tree.arena[j]? = some left.cleared
  /-- After any other result nothing is cleared. -/
  kept : status ≠ .failure → v.ended.1.arena = v.recorded
  anew : status = .failure → ∀ j ∈ Slot.below now.arena p, ∀ slot, now.arena[j]? = some slot →
    ∀ calls : List (Call δ), StartsAnew slot.label.id (u.tree.performAll calls).2

end Tree

/-! ## Clearing -/

namespace Arena

/-- Clearing some positions, one after the other. -/
lemma getElem?_foldl_clear (js : List Nat) (a : Arena L) (k : Nat) :
    (js.foldl (fun a j => a.relabel j Node.clear) a)[k]? =
      if k ∈ js then a[k]?.map Slot.cleared else a[k]? := by
  induction js generalizing a with
  | nil => simp
  | cons j js ih =>
      rw [List.foldl_cons, ih, getElem?_relabel]
      by_cases hj : j = k
      · subst hj
        cases a[j]? <;> simp [Slot.cleared, Node.clear]
      · have hk : k ∈ j :: js ↔ k ∈ js := by simp [Ne.symm hj]
        simp only [hk, if_neg hj]
        cases a[k]? <;> rfl

/-- The node that is changed is the one at the position. -/
lemma relabel_of_slot {a : Arena L} {i : Nat} {slot : Slot (Node L)} (h : a[i]? = some slot)
    (f : Node L → Node L) : a.relabel i f = a.relabel i fun _ => f slot.label := by
  refine List.ext_getElem? fun k => ?_
  rw [getElem?_relabel, getElem?_relabel]
  by_cases hk : i = k
  · subst hk
    rw [h]
    rfl
  · simp only [if_neg hk]

/-- **Clearing reaches every position below and no other.** -/
theorem getElem?_clearBelow (a : Arena L) (i k : Nat) :
    (a.clearBelow i)[k]? = if k ∈ Slot.below a i then a[k]?.map Slot.cleared else a[k]? :=
  getElem?_foldl_clear (Slot.below a i) a k

end Arena

namespace Slot

variable {α : Type} {slots : List (Slot α)} {base : Nat} {s : Branch α}

lemma mem_below_of_holds (h : Holds slots base s) {k : Nat} :
    k ∈ below slots base ↔ ∃ j < sizeAll s.children, k = base + 1 + j := by
  have hsize : s.size - 1 = sizeAll s.children := by
    obtain ⟨a, ts⟩ := s
    rw [size_node, Nat.add_sub_cancel_left, children_node]
  rw [below_of_holds h, List.mem_range'_1, hsize]
  constructor
  · rintro ⟨hle, hlt⟩
    exact ⟨k - (base + 1), by omega, by omega⟩
  · rintro ⟨j, hj, rfl⟩
    omega

lemma below_eq_of_holds (h : Holds slots base s) {slots' : List (Slot α)} {s' : Branch α}
    (h' : Holds slots' base s') (hsize : s'.size = s.size) :
    below slots' base = below slots base := by
  rw [below_of_holds h', below_of_holds h, hsize]

/-- What stands below a node is the layout of its subtrees. -/
lemma Holds.getElem?_children (h : Holds slots base s) {j : Nat} (hj : j < sizeAll s.children) :
    slots[base + 1 + j]? = (layoutAll (base + 1) s.children)[j]? := by
  obtain ⟨pre, post, rfl, hlen⟩ := h.children
  rw [List.append_assoc, List.getElem?_append_right (by omega), hlen, Nat.add_sub_cancel_left,
    List.getElem?_append_left (by simpa using hj)]

lemma Holds.relabel {a : Arena L} {b : Branch (Node L)} (h : Holds a base b)
    (f : Node L → Node L) :
    Holds (a.relabel base f) base (.node (f b.label) b.children) := by
  obtain ⟨pre, post, rfl, rfl⟩ := h
  obtain ⟨n, ts⟩ := b
  exact ⟨pre, post, Arena.relabel_layout pre post n ts f, rfl⟩

/-- What stands below a node that has been settled is as it was, or it is cleared. -/
lemma Holds.getElem?_settled {a a' : Arena L} {b b' : Branch (Node L)} (h : Holds a base b)
    (h' : Holds a' base b') (hsettled : Settled b b') {k : Nat} {slot : Slot (Node L)}
    (hk : k ∈ below a base) (hslot : a[k]? = some slot.cleared) : a'[k]? = some slot.cleared := by
  obtain ⟨j, hj, rfl⟩ := (mem_below_of_holds h).mp hk
  rw [h.getElem?_children hj] at hslot
  rcases hsettled with rfl | rfl
  · rwa [h'.getElem?_children hj]
  · obtain ⟨n, ts⟩ := b
    rw [children_node] at hj hslot
    rw [h'.getElem?_children (by simpa [← mapAll_eq_map] using hj), map_node, children_node,
      ← mapAll_eq_map, layoutAll_mapAll, List.getElem?_map, hslot]
    rfl

end Slot

/-! ## The end of a poll -/

section Ended

variable [Behavior L δ] {t : Branch (Node L)} {scene : Scene δ} {v : Visit L δ}

/-- The result of a poll is what its trace shows. -/
lemma eq_of_leave_mem (hnodup : t.ids.Nodup) {status : Status}
    (h : .leave t.label.id status ∈ (t.poll scene).trace) : (t.poll scene).status = status := by
  have hself : t.label.id ∈ [t.label.id] := List.mem_singleton_self _
  have hids : ∀ x ∈ idsAll t.children, x ∉ [t.label.id] := by
    obtain ⟨n, ts⟩ := t
    rintro x hx hmem
    rw [List.mem_singleton.mp hmem] at hx
    exact (List.nodup_cons.mp hnodup).1 hx
  have hmem : .leave t.label.id status ∈ (t.poll scene).trace.bounds [t.label.id] :=
    List.mem_filter.mpr ⟨h, by simp [Event.isBound, Event.node?]⟩
  rw [bounds_poll hself hids scene 0 0, ChildPoll.events] at hmem
  cases hs : t.label.state.started <;> simpa [hs, eq_comm] using hmem

/-- Where a visit finds its node in the arena. -/
lemma Branch.Visits.exists_split (h : t.Visits scene v) : ∃ pre post, pre.length = v.position ∧
    v.world.arena = pre ++ v.branch.layout pre.length ++ post := by
  obtain ⟨pre, post, heq, hlen⟩ := exists_layout_split 0 v.now v.branch v.position h.part_now
  rw [Nat.zero_add, ← hlen] at heq
  exact ⟨pre, post, hlen, heq⟩

/-- The steps of the poll of the visited node. -/
lemma Branch.Visits.poll_world (h : t.Visits scene v) :
    BehaviorTree.poll v.world.arena.length v.position v.world = ⟨v.ran.status, v.ended.1,
      .enter v.branch.label.id :: (v.world.activate v.position v.branch.label).2 ++ v.ran.trace ++
        v.ended.2 ++ [.leave v.branch.label.id v.ran.status]⟩ := by
  have hslot : v.world.arena[v.position]? = some (slotAt v.position v.branch) :=
    getElem?_layout_part h.part_now
  rw [poll_eq_pollNode, pollNode, hslot]
  rfl

/-- The poll of the visited node is the nested one. -/
lemma Branch.Visits.poll_branch (h : t.Visits scene v) :
    v.ran.status = (v.branch.poll v.scene).status ∧
    (BehaviorTree.poll v.world.arena.length v.position v.world).trace =
      (v.branch.poll v.scene).trace ∧
    Slot.Holds v.ended.1.arena v.position (v.branch.poll v.scene).part := by
  obtain ⟨pre, post, hlen, heq⟩ := h.exists_split
  have hsize : v.world.arena.length = pre.length + v.branch.size + post.length := by
    rw [heq, List.length_append, List.length_append, length_layout]
  have hpoll := poll_layout (δ := δ) v.branch pre post v.scene hsize
  rw [← heq, hlen] at hpoll
  have hworld := h.poll_world.symm.trans hpoll
  have hended := congrArg (fun p => p.world.arena) hworld
  refine ⟨congrArg Polled.status hworld, congrArg Polled.trace hpoll, pre, post, ?_, hlen⟩
  rw [hlen.symm]
  exact hended

/-- The visited node stands where it was when it has run. -/
lemma Branch.Visits.ran_holds (h : t.Visits scene v) : ∃ b : Branch (Node L),
    Slot.Holds v.ran.world.arena v.position b ∧ b.map Node.static = v.branch.map Node.static := by
  obtain ⟨pre, post, hlen, heq⟩ := h.exists_split
  obtain ⟨n, ts, hbranch⟩ : ∃ n ts, v.branch = node n ts := by
    obtain ⟨n, ts⟩ := v.branch
    exact ⟨n, ts, rfl⟩
  have hworld : v.world = ⟨pre ++ (node n ts).layout pre.length ++ post, v.scene⟩ := by
    rw [← hbranch, ← heq]
    rfl
  have hran := run_layout (n := v.world.arena.length) (n.begin v.scene).1 ts pre post
    (n.begin v.scene).2.1 (fun t _ => poll_layout t) (by
      rw [heq, hbranch, List.length_append, List.length_append, length_layout]
      rfl)
  have hstatic := map_static_run (n.begin v.scene).1 ts (n.begin v.scene).2.1
  rw [map_node, Node.static_begin, ← map_node, ← hbranch] at hstatic
  have hbegun : (v.world.activate pre.length n).1 =
      ⟨pre ++ (node (n.begin v.scene).1 ts).layout pre.length ++ post, (n.begin v.scene).2.1⟩ := by
    rw [hworld, World.activate_layout]
  refine ⟨_, ⟨pre, post, ?_, hlen⟩, hstatic⟩
  rw [Visit.ran, hbranch, label_node, ← hlen, hbegun, hran]
  rfl

/-- What the poll of a reset does at its end, beyond recording the result. -/
lemma Branch.Visits.ended_of_reset (h : t.Visits scene v) {gate : Bool}
    (hkind : v.branch.label.kind = .decorator .reset gate) :
    v.ended = (⟨if v.ran.status = .failure then v.recorded.clearBelow v.position else v.recorded,
      v.ran.world.scene⟩, []) := by
  obtain ⟨b, hholds, hstatic⟩ := h.ran_holds
  obtain ⟨gate', hkind'⟩ : ∃ gate', b.label.kind = .decorator .reset gate' := by
    have hlabel := congrArg label hstatic
    rw [label_map, label_map] at hlabel
    rw [← Tree.static_eq_reset_iff, Node.kind_eq_of_static hlabel, hkind]
    rfl
  have hslot := hholds.getElem?
  have hrecorded : v.recorded = v.ran.world.arena.relabel v.position fun _ =>
      (b.label.conclude v.ran.status v.ran.world.scene).1 := Arena.relabel_of_slot hslot _
  obtain ⟨n, ts⟩ := b
  obtain ⟨id, kind, state⟩ := n
  obtain rfl : kind = .decorator .reset gate' := hkind'
  rw [Visit.ended, World.conclude_of_slot hslot, hrecorded]
  cases v.ran.status <;> rfl

/-- Recording the result leaves the references as they were. -/
lemma Branch.Visits.below_recorded (h : t.Visits scene v) :
    Slot.below v.recorded v.position = Slot.below v.world.arena v.position := by
  obtain ⟨b, hholds, hstatic⟩ := h.ran_holds
  obtain ⟨pre, post, hlen, heq⟩ := h.exists_split
  have hsize := congrArg Branch.size hstatic
  rw [size_map, size_map] at hsize
  refine Slot.below_eq_of_holds ⟨pre, post, hlen ▸ heq, hlen⟩ (hholds.relabel _) ?_
  rw [← hsize]
  obtain ⟨n, ts⟩ := b
  rfl

/-- **A failed reset leaves a cleared node at every position below.** -/
lemma Branch.Visits.cleared_of_failure (h : t.Visits scene v) {gate : Bool}
    (hkind : v.branch.label.kind = .decorator .reset gate) (hfailure : v.ran.status = .failure)
    {j : Nat} (hj : j ∈ Slot.below v.world.arena v.position) :
    ∃ left, v.ran.world.arena[j]? = some left ∧ v.ended.1.arena[j]? = some left.cleared := by
  obtain ⟨b, hholds, -⟩ := h.ran_holds
  have hrecorded := hholds.relabel fun n => (n.conclude v.ran.status v.ran.world.scene).1
  rw [← h.below_recorded] at hj
  obtain ⟨k, hk, hjk⟩ := (Slot.mem_below_of_holds hrecorded).mp hj
  have hleft : v.recorded[j]? = v.ran.world.arena[j]? := by
    rw [Visit.recorded, Arena.getElem?_relabel]
    simp only [if_neg (show v.position ≠ j by omega)]
    cases v.ran.world.arena[j]? <;> rfl
  have hlt : j < v.recorded.length := by
    rw [hjk, Nat.add_assoc]
    have hle := hrecorded.le
    rw [size_node] at hle
    rw [children_node] at hk
    exact Nat.lt_of_lt_of_le (by omega) hle
  refine ⟨v.recorded[j], hleft ▸ List.getElem?_eq_getElem hlt, ?_⟩
  rw [h.ended_of_reset hkind, if_pos hfailure, Arena.getElem?_clearBelow, if_pos hj,
    List.getElem?_eq_getElem hlt, Option.map_some]

end Ended

/-! ## Being started anew -/

section StartsAnew

variable [Behavior L δ] {id : NodeId} {b c : Branch (Node L)} {moments log log' : List Moment}

lemma startsAnew_nil (id : NodeId) : StartsAnew id [] := by
  intro pre post h
  simp at h

/-- As long as the node is not polled, nothing has begun. -/
lemma StartsAnew.prepend (h : StartsAnew id log') (hlog : .event (.enter id) ∉ log) :
    StartsAnew id (log ++ log') := by
  intro pre post heq hpre
  rcases List.append_eq_append_iff.mp heq with ⟨mid, rfl, hrest⟩ | ⟨mid, rfl, hrest⟩
  · exact h mid post hrest fun hmem => hpre (List.mem_append_right _ hmem)
  · cases mid with
    | nil => exact h [] post (by simpa using hrest.symm) List.not_mem_nil
    | cons m mid =>
        obtain ⟨rfl, -⟩ := List.cons.inj hrest
        exact absurd (by simp) hlog

/-- Once an activation has begun with the first poll, it does not matter what follows. -/
lemma startsAnew_of_start {early : List Moment} (hearly : .event (.enter id) ∉ early)
    (late : List Moment) :
    StartsAnew id (early ++ .event (.enter id) :: .event (.start id) :: late) := by
  refine StartsAnew.prepend ?_ hearly
  intro pre post heq hpre
  cases pre with
  | nil =>
      obtain ⟨-, rfl⟩ := List.cons.inj heq
      exact ⟨late, rfl⟩
  | cons m pre =>
      obtain ⟨rfl, -⟩ := List.cons.inj heq
      exact absurd List.mem_cons_self hpre

/-- The poll of an idle node begins an activation. -/
lemma exists_trace_of_idle (t : Branch (Node L)) (scene : Scene δ)
    (h : t.label.state.started = false) :
    ∃ rest, (t.poll scene).trace = .enter t.label.id :: .start t.label.id :: rest := by
  obtain ⟨n, ts⟩ := t
  obtain ⟨id, kind, state⟩ := n
  rw [label_node] at h
  rw [poll_eq_conclude, Outcome.conclude, Node.begin, h]
  cases kind <;> exact ⟨_, rfl⟩

lemma not_mem_of_silent {ids : List NodeId} {trace : Trace} (h : trace.Silent ids)
    (hid : id ∈ ids) : .event (.enter id) ∉ trace.map Moment.event := by
  intro hmem
  obtain ⟨e, he, heq⟩ := List.mem_map.mp hmem
  cases heq
  exact h _ he id hid rfl

/-- **In every run an idle node is started anew** when it is polled next. -/
theorem Branch.Steps.startsAnew (h : Steps b moments c) (hnodup : b.ids.Nodup) {k : Nat}
    {s : Branch (Node L)} (hs : b.parts[k]? = some s) (hidle : s.label.state.started = false) :
    StartsAnew s.label.id moments := by
  induction h generalizing s with
  | none => exact startsAnew_nil _
  | @cons b c d now later hnow _ ih =>
      have hids := ids_of_static hnow.map_static
      have hself : s.label.id ∈ s.ids := List.mem_map_of_mem s.label_mem_labels
      cases hnow with
      | rests => exact ih hnodup hs hidle
      | rearms =>
          have hnext : (b.map Node.rearm).parts[k]? = some (s.map Node.rearm) := by
            rw [parts_map, List.getElem?_map, hs, Option.map_some]
          have hlater := ih (hids ▸ hnodup) hnext (by rw [label_map]; rfl)
          rw [label_map] at hlater
          exact hlater.prepend (by simp)
      | polls scene =>
          obtain ⟨u, hu, hmeets⟩ := b.poll_part scene hnodup hs
          cases hmeets with
          | passes hsettled hsilent =>
              have hlater := ih (hids ▸ hnodup) hu (by
                rcases hsettled with rfl | rfl
                · exact hidle
                · rw [label_map]
                  rfl)
              have hid : u.label.id = s.label.id := by
                rcases hsettled with rfl | rfl
                · rfl
                · rw [label_map]
                  rfl
              rw [hid] at hlater
              exact hlater.prepend (not_mem_of_silent hsilent hself)
          | visits v late _ hbranch _ htrace hearly _ =>
              obtain ⟨rest, hrest⟩ := exists_trace_of_idle s v.scene hidle
              have hstart := startsAnew_of_start (not_mem_of_silent hearly hself)
                ((rest ++ late).map .event ++ later)
              rw [htrace, hrest]
              simpa using hstart

end StartsAnew

namespace Tree

/-! ## The poll of a reset in the course of an update -/

section Resets

variable [Behavior L δ] {t : Tree L}

/-- What the poll of a reset does in the course of an update. -/
lemma Shows.resetPoll {b : Branch (Node L)} (h : t.Shows b) {driver : δ} {u : Updated L δ}
    (hu : t.update driver = .ok u) {p : Nat} {slot : Slot (Node L)} {gate : Bool}
    (hslot : t.arena[p]? = some slot) (hkind : slot.label.kind = .decorator .reset gate)
    {status : Status} (hleave : .leave slot.label.id status ∈ u.trace) :
    ∃ v, t.ResetPoll driver u p status v := by
  rcases h.update_cases hu with rfl | ⟨board, hboard, hstate, rfl⟩
  · cases hleave
  obtain ⟨s, hs, rfl⟩ := h.exists_getElem?_parts hslot
  obtain ⟨r, hr, hmeets⟩ := b.poll_part ⟨board, driver⟩ h.nodup hs
  have hself : s.label.id ∈ s.ids := List.mem_map_of_mem s.label_mem_labels
  cases hmeets with
  | passes _ hsilent => exact absurd rfl (hsilent _ hleave _ hself)
  | visits v late hv hbranch hsettled htrace hearly hlate =>
      obtain ⟨hvisits, rfl⟩ := hv
      subst hbranch
      have hnodup := nodup_ids_of_part h.nodup (List.mem_of_getElem? hs)
      have hsize : v.world.arena.length = t.size := by
        have heq := congrArg Branch.size hvisits.map_static
        rw [size_map, size_map] at heq
        rw [h.size_eq, ← heq]
        exact length_layout 0 v.now
      obtain ⟨hstatus, hpolled, hended⟩ := hvisits.poll_branch
      have hstatus' : v.ran.status = status := by
        rw [hstatus]
        refine eq_of_leave_mem hnodup ?_
        rw [htrace, List.append_assoc, List.mem_append, List.mem_append] at hleave
        rcases hleave with hmem | hmem | hmem
        · exact absurd rfl (hearly _ hmem _ hself)
        · exact hmem
        · exact absurd rfl (hlate _ hmem _ hself)
      have hreset := hvisits.ended_of_reset hkind
      have hholds := h.holds_part hs
      have hbelow : Slot.below v.world.arena v.position = Slot.below t.arena v.position := by
        have hnow := (Slot.holds_layout v.now).part hvisits.part_now
        rw [Nat.zero_add] at hnow
        exact Slot.below_eq_of_holds hholds hnow rfl
      have hshows := h.of_static (map_static_poll b ⟨board, driver⟩)
        (u := ⟨(b.poll ⟨board, driver⟩).part.layout 0, some (b.poll ⟨board, driver⟩).scene.board,
          (b.poll ⟨board, driver⟩).status⟩) rfl
      -- what has been cleared is as it was then when the update ends
      have hcleared : status = .failure → ∀ j ∈ Slot.below t.arena v.position, ∃ left,
          v.ran.world.arena[j]? = some left ∧ v.ended.1.arena[j]? = some left.cleared ∧
            ((b.poll ⟨board, driver⟩).part.layout 0)[j]? = some left.cleared := by
        intro hfailure j hj
        have hj' := hj
        rw [← hbelow] at hj'
        obtain ⟨left, hleft, hnow⟩ :=
          hvisits.cleared_of_failure hkind (hstatus'.trans hfailure) hj'
        have hlater := (Slot.holds_layout (b.poll ⟨board, driver⟩).part).part hr
        rw [Nat.zero_add] at hlater
        refine ⟨left, hleft, hnow, hended.getElem?_settled hlater hsettled ?_ hnow⟩
        rwa [Slot.below_eq_of_holds hholds hended (size_poll _ _)]
      refine ⟨v, ⟨b, board, h.branch?, hboard, hstate, hvisits⟩, rfl, ?_, ?_, ?_, ?_, hcleared,
        ?_, ?_⟩
      · rw [← hsize, hvisits.poll_world, hstatus']
      · exact ⟨late, by rw [← hsize, hpolled, htrace], hlate⟩
      · rw [hreset]
        exact ⟨rfl, rfl⟩
      · intro j hj
        rw [hreset, hstatus']
        split
        · rw [Arena.getElem?_clearBelow, if_neg (by rwa [hvisits.below_recorded, hbelow])]
        · rfl
      · intro hkept
        rw [hreset, hstatus', if_neg hkept]
      · intro hfailure j hj slot hslot calls
        obtain ⟨left, -, -, hnow⟩ := hcleared hfailure j hj
        obtain ⟨now, hnow', hstatic, -⟩ :=
          h.exists_slot hshows (map_static_poll b ⟨board, driver⟩) hslot
        rw [hnow, Option.some.injEq] at hnow'
        subst hnow'
        obtain ⟨c, hc, hleft⟩ := hshows.exists_getElem?_parts hnow
        obtain ⟨d, -, hsteps⟩ := hshows.performAll calls
        have hlabel : c.label = left.label.clear := congrArg Slot.label hleft.symm
        have hanew := hsteps.startsAnew hshows.nodup hc (by rw [hlabel]; rfl)
        rw [hlabel] at hanew
        rw [← Node.id_eq_of_static hstatic]
        exact hanew

/-- **What a failed reset clears.**  In the course of an update the poll of a reset ends with
clearing every node below it if it has failed, and with clearing nothing if it has not. -/
theorem Fresh.reset_clears (h : t.Fresh) (calls : List (Call δ)) {p : Nat} {slot : Slot (Node L)}
    {gate : Bool} (hslot : t.arena[p]? = some slot)
    (hkind : slot.label.kind = .decorator .reset gate) {driver : δ} {u : Updated L δ}
    (hu : (t.performAll calls).1.update driver = .ok u) {status : Status}
    (hleave : .leave slot.label.id status ∈ u.trace) :
    ∃ v, (t.performAll calls).1.ResetPoll driver u p status v := by
  obtain ⟨b, hb⟩ := h.pristine
  obtain ⟨c, hc, hsteps⟩ := hb.toShows.performAll calls
  obtain ⟨now, hnow, hstatic, -⟩ := hb.toShows.exists_slot hc hsteps.map_static hslot
  obtain ⟨gate', hkind'⟩ : ∃ gate', now.label.kind = .decorator .reset gate' := by
    rw [← static_eq_reset_iff, Node.kind_eq_of_static hstatic, hkind]
    rfl
  rw [← Node.id_eq_of_static hstatic] at hleave
  exact hc.resetPoll hu hnow hkind' hleave

/-- A gate that closes abandons a leaf, and the reset above it fails and clears them. -/
theorem reset_clears_abandoned :
    let t : Tree Constant := ofBranch (.node (.fresh ⟨0⟩ .root)
      [.node (.fresh ⟨1⟩ (.decorator .reset false))
        [.node (.fresh ⟨2⟩ (.decorator (.hasValue "k" false false) false))
          [.node (.fresh ⟨3⟩ (.leaf .running)) []]]])
    let now := (t.performAll [.start, .edit (·.set "k" (.bool true)), .update (),
      .edit (·.remove "k")]).1
    Tree.build .standard (some (.decorate .reset (.hasValue "k" (.leaf none Constant.running)))) =
        .ok t ∧
      now.arena.map (fun slot => slot.label.state.started) = [true, true, true, true] ∧
      ∃ u v, now.update () = .ok u ∧ .leave ⟨1⟩ .failure ∈ u.trace ∧
        now.ResetPoll () u 1 .failure v ∧
        u.tree.arena.map (fun slot => slot.label.state.started) = [false, false, false, false] := by
  intro t now
  have hbuild : Tree.build .standard
      (some (.decorate .reset (.hasValue "k" (.leaf none Constant.running)))) = .ok t := rfl
  have hstarted : now.arena.map (fun slot => slot.label.state.started) =
      [true, true, true, true] := by decide +kernel
  have hdone : (now.update ()).map (fun u => (u.trace.contains (.leave ⟨1⟩ .failure),
      u.tree.arena.map fun slot => slot.label.state.started)) =
        .ok (true, [false, false, false, false]) := by decide +kernel
  cases hu : now.update () with
  | error e =>
      rw [hu] at hdone
      cases hdone
  | ok u =>
      rw [hu] at hdone
      simp only [Except.map, Except.ok.injEq, Prod.mk.injEq, List.contains_iff_mem] at hdone
      obtain ⟨v, hv⟩ := (Fresh.built .standard _ hbuild).reset_clears _ (p := 1) rfl rfl hu hdone.1
      exact ⟨hbuild, hstarted, u, v, rfl, hdone.1, hv, hdone.2⟩

end Resets

end Tree

end BehaviorTree
