import BehaviorTree.Proofs.ActivePath

/-!
# The cursors of composites

A composite keeps its cursor between polls, and nothing in the type of a node says that it points at
a child.  It does: a cursor never passes the last child, and while an activation is under way it
has not come there, unless there is no child at all.

* `Node.CursorWithin` — what holds of the cursor of a node, given its subtrees.
* `Onward.moves_le` — how far polling from the cursor on can move it.
* **`Branch.cursors_poll`** — a poll keeps every cursor within.
* **`Tree.Fresh.exists_cursors`** — so does every run.
-/

namespace BehaviorTree

open Branch

variable {L δ : Type}

/-- The cursor of a composite does not pass its last child, and while an activation is under way it
points at a child, if there is one. -/
def Node.CursorWithin (n : Node L) (ts : List (Branch (Node L))) : Prop :=
  ∀ kind cascade cursor, n.kind = .composite kind cascade cursor →
    cursor ≤ ts.length ∧ (n.state.started = true → ts ≠ [] → cursor < ts.length)

namespace Node

variable {n : Node L} {ts us : List (Branch (Node L))}

lemma cursorWithin_of_rewound (h : n.kind.rewind = n.kind) : n.CursorWithin ts := by
  intro kind cascade cursor hkind
  rw [hkind] at h
  obtain rfl : 0 = cursor := by simpa [NodeKind.rewind] using h
  exact ⟨Nat.zero_le _, fun _ hne => List.length_pos_iff.mpr hne⟩

lemma cursorWithin_of_not_composite
    (h : ∀ kind cascade cursor, n.kind ≠ .composite kind cascade cursor) : n.CursorWithin ts := by
  intro kind cascade cursor hkind
  exact absurd hkind (h kind cascade cursor)

/-- Where no activation is under way, other subtrees of the same number will do. -/
lemma CursorWithin.clear (h : n.CursorWithin ts) (hlen : us.length = ts.length) :
    n.clear.CursorWithin us := by
  intro kind cascade cursor hkind
  rw [hlen]
  exact ⟨(h kind cascade cursor hkind).1, fun hstarted => by cases hstarted⟩

lemma CursorWithin.begin [Behavior L δ] (h : n.CursorWithin ts) (scene : Scene δ) :
    (n.begin scene).1.CursorWithin ts := by
  obtain ⟨id, kind, state⟩ := n
  rw [begin]
  split
  · exact h
  · cases kind with
    | composite kind cascade cursor => exact cursorWithin_of_rewound rfl
    | _ => exact cursorWithin_of_not_composite (by intro _ _ _ h; cases h)

end Node

/-- Every cursor is within where every node is rewound. -/
lemma every_cursorWithin_of_rewound {t : Branch (Node L)}
    (h : ∀ n ∈ t.labels, n.kind.rewind = n.kind) : t.Every Node.CursorWithin := by
  intro s hs
  refine Node.cursorWithin_of_rewound (h _ ?_)
  rw [labels_eq_map_parts]
  exact List.mem_map_of_mem hs

lemma every_cursorWithin_clear {t : Branch (Node L)} (h : t.Every Node.CursorWithin) :
    (t.map Node.clear).Every Node.CursorWithin := by
  intro s hs
  rw [parts_map] at hs
  obtain ⟨u, hu, rfl⟩ := List.mem_map.mp hs
  obtain ⟨n, ts⟩ := u
  rw [map_node, label_node, children_node]
  exact (h _ hu).clear (List.length_map _)

/-! ## Polling children -/

section Children

variable [Behavior L δ] {id : NodeId} {kind : CompositeKind} {cascade : Bool} {skip : Nat}
  {ts : List (Branch (Node L))} {scene : Scene δ} {o : Outcome (Nat × List (Branch (Node L))) δ}

/-- What holds of every child, polled or not, holds of them after a poll of the first one. -/
lemma forall_pollFirst {P : Branch (Node L) → Prop} (hkept : ∀ t ∈ ts, P t)
    (hpolled : ∀ t ∈ ts, ∀ scene : Scene δ, P (t.poll scene).part) :
    ∀ t ∈ (pollFirst ts scene).part, P t := by
  cases ts with
  | nil => exact hkept
  | cons t ts =>
      exact List.forall_mem_cons.mpr
        ⟨hpolled t List.mem_cons_self scene, (List.forall_mem_cons.mp hkept).2⟩

/-- What holds of every child, polled or not, holds of them after polling from the cursor on. -/
lemma Onward.forall_part {P : Branch (Node L) → Prop} (h : Onward id kind cascade skip ts scene o)
    (hkept : ∀ t ∈ ts, P t) (hpolled : ∀ t ∈ ts, ∀ scene : Scene δ, P (t.poll scene).part) :
    ∀ t ∈ o.part.2, P t := by
  induction h with
  | exhausted => exact hkept
  | skips _ ih =>
      rw [List.forall_mem_cons] at hkept hpolled
      exact List.forall_mem_cons.mpr ⟨hkept.1, ih hkept.2 hpolled.2⟩
  | ends => exact List.forall_mem_singleton.mpr (hpolled _ List.mem_cons_self _)
  | cascades _ _ _ ih =>
      rw [List.forall_mem_cons] at hkept hpolled
      exact List.forall_mem_cons.mpr ⟨hpolled.1 _, ih hkept.2 hpolled.2⟩
  | stops | pauses =>
      rw [List.forall_mem_cons] at hkept hpolled
      exact List.forall_mem_cons.mpr ⟨hpolled.1 _, hkept.2⟩

lemma Onward.length_part (h : Onward id kind cascade skip ts scene o) :
    o.part.2.length = ts.length := by
  induction h <;> simp_all

/-- **Polling from the cursor on moves it at most to the end of the children**, and not as far if
another poll is asked for. -/
theorem Onward.moves_le (h : Onward id kind cascade skip ts scene o) (hskip : skip ≤ ts.length) :
    skip + o.part.1 ≤ ts.length ∧
      (skip < ts.length → o.status = .running → skip + o.part.1 < ts.length) := by
  induction h with
  | exhausted => simp_all
  | @skips skip t ts scene o _ ih =>
      rw [List.length_cons] at hskip ⊢
      obtain ⟨hle, hlt⟩ := ih (by omega)
      refine ⟨?_, fun hless hrunning => ?_⟩
      · show skip + 1 + o.part.1 ≤ ts.length + 1
        omega
      · have := hlt (by omega) hrunning
        show skip + 1 + o.part.1 < ts.length + 1
        omega
  | stops => exact ⟨hskip, fun hless _ => hless⟩
  | @ends t scene hs =>
      refine ⟨Nat.le_refl 1, fun _ hrunning => ?_⟩
      exact absurd (hs.symm.trans hrunning) kind.advancesOn_ne_running
  | @cascades t u us scene o _ _ _ ih =>
      obtain ⟨hle, hlt⟩ := ih (Nat.zero_le _)
      simp only [List.length_cons] at hle hlt ⊢
      refine ⟨?_, fun _ hrunning => ?_⟩
      · show 0 + (o.part.1 + 1) ≤ us.length + 1 + 1
        omega
      · have := hlt (by omega) hrunning
        show 0 + (o.part.1 + 1) < us.length + 1 + 1
        omega
  | pauses => simp

end Children

/-! ## Polling a node -/

namespace Node

variable [Behavior L δ] {n : Node L} {ts : List (Branch (Node L))}

/-- What running a node makes of the cursors: those below are within, and its own is at a child if
another poll is asked for. -/
structure RanWithin (o : Outcome (Branch (Node L)) δ) : Prop where
  every : ∀ t ∈ o.part.children, t.Every CursorWithin
  cursor : ∀ kind cascade cursor, o.part.label.kind = .composite kind cascade cursor →
    cursor ≤ o.part.children.length ∧
      (o.status = .running → o.part.children ≠ [] → cursor < o.part.children.length)

omit [Behavior L δ] in
lemma RanWithin.of_not_composite {o : Outcome (Branch (Node L)) δ}
    (hevery : ∀ t ∈ o.part.children, t.Every CursorWithin)
    (h : ∀ kind cascade cursor, o.part.label.kind ≠ .composite kind cascade cursor) :
    RanWithin o where
  every := hevery
  cursor kind cascade cursor hkind := absurd hkind (h kind cascade cursor)

lemma run_ranWithin (hstarted : n.state.started = true) (hn : n.CursorWithin ts)
    (hts : ∀ t ∈ ts, t.Every CursorWithin)
    (ih : ∀ t ∈ ts, ∀ scene : Scene δ, t.Every CursorWithin →
      (t.poll scene).part.Every CursorWithin) (scene : Scene δ) :
    RanWithin (n.run ts (pollFirst ts)
      (fun kind cascade cursor => Branch.pollFrom n.id kind cascade cursor ts) scene) := by
  have hpolled : ∀ t ∈ ts, ∀ scene : Scene δ, (t.poll scene).part.Every CursorWithin :=
    fun t ht scene => ih t ht scene (hts t ht)
  cases hk : n.kind with
  | root =>
      rw [run_root hk]
      exact .of_not_composite (forall_pollFirst hts hpolled) fun _ _ _ => by simp [hk]
  | composite kind cascade cursor =>
      have honward := pollFrom_onward n.id kind cascade cursor ts scene
      obtain ⟨hle, hlt⟩ := hn kind cascade cursor hk
      obtain ⟨hle', hlt'⟩ := honward.moves_le hle
      rw [run_composite hk]
      refine ⟨honward.forall_part hts hpolled, fun kind' cascade' cursor' hkind => ?_⟩
      simp only [Outcome.part_map, label_node, NodeKind.composite.injEq] at hkind
      obtain ⟨rfl, rfl, rfl⟩ := hkind
      simp only [Outcome.part_map, Outcome.status_map, children_node, honward.length_part]
      refine ⟨hle', fun hrunning hne => hlt' (hlt hstarted ?_) hrunning⟩
      rintro rfl
      exact hne (List.length_eq_zero_iff.mp honward.length_part)
  | decorator rule gate =>
      cases ha : admits rule gate scene.board with
      | true =>
          rw [run_admitted hk ha]
          exact .of_not_composite (forall_pollFirst hts hpolled) fun _ _ _ => by simp [hk]
      | false =>
          rw [run_refused hk ha]
          exact .of_not_composite hts fun _ _ _ => by simp [hk]
  | leaf l =>
      rw [run_leaf hk]
      exact .of_not_composite hts fun _ _ _ => by simp

lemma kind_conclude_composite {status : Status} {scene : Scene δ} {kind : CompositeKind}
    {cascade : Bool} {cursor : Nat}
    (h : (n.conclude status scene).1.kind = .composite kind cascade cursor) :
    n.kind = .composite kind cascade cursor := by
  obtain ⟨id, kind', state⟩ := n
  rw [conclude] at h
  split at h
  · cases kind' with
    | leaf l => cases h
    | _ => exact h
  · exact h

lemma RanWithin.every_conclude {o : Outcome (Branch (Node L)) δ} (h : RanWithin o) (id : NodeId)
    (begun : Trace) : (o.conclude id begun).part.Every CursorWithin := by
  obtain ⟨status, ⟨n, ts⟩, scene, trace⟩ := o
  have hlen : ((n.conclude status scene).1.settle status ts).length = ts.length := by
    rw [settle]
    split
    · exact List.length_map _
    · rfl
  refine every_node.mpr ⟨fun kind cascade cursor hkind => ?_, fun t ht => ?_⟩
  · obtain ⟨hle, hlt⟩ := h.cursor kind cascade cursor (kind_conclude_composite hkind)
    simp only [children_node, hlen, label_node] at hle hlt ⊢
    refine ⟨hle, fun hstarted hne => hlt ?_ ?_⟩
    · -- a terminal result would have ended the activation
      by_contra hrunning
      have hterminal : status.isTerminal = true := by
        cases status <;> first | rfl | exact absurd rfl hrunning
      rw [state_conclude, if_pos hterminal] at hstarted
      cases hstarted
    · rintro rfl
      exact hne (List.length_eq_zero_iff.mp hlen)
  · change t ∈ (n.conclude status scene).1.settle status ts at ht
    rw [settle] at ht
    split at ht
    · obtain ⟨u, hu, rfl⟩ := List.mem_map.mp ht
      exact every_cursorWithin_clear (h.every u hu)
    · exact h.every t ht

end Node

section Poll

variable [Behavior L δ]

/-- **A poll keeps every cursor within.** -/
theorem Branch.cursors_poll (t : Branch (Node L)) (scene : Scene δ)
    (h : t.Every Node.CursorWithin) : (t.poll scene).part.Every Node.CursorWithin := by
  induction t generalizing scene with
  | node n ts ih =>
      obtain ⟨hn, hts⟩ := every_node.mp h
      rw [poll_node]
      exact (Node.run_ranWithin (n.started_begin scene) (hn.begin scene) hts
        (fun t ht scene h => ih t ht scene h) _).every_conclude _ _

lemma Branch.Step.cursors {b c : Branch (Node L)} {moments : List Moment} (h : Step b moments c)
    (hb : b.Every Node.CursorWithin) : c.Every Node.CursorWithin := by
  cases h with
  | rests => exact hb
  | polls scene => exact b.cursors_poll scene hb
  | rearms =>
      refine every_cursorWithin_of_rewound fun n hn => ?_
      obtain ⟨m, -, rfl⟩ := mem_labels_map.mp hn
      cases hk : m.kind <;> simp [Node.rearm, hk, NodeKind.rewind]

end Poll

/-! ## The arena of a tree -/

/-- The cursor of every composite in an arena is within its children. -/
def Arena.CursorsWithin (a : Arena L) : Prop :=
  ∀ slot ∈ a, ∀ kind cascade cursor, slot.label.kind = .composite kind cascade cursor →
    cursor ≤ slot.children.length ∧
      (slot.label.state.started = true → slot.children ≠ [] → cursor < slot.children.length)

lemma Arena.cursorsWithin_layout {b : Branch (Node L)} (hb : b.Every Node.CursorWithin) :
    CursorsWithin (b.layout 0) := by
  intro slot hslot kind cascade cursor hkind
  obtain ⟨i, hi⟩ := List.mem_iff_getElem?.mp hslot
  rw [getElem?_layout, Option.map_eq_some_iff] at hi
  obtain ⟨s, hs, rfl⟩ := hi
  obtain ⟨hle, hlt⟩ := hb s (List.mem_of_getElem? hs) kind cascade cursor hkind
  have hlen : (slotAt (0 + i) s).children.length = s.children.length := length_roots _ _
  rw [hlen]
  refine ⟨hle, fun hstarted hne => hlt hstarted fun hnil => hne ?_⟩
  exact List.length_eq_zero_iff.mp (by rw [hlen, hnil, List.length_nil])

namespace Tree

variable {t : Tree L} {b : Branch (Node L)}

lemma Pristine.cursors (h : t.Pristine b) : b.Every Node.CursorWithin :=
  every_cursorWithin_of_rewound fun _ hn => h.rewind_kind hn

variable [Behavior L δ]

/-- **No run takes a cursor past the children of its composite**, nor to their end in the course of
an activation. -/
theorem Fresh.exists_cursors (h : t.Fresh) (calls : List (Call δ)) :
    ∃ c, (t.performAll calls).1.Shows c ∧ c.Every Node.CursorWithin := by
  obtain ⟨b, hb⟩ := h.pristine
  obtain ⟨c, hc, hsteps⟩ := hb.toShows.performAll calls
  exact ⟨c, hc, hsteps.invariant (fun _ _ _ hstep => hstep.cursors) hb.cursors⟩

end Tree

end BehaviorTree
