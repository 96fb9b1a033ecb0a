import BehaviorTree.Proofs.Lifecycle

/-!
# A watch can follow every run

`Branch.Placed` says where in a nested tree a leaf stands: its identity is nobody else's, and the
resets above it are known.  A poll, a rearming and a pause keep this, since it depends on the static
tree alone.

**`Branch.poll_followed`**: whatever a poll of the nested tree does, a watch of the leaf can follow
it, and afterwards the watch agrees with what the engine has recorded at the leaf
(`Watch.Agrees`).  A branch in which the leaf does not stand leaves the watch as it is, and this is
what carries the induction from one child to the next.
-/

namespace BehaviorTree

open Branch

variable {L δ : Type} {x : NodeId} {above : NodeId → Prop}

/-! ## Where the leaf stands -/

/-- A leaf stands in a nested tree at most once, and the given resets are those above it. -/
structure Branch.Placed (x : NodeId) (above : NodeId → Prop) (t : Branch (Node L)) : Prop where
  nodup : t.ids.Nodup
  leaf : ∀ n ∈ t.labels, n.id = x → n.kind.static = .leaf ()
  above_iff : ∀ s ∈ t.parts, above s.label.id ↔
    s.label.kind.static = .decorator .reset false ∧ x ∈ idsAll s.children

namespace Branch.Placed

variable {n : Node L} {ts : List (Branch (Node L))} {t : Branch (Node L)}

lemma nodup_idsAll (h : Placed x above (node n ts)) : (idsAll ts).Nodup :=
  (List.nodup_cons.mp h.nodup).2

lemma not_mem_idsAll (h : Placed x above (node n ts)) : n.id ∉ idsAll ts :=
  (List.nodup_cons.mp h.nodup).1

lemma child (h : Placed x above (node n ts)) (ht : t ∈ ts) : Placed x above t where
  nodup := by
    have hsub : t.ids.Sublist (idsAll ts) := by
      clear h
      induction ts with
      | nil => simp at ht
      | cons u us ih =>
          rw [idsAll_cons]
          rcases List.mem_cons.mp ht with rfl | ht
          · exact List.sublist_append_left _ _
          · exact (ih ht).trans (List.sublist_append_right _ _)
    exact h.nodup_idsAll.sublist hsub
  leaf m hm := h.leaf m (List.mem_cons_of_mem _ (mem_labelsAll.mpr ⟨t, ht, hm⟩))
  above_iff s hs := h.above_iff s (List.mem_cons_of_mem _ (mem_partsAll.mpr ⟨t, ht, hs⟩))

lemma above_root (h : Placed x above (node n ts)) :
    above n.id ↔ n.kind.static = .decorator .reset false ∧ x ∈ idsAll ts :=
  h.above_iff (node n ts) (self_mem_parts _)

end Branch.Placed

/-! ## What a watch knows of the engine's records -/

namespace Watch

/-- The watch agrees with what is recorded at the leaf. -/
def Fits (w : Watch) (s : NodeState) : Prop :=
  w.phase = (if s.started then .running else .idle) ∧
    s.activations.toNat = min (UInt32.size - 1) w.starts

/-- The watch agrees with what is recorded at the leaf, if it is among the nodes. -/
def Agrees (x : NodeId) (w : Watch) (nodes : List (Node L)) : Prop :=
  ∀ n ∈ nodes, n.id = x → w.Fits n.state

/-- A watch can follow what happens, and afterwards agrees with the nodes.  It stays as it is if the
leaf is not among the nodes of the given identities. -/
def Follows (x : NodeId) (above : NodeId → Prop) (w : Watch) (ids : List NodeId) (trace : Trace)
    (nodes : List (Node L)) : Prop :=
  ∃ v, v.Settled ∧ Run x above w (trace.map .event) v ∧ Agrees x v nodes ∧ (x ∉ ids → v = w)

variable {w v : Watch} {nodes : List (Node L)}

lemma agrees_of_not_mem (h : x ∉ nodes.map Node.id) : Agrees x w nodes :=
  fun n hn hid => absurd (List.mem_map.mpr ⟨n, hn, hid⟩) h

lemma Agrees.append {ms : List (Node L)} (h : Agrees x w nodes) (h' : Agrees x w ms) :
    Agrees x w (nodes ++ ms) := by
  intro n hn
  rcases List.mem_append.mp hn with hn | hn
  · exact h n hn
  · exact h' n hn

lemma agrees_cons {n : Node L} (h : n.id = x → w.Fits n.state) (h' : Agrees x w nodes) :
    Agrees x w (n :: nodes) := by
  intro m hm hid
  rcases List.mem_cons.mp hm with rfl | hm
  · exact h hid
  · exact h' m hm hid

/-- What a branch without the leaf does to the watch is nothing, and a branch without the leaf
agrees with every watch. -/
lemma Agrees.carry {ids : List NodeId} (h : Agrees x w nodes) (hsame : x ∉ ids → v = w)
    (hdisj : ∀ id ∈ nodes.map Node.id, id ∉ ids) : Agrees x v nodes := by
  by_cases hx : x ∈ ids
  · exact agrees_of_not_mem fun hmem => hdisj x hmem hx
  · rw [hsame hx]
    exact h

/-! ### Single events -/

/-- Events that are not hook calls of the leaf. -/
lemma Run.of_events {trace : Trace} (hw : w.Settled)
    (h : ∀ e ∈ trace, Moment.hookOf? x (.event e) = none) :
    Run x above w (trace.map .event) w := by
  refine Run.elsewhere hw fun m hm => ?_
  obtain ⟨e, he, rfl⟩ := List.mem_map.mp hm
  exact h e he

end Watch

/-! ## One node -/

namespace Node

variable [Behavior L δ]

/-- What happens when a node begins an activation concerns the node alone. -/
lemma hookOf?_begin {n : Node L} (hid : n.id ≠ x) (scene : Scene δ) :
    ∀ e ∈ (n.begin scene).2.2, Moment.hookOf? x (.event e) = none := by
  obtain ⟨id, kind, state⟩ := n
  rw [begin]
  split
  · simp
  · cases kind <;> simp [activate, Moment.hookOf?]
    exact hid

/-- What happens when the poll of a node ends concerns the node alone. -/
lemma hookOf?_conclude {n : Node L} (hid : n.id ≠ x) (status : Status) (scene : Scene δ) :
    ∀ e ∈ (n.conclude status scene).2.2, Moment.hookOf? x (.event e) = none := by
  obtain ⟨id, kind, state⟩ := n
  rw [conclude]
  split
  · cases kind <;> simp [Moment.hookOf?]
    exact hid
  · simp

lemma clearsOn_iff {n : Node L} {status : Status} :
    n.clearsOn status = true ↔ n.kind.static = .decorator .reset false ∧ status = .failure := by
  obtain ⟨id, kind, state⟩ := n
  cases kind with
  | root => simp [clearsOn, NodeKind.static]
  | composite => simp [clearsOn, NodeKind.static]
  | decorator rule gate =>
      cases rule <;> cases status <;> simp [clearsOn, NodeKind.static, DecoratorRule.resetsOn]
  | leaf l => simp [clearsOn, NodeKind.static]

end Node

section Leaf

variable [Behavior L δ] {n : Node L} {w : Watch}

/-- A watch can follow the beginning of the poll of its leaf, and then an update is due. -/
lemma exists_run_begin (above : NodeId → Prop) {l : L} (hkind : n.kind = .leaf l)
    (hfits : w.Fits n.state) (scene : Scene δ) : ∃ p k, (p = Phase.begun ∨ p = .running) ∧
      Watch.Run n.id above w ((n.begin scene).2.2.map .event) ⟨p, k⟩ ∧
      (n.begin scene).1.state.started = true ∧
      (n.begin scene).1.state.activations.toNat = min (UInt32.size - 1) k ∧
      ∃ l', (n.begin scene).1.kind = .leaf l' := by
  obtain ⟨phase, k⟩ := w
  obtain ⟨hphase, hcount⟩ := hfits
  simp only at hphase hcount
  rw [Node.begin]
  split
  · next hstarted =>
      refine ⟨phase, k, .inr ?_, .nil _, hstarted, hcount, l, hkind⟩
      rw [hphase, if_pos hstarted]
  · next hstarted =>
      rw [if_neg hstarted] at hphase
      subst hphase
      have hfirst : (n.state.activations == 0) = (k == 0) := by
        have hzero : n.state.activations = 0 ↔ k = 0 := by
          rw [← UInt32.toNat_inj, hcount]
          have hsize : UInt32.size = 4294967296 := rfl
          simp only [UInt32.reduceToNat]
          omega
        rw [Bool.eq_iff_iff, beq_iff_eq, beq_iff_eq, hzero]
      have hcount' := n.state.toNat_activate
      refine ⟨.begun, k + 1, .inl rfl, ?_, ?_, ?_, ?_⟩
      · rw [Node.activate, hkind]
        simp only [List.map_cons, List.map_nil, hfirst]
        exact .cons (.passes (.inl rfl) rfl) (.single (.begins k))
      · rw [Node.activate, hkind]
        rfl
      · rw [Node.activate, hkind]
        simp only
        omega
      · rw [Node.activate, hkind]
        exact ⟨_, rfl⟩

/-- A watch can follow the poll of its leaf. -/
lemma poll_leaf_follows {l : L} (hkind : n.kind = .leaf l) {ts : List (Branch (Node L))}
    (hts : n.id ∉ idsAll ts) (hw : w.Settled) (hfits : w.Fits n.state) (scene : Scene δ) :
    Watch.Follows n.id above w (node n ts).ids ((node n ts).poll scene).trace
      ((node n ts).poll scene).part.labels := by
  obtain ⟨p, k, hp, hbegin, hstarted, hcount, l', hkind'⟩ :=
    exists_run_begin above hkind hfits scene
  rw [poll_node, Node.run_leaf hkind']
  have hid := n.id_begin scene
  generalize n.begin scene = b at hbegin hstarted hcount hkind' hid
  obtain ⟨⟨id, kind, state⟩, scene', begun⟩ := b
  simp only at hid hkind' hstarted hcount hbegin
  subst hid
  generalize Behavior.onUpdate n.id l' scene' = r
  obtain ⟨status, l'', scene''⟩ := r
  have hrest : ∀ v : Watch, Watch.Agrees n.id v (labelsAll ts) :=
    fun v => Watch.agrees_of_not_mem hts
  have henter : Watch.Run n.id above w
      ((.enter n.id :: begun : Trace).map .event) ⟨p, k⟩ := .cons (.passes hw rfl) hbegin
  cases hs : status.isTerminal with
  | false =>
      have hrunning := Status.isTerminal_eq_false_iff.mp hs
      subst hrunning
      refine ⟨⟨.running, k⟩, .inr rfl, ?_, ?_, fun hx => absurd List.mem_cons_self hx⟩
      · have hupdate : Watch.Run n.id above ⟨p, k⟩ (([.hook n.id (.update .running),
            .leave n.id .running] : Trace).map .event) ⟨.running, k⟩ :=
          .cons (.goesOn k hp) (.single (.passes (.inr rfl) rfl))
        have hrun := henter.append hupdate
        rw [← List.map_append] at hrun
        simpa [Outcome.conclude, Node.conclude, hs] using hrun
      · simp only [Outcome.conclude, Node.conclude, hs, Bool.false_eq_true, if_false]
        exact Watch.agrees_cons (fun _ => ⟨(if_pos hstarted).symm, hcount⟩) (hrest _)
  | true =>
      refine ⟨⟨.idle, k⟩, .inl rfl, ?_, ?_, fun hx => absurd List.mem_cons_self hx⟩
      · have hupdate : Watch.Run n.id above ⟨p, k⟩ (([.hook n.id (.update status),
            .hook n.id .stop, .leave n.id status] : Trace).map .event) ⟨.idle, k⟩ :=
          .cons (.ends k hp hs) (.cons (.stops k) (.single (.passes (.inl rfl) rfl)))
        have hrun := henter.append hupdate
        rw [← List.map_append] at hrun
        simpa [Outcome.conclude, Node.conclude, hs] using hrun
      · simp only [Outcome.conclude, Node.conclude, hs, if_true]
        exact Watch.agrees_cons (fun _ => ⟨rfl, hcount⟩) (hrest _)

end Leaf

/-! ## Children -/

namespace Watch.Follows

variable {w : Watch} {ids ids' : List NodeId} {trace : Trace} {nodes others : List (Node L)}

/-- Nodes behind those of a branch keep their records. -/
lemma with_behind (h : Follows x above w ids trace nodes) (hothers : Agrees x w others)
    (hdisj : ∀ id ∈ others.map Node.id, id ∉ ids) :
    Follows x above w (ids ++ ids') trace (nodes ++ others) := by
  obtain ⟨v, hv, hrun, hagrees, hsame⟩ := h
  refine ⟨v, hv, hrun, hagrees.append (hothers.carry hsame hdisj), fun hx => ?_⟩
  exact hsame fun hmem => hx (List.mem_append_left _ hmem)

/-- Nodes in front of those of branches keep their records. -/
lemma with_before (h : Follows x above w ids trace nodes) (hothers : Agrees x w others)
    (hdisj : ∀ id ∈ others.map Node.id, id ∉ ids) :
    Follows x above w (ids' ++ ids) trace (others ++ nodes) := by
  obtain ⟨v, hv, hrun, hagrees, hsame⟩ := h
  refine ⟨v, hv, hrun, (hothers.carry hsame hdisj).append hagrees, fun hx => ?_⟩
  exact hsame fun hmem => hx (List.mem_append_right _ hmem)

end Watch.Follows

/-- A watch can follow every poll of a branch, if it agrees with the branch before. -/
def Branch.Followed [Behavior L δ] (x : NodeId) (above : NodeId → Prop) (t : Branch (Node L)) :
    Prop :=
  ∀ (w : Watch) (scene : Scene δ), w.Settled → w.Agrees x t.labels →
    w.Follows x above t.ids (t.poll scene).trace (t.poll scene).part.labels

section Children

variable [Behavior L δ] {ts : List (Branch (Node L))}

/-- The identities of a child are not those of the children behind it. -/
lemma disjoint_of_nodup {t : Branch (Node L)} (h : (idsAll (t :: ts)).Nodup) :
    ∀ id ∈ t.ids, id ∉ idsAll ts := by
  rw [idsAll_cons, List.nodup_append] at h
  exact fun id hid hmem => h.2.2 id hid id hmem rfl

lemma nodup_tail {t : Branch (Node L)} (h : (idsAll (t :: ts)).Nodup) : (idsAll ts).Nodup := by
  rw [idsAll_cons, List.nodup_append] at h
  exact h.2.1

/-- A watch can follow the poll of the first of several branches. -/
lemma Branch.Followed.head {t : Branch (Node L)} (h : t.Followed x above)
    (hnodup : (idsAll (t :: ts)).Nodup) {w : Watch} (hw : w.Settled)
    (hagrees : w.Agrees x (labelsAll (t :: ts))) (scene : Scene δ) :
    w.Follows x above (idsAll (t :: ts)) (t.poll scene).trace
      (labelsAll ((t.poll scene).part :: ts)) := by
  have hhead := h w scene hw fun n hn => hagrees n (List.mem_append_left _ hn)
  have hrest : w.Agrees x (labelsAll ts) := fun n hn => hagrees n (List.mem_append_right _ hn)
  rw [idsAll_cons]
  exact hhead.with_behind hrest fun id hid hmem => disjoint_of_nodup hnodup id hmem hid

/-- A watch can follow polling the first child. -/
lemma pollFirst_follows (hnodup : (idsAll ts).Nodup) (ih : ∀ t ∈ ts, t.Followed x above)
    {w : Watch} (hw : w.Settled) (hagrees : w.Agrees x (labelsAll ts)) (scene : Scene δ) :
    w.Follows x above (idsAll ts) (pollFirst ts scene).trace
      (labelsAll (pollFirst ts scene).part) := by
  cases ts with
  | nil => exact ⟨w, hw, .nil w, hagrees, fun _ => rfl⟩
  | cons t ts => exact (ih t List.mem_cons_self).head hnodup hw hagrees scene

/-- A watch can follow polling the children of a composite from the cursor on. -/
lemma Onward.follows {id : NodeId} {kind : CompositeKind} {cascade : Bool} {skip : Nat}
    {scene : Scene δ} {o : Outcome (Nat × List (Branch (Node L))) δ}
    (h : Onward id kind cascade skip ts scene o) (hnodup : (idsAll ts).Nodup)
    (ih : ∀ t ∈ ts, t.Followed x above) {w : Watch} (hw : w.Settled)
    (hagrees : w.Agrees x (labelsAll ts)) :
    w.Follows x above (idsAll ts) o.trace (labelsAll o.part.2) := by
  induction h generalizing w with
  | exhausted => exact ⟨w, hw, .nil w, hagrees, fun _ => rfl⟩
  | @skips skip t ts scene o _ ihs =>
      have hrest := ihs (nodup_tail hnodup) (fun u hu => ih u (List.mem_cons_of_mem _ hu)) hw
        fun n hn => hagrees n (List.mem_append_right _ hn)
      rw [idsAll_cons]
      exact hrest.with_before (fun n hn => hagrees n (List.mem_append_left _ hn))
        (disjoint_of_nodup hnodup)
  | @stops t ts scene _ => exact (ih t List.mem_cons_self).head hnodup hw hagrees scene
  | @ends t scene _ => exact (ih t List.mem_cons_self).head hnodup hw hagrees scene
  | @cascades t u us scene o _ _ _ ihs =>
      obtain ⟨v, hv, hrun, hagrees', hsame⟩ :=
        (ih t List.mem_cons_self).head hnodup hw hagrees scene
      have hrest := ihs (nodup_tail hnodup) (fun u hu => ih u (List.mem_cons_of_mem _ hu)) hv
        fun n hn => hagrees' n (List.mem_append_right _ hn)
      have hids : (t.poll scene).part.labels.map Node.id = t.ids := ids_poll t scene
      have hall : v.Follows x above (idsAll (t :: u :: us)) o.trace
          (labelsAll ((t.poll scene).part :: o.part.2)) := by
        rw [idsAll_cons]
        refine hrest.with_before (fun n hn => hagrees' n (List.mem_append_left _ hn)) ?_
        rw [hids]
        exact disjoint_of_nodup hnodup
      obtain ⟨v', hv', hrun', hagrees'', hsame'⟩ := hall
      refine ⟨v', hv', ?_, hagrees'', fun hx => (hsame' hx).trans (hsame hx)⟩
      rw [Outcome.trace_after, List.map_append]
      exact hrun.append hrun'
  | @pauses t u us scene _ _ =>
      obtain ⟨v, hv, hrun, hagrees', hsame⟩ :=
        (ih t List.mem_cons_self).head hnodup hw hagrees scene
      refine ⟨v, hv, ?_, hagrees', hsame⟩
      rw [List.map_append]
      exact hrun.append (.single (.passes hv rfl))

end Children

/-! ## Whole branches -/

section Poll

variable [Behavior L δ]

/-- A watch can follow the running of a node that is not its leaf. -/
lemma Node.run_follows {n : Node L} {ts : List (Branch (Node L))}
    {first : Scene δ → Outcome (List (Branch (Node L))) δ}
    {onward : CompositeKind → Bool → Nat → Scene δ → Outcome (Nat × List (Branch (Node L))) δ}
    {scene : Scene δ} {w : Watch} (hid : n.id ≠ x) (hw : w.Settled)
    (hagrees : w.Agrees x (labelsAll ts))
    (hfirst : w.Follows x above (idsAll ts) (first scene).trace (labelsAll (first scene).part))
    (honward : ∀ kind cascade cursor,
      w.Follows x above (idsAll ts) (onward kind cascade cursor scene).trace
        (labelsAll (onward kind cascade cursor scene).part.2)) :
    w.Follows x above (idsAll ts) (n.run ts first onward scene).trace
      (labelsAll (n.run ts first onward scene).part.children) := by
  cases hk : n.kind with
  | root => rw [run_root hk]; exact hfirst
  | composite kind cascade cursor => rw [run_composite hk]; exact honward kind cascade cursor
  | decorator rule gate =>
      cases ha : admits rule gate scene.board with
      | true => rw [run_admitted hk ha]; exact hfirst
      | false => rw [run_refused hk ha]; exact ⟨w, hw, .nil w, hagrees, fun _ => rfl⟩
  | leaf l =>
      rw [run_leaf hk]
      refine ⟨w, hw, ?_, hagrees, fun _ => rfl⟩
      exact .single (.passes hw (by simp [Moment.hookOf?, hid]))

/-- Nodes that have been cleared agree with a watch whose activation was broken off. -/
lemma agrees_settle {m : Node L} {status : Status} {ts : List (Branch (Node L))} {w : Watch}
    (hclears : m.clearsOn status = true) (hagrees : w.Agrees x (labelsAll ts)) :
    Watch.Agrees x ⟨.idle, w.starts⟩ (labelsAll (m.settle status ts)) := by
  rw [Node.settle, if_pos hclears, ← mapAll_eq_map, labelsAll_mapAll]
  intro n hn hid
  obtain ⟨n', hn', rfl⟩ := List.mem_map.mp hn
  exact ⟨rfl, (hagrees n' hn' hid).2⟩

lemma idsAll_settle (m : Node L) (status : Status) (ts : List (Branch (Node L))) :
    idsAll (m.settle status ts) = idsAll ts := by
  rw [Node.settle]
  split
  · rw [← mapAll_eq_map, idsAll, labelsAll_mapAll, List.map_map]
    rfl
  · rfl

/-- A watch can follow the end of the poll of a node that is not its leaf. -/
lemma Outcome.conclude_follows {o : Outcome (Branch (Node L)) δ} {begun : Trace} {w : Watch}
    (hid : o.part.label.id ≠ x) (hw : w.Settled)
    (hbegun : ∀ e ∈ begun, Moment.hookOf? x (.event e) = none)
    (habove : above o.part.label.id ↔
      o.part.label.kind.static = .decorator .reset false ∧ x ∈ idsAll o.part.children)
    (hran : w.Follows x above (idsAll o.part.children) o.trace (labelsAll o.part.children)) :
    w.Follows x above o.part.ids (o.conclude o.part.label.id begun).trace
      (o.conclude o.part.label.id begun).part.labels := by
  obtain ⟨status, ⟨m, us⟩, scene, trace⟩ := o
  obtain ⟨v, hv, hrun, hagrees, hsame⟩ := hran
  simp only [label_node, children_node] at hid habove hrun hagrees hsame
  have hstatic := m.static_conclude status scene
  have hended := Node.hookOf?_conclude hid status scene
  simp only [Outcome.conclude, label_node, children_node]
  generalize m.conclude status scene = c at hstatic hended
  obtain ⟨m', scene', ended⟩ := c
  simp only at hstatic hended
  have hid' : m'.id ≠ x := by rwa [Node.id_eq_of_static hstatic]
  have hbody : Watch.Run x above w ((.enter m.id :: begun ++ trace ++ ended).map .event) v := by
    have hbefore : Watch.Run x above w ((.enter m.id :: begun).map .event) w :=
      .cons (.passes hw rfl) (.of_events hw hbegun)
    rw [List.map_append, List.map_append]
    exact (hbefore.append hrun).append (.of_events hv hended)
  have hsame' : x ∉ (node m us).ids → v = w := fun hx =>
    hsame fun hmem => hx (List.mem_cons_of_mem _ hmem)
  have hpasses : Watch.Run x above w ((Event.enter m.id :: begun ++ trace ++ ended ++
      [Event.leave m.id status]).map .event) v := by
    rw [List.map_append]
    exact hbody.append (.single (.passes hv rfl))
  cases hclears : m'.clearsOn status with
  | false =>
      refine ⟨v, hv, hpasses, Watch.agrees_cons (fun h => absurd h hid') ?_, hsame'⟩
      rwa [Node.settle, if_neg (by rw [hclears]; exact Bool.false_ne_true)]
  | true =>
      obtain ⟨hreset, rfl⟩ := Node.clearsOn_iff.mp hclears
      by_cases hx : x ∈ idsAll us
      · -- the reset stands above the leaf and breaks off its activation
        have habove' : above m.id := by
          refine habove.mpr ⟨?_, hx⟩
          rwa [← Node.kind_eq_of_static hstatic]
        refine ⟨⟨.idle, v.starts⟩, .inl rfl, ?_, ?_, fun h => ?_⟩
        · rw [List.map_append]
          exact hbody.append (.single (.breaksOff hv rfl ⟨habove', rfl⟩))
        · exact Watch.agrees_cons (fun h => absurd h hid') (agrees_settle hclears hagrees)
        · exact absurd (List.mem_cons_of_mem _ hx) h
      · refine ⟨v, hv, hpasses, Watch.agrees_cons (fun h => absurd h hid') ?_, hsame'⟩
        refine Watch.agrees_of_not_mem ?_
        rwa [← idsAll, idsAll_settle]

/-- **A watch can follow every poll of a branch.** -/
theorem Branch.poll_followed (t : Branch (Node L)) (h : t.Placed x above) : t.Followed x above := by
  induction t with
  | node n ts ih =>
      intro w scene hw hagrees
      by_cases hid : n.id = x
      · -- the leaf itself
        subst hid
        have hstatic := h.leaf n List.mem_cons_self rfl
        obtain ⟨l, hkind⟩ : ∃ l, n.kind = .leaf l := by
          cases hk : n.kind with
          | leaf l => exact ⟨l, rfl⟩
          | _ => rw [hk] at hstatic; cases hstatic
        exact poll_leaf_follows hkind h.not_mem_idsAll hw (hagrees n List.mem_cons_self rfl) scene
      · have hfollowed : ∀ t ∈ ts, t.Followed x above := fun t ht => ih t ht (h.child ht)
        have hts : w.Agrees x (labelsAll ts) := fun m hm =>
          hagrees m (List.mem_cons_of_mem _ hm)
        have hstatic := map_static_poll (node n ts) scene
        rw [poll_node, Outcome.map_static_conclude] at hstatic
        rw [poll_node]
        have hran := Node.run_follows (n := (n.begin scene).1) (by rwa [Node.id_begin]) hw hts
          (pollFirst_follows h.nodup_idsAll hfollowed hw hts (n.begin scene).2.1)
          fun kind cascade cursor =>
            (pollFrom_onward (n.begin scene).1.id kind cascade cursor ts _).follows h.nodup_idsAll
              hfollowed hw hts
        have hbegun := Node.hookOf?_begin hid scene
        generalize (n.begin scene).1.run ts _ _ (n.begin scene).2.1 = o at hran hstatic
        obtain ⟨status, ⟨m, us⟩, scene', trace⟩ := o
        have hids : m.id = n.id ∧ idsAll us = idsAll ts := by
          simpa using ids_of_static hstatic
        have hkind : m.kind.static = n.kind.static := by
          have hlabel := congrArg label hstatic
          rw [label_map, label_map] at hlabel
          exact Node.kind_eq_of_static hlabel
        have habove := h.above_root
        rw [← hids.1, ← hids.2, ← hkind] at habove
        rw [ids_node, Node.id_begin, ← hids.1, ← hids.2]
        have hid' : m.id ≠ x := by rwa [hids.1]
        rw [← hids.2] at hran
        exact Outcome.conclude_follows (o := ⟨status, node m us, scene', trace⟩) hid' hw hbegun
          habove hran

end Poll

/-! ## Runs -/

/-- Where the leaf stands depends on the static tree alone. -/
lemma Branch.Placed.of_static {b c : Branch (Node L)} (h : b.Placed x above)
    (hstatic : c.map Node.static = b.map Node.static) : c.Placed x above where
  nodup := by
    rw [ids_of_static hstatic]
    exact h.nodup
  leaf n hn hid := by
    obtain ⟨m, hm, heq⟩ := exists_label_of_static hstatic hn
    rw [← Node.kind_eq_of_static heq]
    exact h.leaf m hm (by rw [Node.id_eq_of_static heq, hid])
  above_iff s hs := by
    obtain ⟨u, hu, heq⟩ := exists_part_of_static hstatic hs
    obtain ⟨m, us⟩ := u
    obtain ⟨n, ts⟩ := s
    have hids : m.id = n.id ∧ idsAll us = idsAll ts := by
      simpa using ids_of_static heq
    have hlabel : m.static = n.static := by simpa using congrArg label heq
    have habove := h.above_iff _ hu
    rwa [label_node, children_node, hids.1, hids.2, Node.kind_eq_of_static hlabel] at habove

section Steps

variable [Behavior L δ] {b c : Branch (Node L)} {moments : List Moment} {w : Watch}

/-- A watch can follow every call. -/
lemma Branch.Step.followed (h : Step b moments c) (hplaced : b.Placed x above) (hw : w.Settled)
    (hagrees : w.Agrees x b.labels) :
    ∃ v, v.Settled ∧ Watch.Run x above w moments v ∧ v.Agrees x c.labels := by
  cases h with
  | rests => exact ⟨w, hw, .nil w, hagrees⟩
  | polls scene =>
      obtain ⟨v, hv, hrun, hagrees', _⟩ := b.poll_followed hplaced w scene hw hagrees
      exact ⟨v, hv, hrun, hagrees'⟩
  | rearms =>
      refine ⟨⟨.idle, w.starts⟩, .inl rfl, .single (.breaksOff hw rfl trivial), ?_⟩
      intro n hn hid
      obtain ⟨m, hm, rfl⟩ := mem_labels_map.mp hn
      exact ⟨rfl, (hagrees m hm hid).2⟩

/-- **A watch can follow every run.** -/
theorem Branch.Steps.followed (h : Steps b moments c) (hplaced : b.Placed x above)
    (hw : w.Settled) (hagrees : w.Agrees x b.labels) :
    ∃ v, v.Settled ∧ Watch.Run x above w moments v ∧ v.Agrees x c.labels := by
  induction h generalizing w with
  | none => exact ⟨w, hw, .nil w, hagrees⟩
  | cons hnow _ ih =>
      obtain ⟨v, hv, hrun, hagrees'⟩ := hnow.followed hplaced hw hagrees
      obtain ⟨u, hu, hrun', hagrees''⟩ := ih (hplaced.of_static hnow.map_static) hv hagrees'
      exact ⟨u, hu, hrun.append hrun', hagrees''⟩

end Steps

namespace Tree

/-- The identities of the resets above the node at a position. -/
def ResetAbove (t : Tree L) (position : Nat) (r : NodeId) : Prop :=
  ∃ i slot gate, t.arena[i]? = some slot ∧ slot.label.id = r ∧
    slot.label.kind = .decorator .reset gate ∧ position ∈ Slot.below t.arena i

lemma static_eq_reset_iff {kind : NodeKind L} :
    kind.static = .decorator .reset false ↔ ∃ gate, kind = .decorator .reset gate := by
  cases kind <;> simp [NodeKind.static]

/-- A position stands below another one if its node stands in a subtree there. -/
lemma Shows.mem_below_iff {t : Tree L} {b s : Branch (Node L)} (h : t.Shows b) {i p : Nat}
    {slot : Slot (Node L)} (hs : b.parts[i]? = some s) (hslot : t.arena[p]? = some slot) :
    p ∈ Slot.below t.arena i ↔ slot.label.id ∈ idsAll s.children := by
  have hholds := h.holds_part hs
  have hsize : s.size - 1 = sizeAll s.children := by
    obtain ⟨n, ts⟩ := s
    rw [size_node, Nat.add_sub_cancel_left, children_node]
  rw [Slot.below_of_holds hholds, List.mem_range'_1, hsize]
  constructor
  · rintro ⟨hle, hlt⟩
    have hbelow := hholds.getElem?_below (k := p - (i + 1)) (by omega)
    rw [show i + 1 + (p - (i + 1)) = p by omega, hslot] at hbelow
    exact List.mem_map_of_mem (List.mem_of_getElem? hbelow.symm)
  · intro hmem
    obtain ⟨n, hn, hid⟩ := List.mem_map.mp hmem
    obtain ⟨k, hk⟩ := List.mem_iff_getElem?.mp hn
    have hlt : k < sizeAll s.children := by
      have := (List.getElem?_eq_some_iff.mp hk).1
      rwa [← length_partsAll, ← List.length_map (f := label), ← labelsAll_eq_map_partsAll]
    have hbelow := hholds.getElem?_below hlt
    rw [hk] at hbelow
    obtain ⟨slot', hslot', hlabel⟩ := Option.map_eq_some_iff.mp hbelow
    have := h.eq_of_id hslot hslot' (by rw [hlabel, hid])
    omega

/-- A leaf of a tree stands where its position says. -/
lemma Shows.placed {t : Tree L} {b : Branch (Node L)} (h : t.Shows b) {p : Nat}
    {slot : Slot (Node L)} (hslot : t.arena[p]? = some slot) {l : L}
    (hleaf : slot.label.kind = .leaf l) : b.Placed slot.label.id (t.ResetAbove p) where
  nodup := h.nodup
  leaf n hn hid := by
    rw [labels_eq_map_parts] at hn
    obtain ⟨s, hs, rfl⟩ := List.mem_map.mp hn
    obtain ⟨i, hi⟩ := List.mem_iff_getElem?.mp hs
    have harena := (h.holds_part hi).getElem?
    have heq := h.eq_of_id harena hslot hid
    subst heq
    rw [harena, Option.some.injEq] at hslot
    rw [show s.label = slot.label by rw [← hslot]; rfl, hleaf]
    rfl
  above_iff s hs := by
    obtain ⟨i, hi⟩ := List.mem_iff_getElem?.mp hs
    have harena := (h.holds_part hi).getElem?
    rw [static_eq_reset_iff, ← h.mem_below_iff hi hslot]
    constructor
    · rintro ⟨j, slot', gate, hslot', hid, hkind, hbelow⟩
      have heq := h.eq_of_id harena hslot' hid.symm
      subst heq
      rw [harena, Option.some.injEq] at hslot'
      subst hslot'
      exact ⟨⟨gate, hkind⟩, hbelow⟩
    · rintro ⟨⟨gate, hkind⟩, hbelow⟩
      exact ⟨i, _, gate, harena, rfl, hkind, hbelow⟩

variable [Behavior L δ]

/-- **The life of a leaf.**  Whatever the owner of a fresh tree does, the hook calls of a leaf are a
lifecycle, and the leaf counts its activations, up to the largest 32-bit number. -/
theorem Fresh.leaf_lifecycle {t : Tree L} (h : t.Fresh) (calls : List (Call δ)) {p : Nat}
    {slot : Slot (Node L)} (hslot : t.arena[p]? = some slot) {l : L}
    (hleaf : slot.label.kind = .leaf l) :
    Lifecycle slot.label.id (t.ResetAbove p) (t.performAll calls).2 ∧
      ∃ now, (t.performAll calls).1.arena[p]? = some now ∧ now.label.id = slot.label.id ∧
        now.label.state.activations.toNat =
          min (UInt32.size - 1) (startsOf slot.label.id (t.performAll calls).2) := by
  obtain ⟨b, hb⟩ := h.pristine
  obtain ⟨c, hc, hsteps⟩ := hb.toShows.performAll calls
  have hagrees : Watch.new.Agrees slot.label.id b.labels := by
    intro n hn _
    rw [hb.state_eq_fresh hn]
    exact ⟨rfl, rfl⟩
  obtain ⟨v, hv, hrun, hagrees'⟩ :=
    hsteps.followed (hb.toShows.placed hslot hleaf) (.inl rfl) hagrees
  refine ⟨hrun.lifecycle hv, ?_⟩
  obtain ⟨now, hnow, hstatic, hmem⟩ := hb.toShows.exists_slot hc hsteps.map_static hslot
  have hid := Node.id_eq_of_static hstatic
  have hstarts := hrun.starts_eq
  rw [show Watch.new.starts = 0 from rfl, Nat.zero_add] at hstarts
  refine ⟨now, hnow, hid, ?_⟩
  rw [← hstarts]
  exact (hagrees' _ hmem hid).2

/-- A leaf below a gate that closes, below a reset: its activation is broken off, and the next one
begins without a stop. -/
theorem lifecycle_of_reset :
    let t : Tree Constant := ofBranch (.node (.fresh ⟨0⟩ .root)
      [.node (.fresh ⟨1⟩ (.decorator .reset false))
        [.node (.fresh ⟨2⟩ (.decorator (.hasValue "k" false false) false))
          [.node (.fresh ⟨3⟩ (.leaf .running)) []]]])
    let run := t.performAll [.start, .edit (·.set "k" (.bool true)), .update (),
      .edit (·.remove "k"), .update (), .rearm, .edit (·.set "k" (.bool true)), .update ()]
    Tree.build .standard (some (.decorate .reset (.hasValue "k" (.leaf none Constant.running)))) =
        .ok t ∧
      Lifecycle ⟨3⟩ (t.ResetAbove 3) run.2 ∧
      hooksOf ⟨3⟩ run.2 = [.start true, .update .running, .start false, .update .running] := by
  intro t run
  have hbuild : Tree.build .standard
      (some (.decorate .reset (.hasValue "k" (.leaf none Constant.running)))) = .ok t := rfl
  have hslot : t.arena[3]? = some ⟨.fresh ⟨3⟩ (.leaf .running), []⟩ := rfl
  refine ⟨hbuild, ((Fresh.built .standard _ hbuild).leaf_lifecycle _ hslot rfl).1, ?_⟩
  decide +kernel

end Tree

end BehaviorTree
