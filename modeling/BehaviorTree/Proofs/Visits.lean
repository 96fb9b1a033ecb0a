import BehaviorTree.Proofs.Turns

/-!
# The course of a poll

A `Visit` is the moment at which a poll comes to a node, at any depth, with the whole tree as it is
then.  Nodes below the polled one are visited when their turn comes.

* **`Visits.part`** — a poll finds each node that it comes to as it was when the poll began, with
  everything below it.  **`Visits.infix_trace`**: the visit is a stretch of the trace.
* **`Branch.poll_part`** — seen from one part of the tree, a poll passes over it, or it polls that
  part once.  Afterwards a reset above may have cleared the part.
* **`Visits.now_part`** — the same up to a visit: at that moment the part has been met before, or
  the visit is one of those below its root.
* `Tree.ComesTo` — the visits in the course of an update.
-/

namespace BehaviorTree

open Branch

variable {L δ : Type}

/-! ## Parts at their positions -/

namespace Branch

variable {α : Type}

lemma getElem?_layout_part {t s : Branch α} {k : Nat} (hs : t.parts[k]? = some s) :
    (t.layout 0)[k]? = some (slotAt k s) := by
  rw [getElem?_layout, hs, Nat.zero_add, Option.map_some]

/-- A part of one of several branches is a part of the branch that begins so much earlier. -/
lemma exists_child_of_partsAll {ts : List (Branch α)} {k : Nat} {s : Branch α}
    (h : (partsAll ts)[k]? = some s) :
    ∃ before t after j, ts = before ++ t :: after ∧ k = sizeAll before + j ∧
      t.parts[j]? = some s := by
  induction ts generalizing k with
  | nil => simp [partsAll] at h
  | cons t ts ih =>
      rw [partsAll, List.getElem?_append, length_parts] at h
      split at h
      · exact ⟨[], t, ts, k, rfl, by simp, h⟩
      · next hk =>
          obtain ⟨before, u, after, j, rfl, hj, hs⟩ := ih h
          refine ⟨t :: before, u, after, j, rfl, ?_, hs⟩
          rw [sizeAll_cons]
          omega

lemma getElem?_partsAll {before after : List (Branch α)} {t s : Branch α} {j : Nat}
    (h : t.parts[j]? = some s) :
    (partsAll (before ++ t :: after))[sizeAll before + j]? = some s := by
  induction before with
  | nil =>
      have hlt := (List.getElem?_eq_some_iff.mp h).1
      rw [List.nil_append, partsAll, sizeAll_nil, Nat.zero_add, List.getElem?_append_left hlt, h]
  | cons u before ih =>
      rw [List.cons_append, partsAll, sizeAll_cons, List.getElem?_append_right
        (by rw [length_parts]; omega), length_parts, Nat.add_assoc, Nat.add_sub_cancel_left, ih]

lemma sizeAll_of_static {ts us : List (Branch (Node L))}
    (h : us.map (map Node.static) = ts.map (map Node.static)) : sizeAll us = sizeAll ts := by
  have heq := congrArg sizeAll h
  simpa only [← mapAll_eq_map, sizeAll_mapAll] using heq

/-- A branch that stands where a child stood has its parts where the child had them. -/
lemma getElem?_partsAll_of_static {before after us : List (Branch (Node L))}
    {t u s : Branch (Node L)} {j : Nat}
    (hstatic : us.map (map Node.static) = (before ++ t :: after).map (map Node.static))
    (hu : us[before.length]? = some u) (hs : u.parts[j]? = some s) :
    (partsAll us)[sizeAll before + j]? = some s := by
  have hlt := (List.getElem?_eq_some_iff.mp hu).1
  have hsplit : us = us.take before.length ++ u :: us.drop (before.length + 1) := by
    rw [← (List.getElem?_eq_some_iff.mp hu).2, List.getElem_cons_drop, List.take_append_drop]
  have hbefore : sizeAll (us.take before.length) = sizeAll before := by
    refine sizeAll_of_static ?_
    have htake := congrArg (List.take before.length) hstatic
    simpa only [← List.map_take, List.take_left] using htake
  rw [hsplit, ← hbefore]
  exact getElem?_partsAll hs

/-! ## What resets above do to a part -/

/-- The part is as it was, or it has been cleared. -/
def Settled (s u : Branch (Node L)) : Prop := u = s ∨ u = s.map Node.clear

lemma settled_refl (s : Branch (Node L)) : Settled s s := .inl rfl

lemma map_clear_clear (s : Branch (Node L)) : (s.map Node.clear).map Node.clear =
    s.map Node.clear := map_map _ _ s

lemma Settled.trans {s u v : Branch (Node L)} (h : Settled s u) (h' : Settled u v) :
    Settled s v := by
  rcases h with rfl | rfl
  · exact h'
  · rcases h' with rfl | rfl
    · exact .inr rfl
    · exact .inr (map_clear_clear s)

/-- Clearing a branch clears its parts. -/
lemma Settled.part {t u s : Branch (Node L)} (h : Settled t u) {j : Nat}
    (hs : t.parts[j]? = some s) : ∃ r, u.parts[j]? = some r ∧ Settled s r := by
  rcases h with rfl | rfl
  · exact ⟨s, hs, .inl rfl⟩
  · refine ⟨s.map Node.clear, ?_, .inr rfl⟩
    rw [parts_map, List.getElem?_map, hs, Option.map_some]

lemma settled_settle {ts : List (Branch (Node L))} (n : Node L) (status : Status) {i : Nat}
    {t : Branch (Node L)} (ht : ts[i]? = some t) :
    ∃ u, (n.settle status ts)[i]? = some u ∧ Settled t u := by
  rw [Node.settle]
  split
  · exact ⟨t.map Node.clear, by rw [List.getElem?_map, ht, Option.map_some], .inr rfl⟩
  · exact ⟨t, ht, .inl rfl⟩

end Branch

/-! ## Visits -/

/-- The moment at which a poll comes to a node. -/
structure Visit (L δ : Type) where
  /-- What has happened since the poll of the whole tree began. -/
  early : Trace
  /-- The whole tree as it is. -/
  now : Branch (Node L)
  /-- Where in the tree the node stands. -/
  position : Nat
  /-- The node with everything below it. -/
  branch : Branch (Node L)
  scene : Scene δ

/-- The visits in the course of a poll: the one of the root, and those below its children when
their turn comes. -/
inductive Branch.Visits [Behavior L δ] : Branch (Node L) → Scene δ → Visit L δ → Prop
  | here (t : Branch (Node L)) (scene : Scene δ) : Visits t scene ⟨[], t, 0, t, scene⟩
  | under {n : Node L} {ts : List (Branch (Node L))} {scene : Scene δ} {turn : Turn L δ}
    {v : Visit L δ} : (n.begin scene).1.Polls ts (n.begin scene).2.1 turn →
    Visits turn.child turn.scene v →
    Visits (.node n ts) scene
      { early := .enter n.id :: (n.begin scene).2.2 ++ turn.early ++ v.early
        now := .node ((n.begin scene).1.movedOn turn.moves) (turn.done ++ v.now :: turn.rest)
        position := 1 + sizeAll turn.done + v.position
        branch := v.branch
        scene := v.scene }

namespace Branch.Visits

variable [Behavior L δ] {t : Branch (Node L)} {scene : Scene δ} {v : Visit L δ}

/-- **A poll finds each node that it comes to as it was when the poll began**, with everything below
it. -/
theorem part (h : t.Visits scene v) : t.parts[v.position]? = some v.branch := by
  induction h with
  | here t scene =>
      obtain ⟨n, ts⟩ := t
      rfl
  | @under n ts scene turn v hturn _ ih =>
      obtain ⟨before, rfl, hdone⟩ := hturn.split
      rw [parts, Nat.add_assoc, Nat.add_comm 1, List.getElem?_cons_succ, sizeAll_of_static hdone]
      exact getElem?_partsAll ih

/-- The visited node stands in the tree as it is then. -/
lemma part_now (h : t.Visits scene v) : v.now.parts[v.position]? = some v.branch := by
  induction h with
  | here t scene =>
      obtain ⟨n, ts⟩ := t
      rfl
  | @under n ts scene turn v hturn _ ih =>
      rw [parts, Nat.add_assoc, Nat.add_comm 1, List.getElem?_cons_succ]
      exact getElem?_partsAll ih

lemma map_static (h : t.Visits scene v) : v.now.map Node.static = t.map Node.static := by
  induction h with
  | here => rfl
  | @under n ts scene turn v hturn _ ih =>
      obtain ⟨before, rfl, hdone⟩ := hturn.split
      simp only [map_node, Node.static_movedOn, Node.static_begin, List.map_append, List.map_cons,
        hdone, ih]

/-- **The visit of a node is a stretch of the trace.** -/
theorem infix_trace (h : t.Visits scene v) : ∃ late,
    (t.poll scene).trace = v.early ++ (v.branch.poll v.scene).trace ++ late := by
  induction h with
  | here => exact ⟨[], by simp⟩
  | @under n ts scene turn v hturn _ ih =>
      obtain ⟨late, hlate⟩ := ih
      obtain ⟨behind, hbehind⟩ := hturn.infix_runBelow
      rw [poll_eq_conclude, Outcome.conclude, Node.id_begin]
      simp only [hbehind, hlate, List.append_assoc, List.cons_append]
      exact ⟨_, rfl⟩

end Branch.Visits

/-- What a poll does, as seen from a part: nothing happens to it, or it is visited once.  Afterwards
a reset above may have cleared it. -/
inductive Branch.Meets [Behavior L δ] (visits : Visit L δ → Prop) (s u : Branch (Node L))
    (trace : Trace) : Prop
  | passes : Settled s u → trace.Silent s.ids → Meets visits s u trace
  | visits (v : Visit L δ) (late : Trace) : visits v → v.branch = s →
    Settled (s.poll v.scene).part u →
    trace = v.early ++ (s.poll v.scene).trace ++ late →
    v.early.Silent s.ids → late.Silent s.ids → Meets visits s u trace

section Parts

/-- The identities of a part are among those of the branch. -/
lemma mem_ids_of_part {t s : Branch (Node L)} (hs : s ∈ t.parts) {id : NodeId} (hid : id ∈ s.ids) :
    id ∈ t.ids := by
  induction t with
  | node n ts ih =>
      rw [parts, List.mem_cons] at hs
      rcases hs with rfl | hs
      · exact hid
      · obtain ⟨t, ht, hst⟩ := mem_partsAll.mp hs
        exact List.mem_cons_of_mem _ (mem_idsAll ht (ih t ht hst))

/-- The identities of one of several branches are distinct if all of them are. -/
lemma nodup_ids_of_mem {ts : List (Branch (Node L))} {t : Branch (Node L)}
    (h : (idsAll ts).Nodup) (ht : t ∈ ts) : t.ids.Nodup := by
  induction ts with
  | nil => cases ht
  | cons u us ih =>
      rcases List.mem_cons.mp ht with rfl | ht
      · rw [idsAll_cons] at h
        exact (List.nodup_append.mp h).1
      · exact ih (nodup_tail h) ht

/-- The identities of a part are distinct if all of them are. -/
lemma nodup_ids_of_part {t s : Branch (Node L)} (h : t.ids.Nodup) (hs : s ∈ t.parts) :
    s.ids.Nodup := by
  induction t with
  | node n ts ih =>
      rw [parts, List.mem_cons] at hs
      rcases hs with rfl | hs
      · exact h
      · obtain ⟨t, ht, hst⟩ := mem_partsAll.mp hs
        exact ih t ht (nodup_ids_of_mem (List.nodup_cons.mp h).2 ht) hst

variable [Behavior L δ] {n : Node L} {ts : List (Branch (Node L))} {scene : Scene δ}
  {turn : Turn L δ}

/-- Where a turn is found: the children before it take as much space as they did. -/
lemma Node.Polls.eq_of_length (h : n.Polls ts scene turn) {before after : List (Branch (Node L))}
    {t : Branch (Node L)} (hts : ts = before ++ t :: after)
    (hlen : turn.done.length = before.length) :
    turn.child = t ∧ sizeAll turn.done = sizeAll before := by
  obtain ⟨before', heq, hdone⟩ := h.split
  have hlen' : before'.length = before.length := by
    rw [← hlen, ← List.length_map (f := Branch.map Node.static), ← hdone, List.length_map]
  rw [hts] at heq
  obtain ⟨rfl, hrest⟩ := List.append_inj heq hlen'.symm
  exact ⟨(List.cons.inj hrest).1.symm, sizeAll_of_static hdone⟩

/-- The child is found as many places on as there are children before it. -/
lemma Node.Polls.getElem?_child (h : n.Polls ts scene turn) :
    ts[turn.done.length]? = some turn.child := by
  obtain ⟨before, rfl, hdone⟩ := h.split
  have hlen : turn.done.length = before.length := by
    rw [← List.length_map (f := Branch.map Node.static), hdone, List.length_map]
  simp [hlen]

/-- **What a poll does to the children of the node**: they fare as in its run, and then a failed
reset clears them.  What happens around the run is about the node itself. -/
lemma Branch.poll_children (hnodup : (node n ts).ids.Nodup) (scene : Scene δ) :
    ∃ m us ran ended, ((node n ts).poll scene).part = node m us ∧
      us.map (Branch.map Node.static) = ts.map (Branch.map Node.static) ∧
      ((node n ts).poll scene).trace = .enter n.id :: (n.begin scene).2.2 ++ ran ++ ended ∧
      ended.Within [n.id] ∧
      ∀ i t, ts[i]? = some t → ∃ w u, us[i]? = some u ∧ Settled w u ∧
        Fares ((n.begin scene).1.Polls ts (n.begin scene).2.1) i t w ran := by
  have hbegun : (node (n.begin scene).1 ts).ids.Nodup := by rwa [ids_node, Node.id_begin]
  have hfares := runBelow_fares hbegun (n.begin scene).2.1
  have hlabel : (runBelow (node (n.begin scene).1 ts) (n.begin scene).2.1).part.label.id = n.id :=
    (Node.id_eq_of_static (static_label_run _ ts _)).trans (n.id_begin scene)
  have hstatic := map_static_poll (node n ts) scene
  rw [poll_eq_conclude, Outcome.conclude, Node.id_begin] at hstatic ⊢
  generalize runBelow (node (n.begin scene).1 ts) (n.begin scene).2.1 = o at *
  have hended := within_conclude o.part.label o.status o.scene
  rw [hlabel] at hended
  refine ⟨_, _, o.trace, (o.part.label.conclude o.status o.scene).2.2 ++ [.leave n.id o.status],
    rfl, ?_, by simp only [List.append_assoc], ?_, fun i t ht => ?_⟩
  · simp only [map_node, node.injEq] at hstatic
    exact hstatic.2
  · refine Trace.within_append.mpr ⟨hended, Trace.within_cons.mpr ⟨?_, Trace.within_nil _⟩⟩
    exact ⟨n.id, List.mem_singleton_self _, rfl⟩
  · obtain ⟨w, hw, hfare⟩ := hfares i t ht
    obtain ⟨u, hu, hsettled⟩ :=
      settled_settle (o.part.label.conclude o.status o.scene).1 o.status hw
    exact ⟨w, u, hu, hsettled, hfare⟩

/-- What is about one node is silent about others. -/
lemma Trace.Within.silent_of_not_mem {id : NodeId} {trace : Trace} (h : trace.Within [id])
    {ids : List NodeId} (hid : id ∉ ids) : trace.Silent ids :=
  h.silent fun _ hmem heq => hid (List.mem_singleton.mp heq ▸ hmem)

/-- What is cleared later is met in the same way. -/
lemma Branch.Meets.settle {visits : Visit L δ → Prop} {s u r : Branch (Node L)} {trace : Trace}
    (h : Meets visits s u trace) (hsettled : Settled u r) : Meets visits s r trace := by
  cases h with
  | passes hu hsilent => exact .passes (hu.trans hsettled) hsilent
  | visits v late hv hbranch hu htrace hearly hlate =>
      exact .visits v late hv hbranch (hu.trans hsettled) htrace hearly hlate

/-- A part of a child is met as the child meets it when its turn comes. -/
lemma Branch.Meets.under {s u : Branch (Node L)} {j : Nat} {trace behind : Trace}
    (h : Meets (fun v => turn.child.Visits turn.scene v ∧ v.position = j) s u trace)
    (hturn : (n.begin scene).1.Polls ts (n.begin scene).2.1 turn)
    (hbegun : Trace.Silent s.ids (.enter n.id :: (n.begin scene).2.2))
    (hearly : turn.early.Silent s.ids) (hbehind : behind.Silent s.ids) :
    Meets (fun v => (node n ts).Visits scene v ∧ v.position = 1 + sizeAll turn.done + j) s u
      (.enter n.id :: (n.begin scene).2.2 ++ (turn.early ++ trace ++ behind)) := by
  cases h with
  | passes hu hsilent => exact .passes hu (hbegun.append ((hearly.append hsilent).append hbehind))
  | visits v late hv hbranch hu htrace hfront hback =>
      obtain ⟨hvisits, rfl⟩ := hv
      refine .visits _ (late ++ behind) ⟨.under hturn hvisits, rfl⟩ hbranch hu ?_
        ((hbegun.append hearly).append hfront) (hback.append hbehind)
      rw [htrace]
      simp only [List.append_assoc]

/-- A node is none of the nodes in a part of a child. -/
lemma not_mem_ids_of_part (hnodup : (node n ts).ids.Nodup) {t s : Branch (Node L)} (ht : t ∈ ts)
    (hs : s ∈ t.parts) : n.id ∉ s.ids := fun hid =>
  (List.nodup_cons.mp hnodup).1 (mem_idsAll ht (mem_ids_of_part hs hid))

lemma within_begun (n : Node L) (scene : Scene δ) :
    Trace.Within [n.id] (.enter n.id :: (n.begin scene).2.2) :=
  Trace.within_cons.mpr ⟨⟨n.id, List.mem_singleton_self _, rfl⟩, within_begin n scene⟩

/-- What becomes of a child, as seen from a part of it: what its poll does to the part, if its turn
comes, and nothing otherwise. -/
lemma Branch.Fares.meets {before after : List (Branch (Node L))} {t w s : Branch (Node L)} {j : Nat}
    {ran behind : Trace}
    (h : Fares ((n.begin scene).1.Polls (before ++ t :: after) (n.begin scene).2.1) before.length
      t w ran)
    (hnodup : (node n (before ++ t :: after)).ids.Nodup) (hs : t.parts[j]? = some s)
    (hpoll : ∀ scene : Scene δ, ∃ u, (t.poll scene).part.parts[j]? = some u ∧
      Meets (fun v => t.Visits scene v ∧ v.position = j) s u (t.poll scene).trace)
    (hbehind : behind.Silent s.ids) :
    ∃ u, w.parts[j]? = some u ∧
      Meets (fun v => (node n (before ++ t :: after)).Visits scene v ∧
        v.position = sizeAll before + j + 1) s u
        (.enter n.id :: (n.begin scene).2.2 ++ (ran ++ behind)) := by
  have hpart := List.mem_of_getElem? hs
  have hfront := (within_begun n scene).silent_of_not_mem
    (not_mem_ids_of_part hnodup (by simp) hpart)
  have hsub : ∀ id ∈ s.ids, id ∈ t.ids := fun _ => mem_ids_of_part hpart
  cases h with
  | rests hw hsilent =>
      subst hw
      refine ⟨s, hs, .passes (settled_refl s) ?_⟩
      exact hfront.append ((hsilent.mono hsub).append hbehind)
  | polled turn late hturn hchild hdone hw hran hearly hlate =>
      subst hchild hw hran
      obtain ⟨u, hu, hmeets⟩ := hpoll turn.scene
      refine ⟨u, hu, ?_⟩
      have hunder := hmeets.under hturn hfront (hearly.mono hsub) ((hlate.mono hsub).append hbehind)
      rw [← Nat.add_comm 1, ← Nat.add_assoc, ← (hturn.eq_of_length rfl hdone).2]
      simpa only [List.append_assoc] using hunder

/-- **A poll, as seen from a part**, passes over it or visits it once. -/
theorem Branch.poll_part (t : Branch (Node L)) (scene : Scene δ) (hnodup : t.ids.Nodup) {k : Nat}
    {s : Branch (Node L)} (hs : t.parts[k]? = some s) :
    ∃ u, (t.poll scene).part.parts[k]? = some u ∧
      Meets (fun v => t.Visits scene v ∧ v.position = k) s u (t.poll scene).trace := by
  induction t generalizing scene k s with
  | node n ts ih =>
      obtain ⟨m, us, ran, ended, hpart, hstatic, htrace, hended, hchildren⟩ :=
        poll_children hnodup scene
      cases k with
      | zero =>
          obtain rfl : node n ts = s := by simpa [parts] using hs
          refine ⟨((node n ts).poll scene).part, by rw [hpart]; rfl, ?_⟩
          exact .visits _ [] ⟨.here _ scene, rfl⟩ rfl (settled_refl _) (by simp)
            (Trace.silent_nil _) (Trace.silent_nil _)
      | succ k =>
          rw [parts, List.getElem?_cons_succ] at hs
          obtain ⟨before, t, after, j, rfl, rfl, hsj⟩ := exists_child_of_partsAll hs
          have hmem : t ∈ before ++ t :: after := by simp
          have hchild := nodup_ids_of_mem (List.nodup_cons.mp hnodup).2 hmem
          have hback := hended.silent_of_not_mem
            (not_mem_ids_of_part hnodup hmem (List.mem_of_getElem? hsj))
          obtain ⟨w, u, hu, hsettled, hfares⟩ := hchildren before.length t (by simp)
          -- the part of the child is met in the run, and then a reset may clear it
          obtain ⟨q, hq, hmeets⟩ :=
            hfares.meets hnodup hsj (fun scene => ih t hmem scene hchild hsj) hback
          obtain ⟨r, hr, hqr⟩ := hsettled.part hq
          refine ⟨r, ?_, ?_⟩
          · rw [hpart, parts, List.getElem?_cons_succ]
            exact getElem?_partsAll_of_static hstatic hu hr
          · rw [htrace, List.append_assoc]
            exact hmeets.settle hqr

/-- Two children of a node have no identity in common. -/
lemma disjoint_children (hnodup : (idsAll ts).Nodup) {i j : Nat} {t u : Branch (Node L)}
    (ht : ts[i]? = some t) (hu : ts[j]? = some u) (hne : i ≠ j) : ∀ id ∈ t.ids, id ∉ u.ids := by
  induction ts generalizing i j with
  | nil => cases ht
  | cons v vs ih =>
      have hdisj := disjoint_of_nodup hnodup
      cases i with
      | zero =>
          obtain rfl : v = t := by simpa using ht
          obtain ⟨j, rfl⟩ := Nat.exists_eq_succ_of_ne_zero hne.symm
          rw [List.getElem?_cons_succ] at hu
          exact fun id hid hmem => hdisj id hid (mem_idsAll (List.mem_of_getElem? hu) hmem)
      | succ i =>
          rw [List.getElem?_cons_succ] at ht
          cases j with
          | zero =>
              obtain rfl : v = u := by simpa using hu
              exact fun id hid hmem => hdisj id hmem (mem_idsAll (List.mem_of_getElem? ht) hid)
          | succ j => exact ih (nodup_tail hnodup) ht hu fun h => hne (congrArg Nat.succ h)

/-- What has happened before a visit is about the polled nodes alone. -/
lemma Branch.Visits.within_early {t : Branch (Node L)} {v : Visit L δ} (h : t.Visits scene v) :
    v.early.Within t.ids := by
  obtain ⟨late, hlate⟩ := h.infix_trace
  have hwithin := t.within_poll scene
  rw [hlate] at hwithin
  exact (Trace.within_append.mp (Trace.within_append.mp hwithin).1).1

/-- A poll up to one of its visits, as seen from a part: the part has been met before, or the visit
is one of the visits below its root. -/
inductive Branch.Stands [Behavior L δ] (visits : Visit L δ → Prop) (s u : Branch (Node L))
    (trace : Trace) : Prop
  | met : Meets visits s u trace → Stands visits s u trace
  | amid (v w : Visit L δ) : visits v → v.branch = s → s.Visits v.scene w → u = w.now →
    trace = v.early ++ w.early → v.early.Silent s.ids → Stands visits s u trace

/-- **A poll up to one of its visits, as seen from a part.** -/
theorem Branch.Visits.now_part {t : Branch (Node L)} {v : Visit L δ} (h : t.Visits scene v)
    (hnodup : t.ids.Nodup) {k : Nat} {s : Branch (Node L)} (hs : t.parts[k]? = some s) :
    ∃ u, v.now.parts[k]? = some u ∧
      Stands (fun v => t.Visits scene v ∧ v.position = k) s u v.early := by
  induction h generalizing k s with
  | here t scene => exact ⟨s, hs, .met (.passes (settled_refl s) (Trace.silent_nil _))⟩
  | @under n ts scene turn v hturn hv ih =>
      cases k with
      | zero =>
          obtain rfl : node n ts = s := by simpa [parts] using hs
          exact ⟨_, rfl, .amid _ _ ⟨.here _ scene, rfl⟩ rfl (.under hturn hv) rfl rfl
            (Trace.silent_nil _)⟩
      | succ k =>
          rw [parts, List.getElem?_cons_succ] at hs
          obtain ⟨before, t, after, j, rfl, rfl, hsj⟩ := exists_child_of_partsAll hs
          have hmem : t ∈ before ++ t :: after := by simp
          have hpart := List.mem_of_getElem? hsj
          obtain ⟨-, hall⟩ := List.nodup_cons.mp hnodup
          have hchild := nodup_ids_of_mem hall hmem
          have hstatic := (Visits.under hturn hv).map_static
          simp only [map_node, node.injEq] at hstatic
          -- the part stands in the child as it is then
          have hstands : ∀ u, (turn.done ++ v.now :: turn.rest)[before.length]? = some u → ∀ r,
              u.parts[j]? = some r →
              (node ((n.begin scene).1.movedOn turn.moves) (turn.done ++ v.now :: turn.rest)).parts[
                sizeAll before + j + 1]? = some r := by
            intro u hu r hr
            rw [parts, List.getElem?_cons_succ]
            exact getElem?_partsAll_of_static hstatic.2 hu hr
          obtain ⟨hat, hother⟩ := hturn.fares hall before.length t (by simp)
          by_cases hi : before.length = turn.done.length
          · obtain ⟨rfl, hsize⟩ := hturn.eq_of_length rfl hi.symm
            have hfront := (within_begun n scene).silent_of_not_mem
              (not_mem_ids_of_part hnodup hmem hpart)
            have hearly := (hat hi).mono fun _ => mem_ids_of_part hpart
            obtain ⟨u, hu, hstand⟩ := ih hchild hsj
            refine ⟨u, hstands _ (by simp [hi]) u hu, ?_⟩
            rw [← Nat.add_comm 1, ← Nat.add_assoc, ← hsize]
            cases hstand with
            | met hmeets =>
                have hunder := hmeets.under hturn hfront hearly (Trace.silent_nil _)
                exact .met (by simpa only [List.append_assoc, List.append_nil] using hunder)
            | amid v' w hv' hbranch hw hu' hfound hsilent =>
                obtain ⟨hvisits, rfl⟩ := hv'
                refine .amid _ w ⟨.under hturn hvisits, rfl⟩ hbranch hw hu' ?_
                  ((hfront.append hearly).append hsilent)
                simp only [hfound, List.append_assoc]
          · obtain ⟨u, hu, hfares⟩ := hother hi
            have hbehind : v.early.Silent s.ids := hv.within_early.silent fun x hx =>
              disjoint_children hall (by simp) hturn.getElem?_child hi x (mem_ids_of_part hpart hx)
            obtain ⟨r, hr, hmeets⟩ := hfares.meets hnodup hsj
              (fun scene => t.poll_part scene hchild hsj) hbehind
            refine ⟨r, hstands u (hu _) r hr, .met ?_⟩
            simpa only [List.append_assoc] using hmeets

end Parts

/-! ## Updates -/

/-- The whole tree and the scene at a visit, as a world to poll. -/
def Visit.world (v : Visit L δ) : World L δ := ⟨v.now.layout 0, v.scene⟩

/-- The visits in the course of an update.  There are none unless the update polls the tree. -/
def Tree.ComesTo [Behavior L δ] (t : Tree L) (driver : δ) (v : Visit L δ) : Prop :=
  ∃ b board, t.branch? = some b ∧ t.board = some board ∧ t.state = .running ∧
    b.Visits ⟨board, driver⟩ v

section Shows

variable [Behavior L δ] {t : Tree L} {b : Branch (Node L)} {driver : δ}

/-- The visits of an update, seen on the nested tree. -/
lemma Tree.Shows.exists_visits (h : t.Shows b) {v : Visit L δ} (hv : t.ComesTo driver v) :
    ∃ board, t.board = some board ∧ t.state = .running ∧ b.Visits ⟨board, driver⟩ v := by
  obtain ⟨b', board, hb', hboard, hstate, hvisits⟩ := hv
  rw [h.branch?, Option.some.injEq] at hb'
  subst hb'
  exact ⟨board, hboard, hstate, hvisits⟩

/-- An update answers with the result of a tree that has come to its end, or it is a nested poll. -/
lemma Tree.Shows.update_cases (h : t.Shows b) {u : Updated L δ} (hu : t.update driver = .ok u) :
    u = ⟨t.state, t, driver, []⟩ ∨ ∃ board, t.board = some board ∧ t.state = .running ∧
      u = ⟨(b.poll ⟨board, driver⟩).status, ⟨(b.poll ⟨board, driver⟩).part.layout 0,
        some (b.poll ⟨board, driver⟩).scene.board, (b.poll ⟨board, driver⟩).status⟩,
        (b.poll ⟨board, driver⟩).scene.driver, (b.poll ⟨board, driver⟩).trace⟩ := by
  cases hboard : t.board with
  | none =>
      rw [Tree.update, hboard] at hu
      cases hu
  | some board =>
      cases hstate : t.state.isTerminal with
      | true =>
          rw [update_of_terminal hboard hstate] at hu
          cases hu
          exact .inl rfl
      | false =>
          have hrunning := Status.isTerminal_eq_false_iff.mp hstate
          rw [h.update hboard hrunning] at hu
          cases hu
          exact .inr ⟨board, rfl, hrunning, rfl⟩

end Shows

end BehaviorTree
