import BehaviorTree.Proofs.Composites
import BehaviorTree.Proofs.Registry

/-!
# The activations of composites

What a run leaves on record at a composite (`Branch.Records`) is the cursor, and whether an
activation is under way.  **`Records.poll`**: a poll of the composite keeps this in accord with the
log of the run, and so does whatever else may happen in between.

* **`Steps.records`** — so the records of every composite are in accord with the log of any run.
* **`Visits.cursor`** — the cursor is so at every moment of an update at which a node is polled.
* **`Fresh.composes_performAll`** — what this says of the composites of a tree (`Tree.Composes`): an
  activation goes through the children one after the other, over as many updates as it takes.
-/

namespace BehaviorTree

open Branch

variable {L δ : Type}

/-! ## What a log tells of a composite -/

namespace Branch

/-- The identities of the children. -/
def childIds (s : Branch (Node L)) : List NodeId := s.children.map fun t => t.label.id

/-- The identities of the node and of its children. -/
def family (s : Branch (Node L)) : List NodeId := s.label.id :: s.childIds

@[simp] lemma childIds_node (n : Node L) (ts : List (Branch (Node L))) :
    (node n ts).childIds = ts.map fun t => t.label.id := rfl

@[simp] lemma family_node (n : Node L) (ts : List (Branch (Node L))) :
    (node n ts).family = n.id :: ts.map fun t => t.label.id := rfl

/-- The log of a run agrees with what is recorded at a composite. -/
structure Records (s : Branch (Node L)) (kind : CompositeKind) (cascade : Bool)
    (log : List Moment) : Prop where
  /-- The cursor is the number of children that have been left behind. -/
  cursor : s.label.kind = .composite kind cascade (advanced s.label.id kind s.childIds log)
  accounted : Accounted s.label.id kind cascade s.childIds (boundsOf s.family log)
  /-- An activation under way is at the child under the cursor. -/
  underway : s.label.state.started = true → ∃ pre c,
    boundsOf s.family log = pre ++ .start s.label.id :: c.trace ∧
      Course.Possible s.label.id kind cascade s.childIds c ∧ c.paused = true ∧
      c.next = advanced s.label.id kind s.childIds log ∧ OnlyStarted c.next c.begun s.children

end Branch

lemma childIds_of_static {ts us : List (Branch (Node L))}
    (h : us.map (Branch.map Node.static) = ts.map (Branch.map Node.static)) :
    (us.map fun t => t.label.id) = ts.map fun t => t.label.id := by
  have hlabels := congrArg (List.map fun t => t.label.1) h
  simpa [List.map_map, Function.comp_def, Node.static] using hlabels

lemma boundsOf_append (ids : List NodeId) (log log' : List Moment) :
    boundsOf ids (log ++ log') = boundsOf ids log ++ boundsOf ids log' := by
  rw [boundsOf, List.filterMap_append, Trace.bounds_append]
  rfl

lemma boundsOf_cons (ids : List NodeId) (m : Moment) (log : List Moment) :
    boundsOf ids (m :: log) = boundsOf ids [m] ++ boundsOf ids log := boundsOf_append ids [m] log

lemma boundsOf_event (ids : List NodeId) (e : Event) :
    boundsOf ids [.event e] = Trace.bounds ids [e] := rfl

lemma mem_of_mem_boundsOf {ids : List NodeId} {e : Event} {log : List Moment}
    (h : e ∈ boundsOf ids log) : .event e ∈ log := by
  obtain ⟨m, hm, heq⟩ := List.mem_filterMap.mp (List.mem_of_mem_filter h)
  cases m with
  | event e' =>
      cases heq
      exact hm
  | rearm => cases heq

lemma boundsOf_events (ids : List NodeId) (trace : Trace) :
    boundsOf ids (trace.map .event) = trace.bounds ids := by
  rw [boundsOf, List.filterMap_map]
  exact congrArg (Trace.bounds ids) List.filterMap_some

section Family

variable [Behavior L δ] {n : Node L} {ts : List (Branch (Node L))}

lemma not_mem_childIds (h : n.id ∉ idsAll ts) : n.id ∉ ts.map fun t => t.label.id := by
  intro hmem
  obtain ⟨t, ht, hid⟩ := List.mem_map.mp hmem
  refine h (mem_idsAll ht ?_)
  rw [← hid]
  exact List.mem_map_of_mem t.label_mem_labels

/-- Of the children of a node, a child has its own identity alone. -/
lemma eq_of_mem_childIds (h : (idsAll ts).Nodup) {t : Branch (Node L)} (ht : t ∈ ts) {id : NodeId}
    (hchild : id ∈ ts.map fun t => t.label.id) (hid : id ∈ t.ids) : id = t.label.id := by
  obtain ⟨u, hu, rfl⟩ := List.mem_map.mp hchild
  obtain ⟨i, hi⟩ := List.mem_iff_getElem?.mp ht
  obtain ⟨j, hj⟩ := List.mem_iff_getElem?.mp hu
  by_cases heq : i = j
  · subst heq
    rw [hi, Option.some.injEq] at hj
    rw [hj]
  · exact absurd (List.mem_map_of_mem u.label_mem_labels) (disjoint_children h hi hj heq _ hid)

/-- In a tree with distinct identities, polls of the children show the children alone. -/
lemma showsChildren_of_nodup (h : (node n ts).ids.Nodup) :
    ShowsChildren δ (n.id :: ts.map fun t => t.label.id) ts := by
  obtain ⟨hid, hall⟩ := List.nodup_cons.mp h
  intro t ht scene round index
  have hmem : t.label.id ∈ ts.map fun t => t.label.id := List.mem_map_of_mem ht
  refine bounds_poll (List.mem_cons_of_mem _ hmem) (fun x hx hfamily => ?_) scene round index
  have hnodup := nodup_ids_of_mem hall ht
  obtain ⟨m, us⟩ := t
  obtain ⟨hself, -⟩ := List.nodup_cons.mp hnodup
  have hxt : x ∈ (node m us).ids := List.mem_cons_of_mem _ hx
  rcases List.mem_cons.mp hfamily with rfl | hchild
  · exact hid (mem_idsAll ht hxt)
  · obtain rfl := eq_of_mem_childIds hall ht hchild hxt
    exact hself hx

end Family

section Records

variable [Behavior L δ] {kind : CompositeKind} {cascade : Bool} {log : List Moment}

/-- Where a poll of a composite begins, an activation is under way: the one before goes on with a
new round, or a new one has begun. -/
lemma Branch.Records.enter {id : NodeId} {state : NodeState} {cursor : Nat}
    {ts : List (Branch (Node L))} {children : List NodeId}
    (h : (node ⟨id, .composite kind cascade cursor, state⟩ ts).Records kind cascade log)
    (horderly : Node.Orderly ⟨id, .composite kind cascade cursor, state⟩ ts)
    (hchildren : (ts.map fun t => t.label.id) = children) :
    ∃ pre c, boundsOf (id :: children) log ++ .enter id ::
          (if state.started then [] else [.start id]) = pre ++ .start id :: c.trace ∧
        Accounted id kind cascade children (pre ++ .start id :: c.trace) ∧
        Course.Possible id kind cascade children c ∧ c.paused = false ∧
        c.next = (if state.started then cursor else 0) ∧ OnlyStarted c.next c.begun ts := by
  obtain ⟨hcursor, haccounted, hunderway⟩ := h
  simp only [label_node, childIds_node, family_node, children_node, hchildren,
    NodeKind.composite.injEq, true_and] at hcursor haccounted hunderway
  cases hs : state.started with
  | true =>
      obtain ⟨pre, c, hlog, hc, hpaused, hnext, hstarted⟩ := hunderway hs
      have hshown : boundsOf (id :: children) log ++ [.enter id] =
          pre ++ .start id :: (c.resume id).trace := by
        rw [hlog]
        simp [Course.resume]
      refine ⟨pre, c.resume id, hshown, ?_, .resumes hc hpaused, rfl, ?_, hstarted⟩
      · rw [← hshown]
        exact haccounted.extend (by simp)
      · rw [if_pos rfl, hcursor]
        exact hnext
  | false =>
      have hidle : OnlyStarted 0 false ts := by
        intro k t ht
        refine ⟨fun hstarted => ?_, fun h => by simp at h⟩
        have hsupports := horderly.supports k t ht hstarted
        rw [(hsupports.cursor rfl).1] at hs
        cases hs
      have hshown : boundsOf (id :: children) log ++ .enter id :: [.start id] =
          (boundsOf (id :: children) log ++ [.enter id]) ++ .start id :: Course.new.trace := by
        simp [Course.new]
      refine ⟨_, .new, hshown, ?_, .begins, rfl, rfl, hidle⟩
      rw [← hshown]
      exact haccounted.extend (by simp)

/-- Where a poll of a composite begins, the count is at the child in turn. -/
lemma Branch.Records.count_enter {id : NodeId} {state : NodeState} {cursor : Nat}
    {ts : List (Branch (Node L))} {children : List NodeId}
    (h : (node ⟨id, .composite kind cascade cursor, state⟩ ts).Records kind cascade log)
    (hchildren : (ts.map fun t => t.label.id) = children) :
    Trace.count id kind children (advanced id kind children log)
        (.enter id :: if state.started then [] else [.start id]) =
      if state.started then cursor else 0 := by
  have hcursor : cursor = advanced id kind children log := by
    simpa only [label_node, childIds_node, hchildren, NodeKind.composite.injEq, true_and]
      using h.cursor
  rw [← hcursor]
  cases state.started <;> simp [Trace.count, Moment.count]

/-- **A poll of a composite keeps its records in accord with the log.** -/
theorem Branch.Records.poll {s : Branch (Node L)} (h : s.Records kind cascade log)
    (hnodup : s.ids.Nodup) (horderly : s.label.Orderly s.children) (scene : Scene δ) :
    (s.poll scene).part.Records kind cascade (log ++ (s.poll scene).trace.map .event) := by
  obtain ⟨⟨id, k, state⟩, ts⟩ := s
  obtain ⟨cursor, rfl⟩ : ∃ cursor, k = .composite kind cascade cursor := ⟨_, h.cursor⟩
  obtain ⟨children, hchildren⟩ : ∃ children, (ts.map fun t => t.label.id) = children := ⟨_, rfl⟩
  have hx := not_mem_childIds (List.nodup_cons.mp hnodup).1
  have hshows := showsChildren_of_nodup (δ := δ) hnodup
  have hmem : ∀ t ∈ ts, t.label.id ∈ children := by
    rw [← hchildren]
    exact fun t ht => List.mem_map_of_mem ht
  have hentered := h.count_enter hchildren
  obtain ⟨pre, c, hlog, haccounted, hc, hopen, hnext, hstarted⟩ := h.enter horderly hchildren
  obtain ⟨o, state', honward, hpoll⟩ := poll_composite id kind cascade cursor state ts scene
  have hrunning := started_poll (node ⟨id, .composite kind cascade cursor, state⟩ ts) scene
  have hids : (o.part.2.map fun t => t.label.id) = children :=
    (childIds_of_static (honward.map_static fun t _ => map_static_poll t)).trans hchildren
  simp only [hchildren] at hx hshows
  have hcourse := honward.course hshows hc hopen (show c.next = 0 + _ by omega)
    hchildren.symm (hnext ▸ hstarted)
  -- the cursor has moved with the count
  have hcount : advanced id kind children
      (log ++ ((node ⟨id, .composite kind cascade cursor, state⟩ ts).poll scene).trace.map .event) =
        (if state.started then cursor else 0) + o.part.1 := by
    rw [advanced_events, hpoll, Trace.count_append, Trace.count_append, hentered,
      honward.count hshows hx hmem]
    simp [Trace.count, Moment.count, hx]
  -- and the log shows how the activation went on
  have hshown : boundsOf (id :: children)
      (log ++ ((node ⟨id, .composite kind cascade cursor, state⟩ ts).poll scene).trace.map .event) =
        pre ++ .start id :: (c.trace ++ o.trace.bounds (id :: children) ++
          [.leave id o.status]) := by
    have hself : id ∈ id :: children := List.mem_cons_self
    rw [boundsOf_append, boundsOf_events, hpoll]
    simp only [Trace.bounds_append, Trace.bounds_begun hself, Trace.bounds_leave hself]
    rw [← List.append_assoc, ← List.append_assoc, hlog]
    simp
  rw [hpoll] at hrunning
  have hpart := congrArg Outcome.part hpoll
  rw [hpart]
  constructor <;> simp only [label_node, childIds_node, family_node, children_node, hids, hcount,
    hshown]
  case accounted =>
    rcases hcourse with ⟨hstatus, c', hc', -, htrace, -, -⟩ | ⟨polls, hconcluded⟩
    · have hcalm := hc'.calm hx
      rw [htrace, List.append_assoc, calm_append] at hcalm
      have hextended := haccounted.extend hcalm.2.leave
      rw [hstatus]
      simpa using hextended
    · have hcalm := hconcluded.calm hx
      rw [calm_append] at hcalm
      have hextended := haccounted.extend hcalm.2.leave
      rw [List.append_assoc, List.cons_append] at hextended
      have hended := hextended.conclude hx hconcluded
      simpa using hended
  case underway =>
    intro hunderway
    rcases hcourse with ⟨hstatus, c', hc', hpaused, htrace, hnext', hstarted'⟩ |
      ⟨polls, hconcluded⟩
    · rw [Nat.zero_add] at hnext'
      refine ⟨pre, c', ?_, hc', hpaused, hnext', hnext' ▸ hstarted'⟩
      rw [htrace, hstatus]
    · -- a result would have ended the activation
      have hterminal := hconcluded.isTerminal
      rw [label_node, hunderway] at hrunning
      rw [Status.isTerminal, ← hrunning] at hterminal
      cases hterminal

/-! ### Between the polls of a composite -/

lemma family_subset_ids (s : Branch (Node L)) : ∀ id ∈ s.family, id ∈ s.ids := by
  obtain ⟨n, ts⟩ := s
  intro id hid
  rcases List.mem_cons.mp hid with rfl | hid
  · exact List.mem_cons_self
  · obtain ⟨t, ht, rfl⟩ := List.mem_map.mp hid
    exact List.mem_cons_of_mem _ (mem_idsAll ht (List.mem_map_of_mem t.label_mem_labels))

/-- What is not about the composite and its children leaves its records as they are. -/
lemma Branch.Records.silent {s : Branch (Node L)} (h : s.Records kind cascade log) (trace : Trace)
    (htrace : trace.Silent s.ids) : s.Records kind cascade (log ++ trace.map .event) := by
  have hnone : trace.bounds s.family = [] :=
    Trace.bounds_of_silent (htrace.mono (family_subset_ids s))
  have hcount : advanced s.label.id kind s.childIds (log ++ trace.map .event) =
      advanced s.label.id kind s.childIds log := by
    rw [advanced_events, ← Trace.count_bounds]
    exact congrArg (Trace.count s.label.id kind s.childIds _) hnone
  have hshown : boundsOf s.family (log ++ trace.map .event) = boundsOf s.family log := by
    rw [boundsOf_append, boundsOf_events, hnone, List.append_nil]
  obtain ⟨hcursor, haccounted, hunderway⟩ := h
  refine ⟨hcount ▸ hcursor, hshown ▸ haccounted, ?_⟩
  rw [hcount, hshown]
  exact hunderway

lemma childIds_map {f : Node L → Node L} (hf : ∀ n, (f n).id = n.id) (s : Branch (Node L)) :
    (s.map f).childIds = s.childIds := by
  obtain ⟨n, ts⟩ := s
  simp [hf]

/-- Clearing breaks the activation off and leaves the cursor. -/
lemma Branch.Records.settle {s u : Branch (Node L)} (h : s.Records kind cascade log)
    (hsettled : Settled s u) : u.Records kind cascade log := by
  rcases hsettled with rfl | rfl
  · exact h
  · have hids := childIds_map (f := Node.clear) (fun _ => rfl) s
    have hlabel : (s.map Node.clear).label = s.label.clear := label_map _ s
    obtain ⟨hcursor, haccounted, -⟩ := h
    refine ⟨?_, ?_, fun hstarted => ?_⟩
    · rw [hids, hlabel]
      exact hcursor
    · rw [Branch.family, hids, hlabel]
      exact haccounted
    · rw [hlabel] at hstarted
      cases hstarted

/-- A rearming breaks the activation off and takes the cursor back. -/
lemma Branch.Records.rearm {s : Branch (Node L)} (h : s.Records kind cascade log) :
    (s.map Node.rearm).Records kind cascade (log ++ [.rearm]) := by
  have hids := childIds_map (f := Node.rearm) (fun _ => rfl) s
  have hlabel : (s.map Node.rearm).label = s.label.rearm := label_map _ s
  obtain ⟨hcursor, haccounted, -⟩ := h
  refine ⟨?_, ?_, fun hstarted => ?_⟩
  · rw [hids, hlabel, advanced, List.foldl_append]
    simp [Node.rearm, hcursor, NodeKind.rewind, Moment.count]
  · have hnone : boundsOf (s.label.id :: s.childIds) [.rearm] = [] := rfl
    rw [Branch.family, hids, hlabel]
    change Accounted s.label.id kind cascade s.childIds
      (boundsOf (s.label.id :: s.childIds) (log ++ [.rearm]))
    rw [boundsOf_append, hnone, List.append_nil]
    exact haccounted
  · rw [hlabel] at hstarted
    cases hstarted

/-- The records of a composite through a poll of the tree in which it stands. -/
lemma Branch.Meets.records {visits : Visit L δ → Prop} {s u : Branch (Node L)} {trace : Trace}
    (h : Meets visits s u trace) (hs : s.Records kind cascade log) (hnodup : s.ids.Nodup)
    (horderly : s.label.Orderly s.children) :
    u.Records kind cascade (log ++ trace.map .event) := by
  cases h with
  | passes hsettled hsilent => exact (hs.silent _ hsilent).settle hsettled
  | visits v late hv hbranch hsettled htrace hearly hlate =>
      have hpolled := (hs.silent _ hearly).poll hnodup horderly v.scene
      have hafter := hpolled.silent late (by rwa [ids_poll])
      have hend := hafter.settle hsettled
      rw [htrace]
      simpa only [List.map_append, List.append_assoc] using hend

/-- **Every call keeps the records of a composite in accord with the log.** -/
theorem Branch.Step.records {b c : Branch (Node L)} {moments : List Moment}
    (h : Step b moments c) (hnodup : b.ids.Nodup) (horderly : b.Every Node.Orderly) {k : Nat}
    {s : Branch (Node L)} (hpart : b.parts[k]? = some s) (hs : s.Records kind cascade log) :
    ∃ u, c.parts[k]? = some u ∧ u.Records kind cascade (log ++ moments) := by
  cases h with
  | rests => exact ⟨s, hpart, by rwa [List.append_nil]⟩
  | polls scene =>
      obtain ⟨u, hu, hmeets⟩ := b.poll_part scene hnodup hpart
      have hmem := List.mem_of_getElem? hpart
      exact ⟨u, hu, hmeets.records hs (nodup_ids_of_part hnodup hmem) (horderly s hmem)⟩
  | rearms =>
      refine ⟨s.map Node.rearm, ?_, hs.rearm⟩
      rw [parts_map, List.getElem?_map, hpart, Option.map_some]

/-- **Every run keeps the records of a composite in accord with the log.** -/
theorem Branch.Steps.records {b c : Branch (Node L)} {moments : List Moment}
    (h : Steps b moments c) (hnodup : b.ids.Nodup) (horderly : b.Every Node.Orderly) {k : Nat}
    {s : Branch (Node L)} (hpart : b.parts[k]? = some s) (hs : s.Records kind cascade log) :
    ∃ u, c.parts[k]? = some u ∧ u.Records kind cascade (log ++ moments) := by
  induction h generalizing s log with
  | none => exact ⟨s, hpart, by rwa [List.append_nil]⟩
  | cons hnow _ ih =>
      obtain ⟨u, hu, hrecords⟩ := hnow.records hnodup horderly hpart hs
      have hids := ids_of_static hnow.map_static
      obtain ⟨r, hr, hlater⟩ := ih (hids ▸ hnodup) (hnow.orderly horderly) hu hrecords
      exact ⟨r, hr, by rwa [← List.append_assoc]⟩

end Records

/-! ## Where a poll comes to a node -/

section Visits

variable [Behavior L δ] {kind : CompositeKind} {cascade : Bool} {log : List Moment}
  {t s u : Branch (Node L)} {scene : Scene δ} {v : Visit L δ}

lemma family_of_static (h : u.map Node.static = s.map Node.static) :
    u.label.id = s.label.id ∧ u.childIds = s.childIds := by
  obtain ⟨n, ts⟩ := s
  obtain ⟨m, us⟩ := u
  simp only [map_node, node.injEq] at h
  exact ⟨Node.id_eq_of_static h.1, childIds_of_static h.2⟩

/-- A poll has not ended when it comes to a node. -/
lemma Branch.Visits.not_leave (h : t.Visits scene v) (hnodup : t.ids.Nodup) (status : Status) :
    .leave t.label.id status ∉ v.early := by
  cases h with
  | here => exact List.not_mem_nil
  | @under n ts _ turn v hturn hv =>
      obtain ⟨hid, -⟩ := List.nodup_cons.mp hnodup
      intro hmem
      rcases List.mem_append.mp hmem with hmem | hmem
      · rcases List.mem_append.mp hmem with hmem | hmem
        · rcases n.trace_begin scene with hb | hb | ⟨-, first, hb⟩ <;> rw [hb] at hmem <;>
            simp at hmem
        · obtain ⟨id, hmem, heq⟩ := hturn.within_early _ hmem
          cases heq
          exact hid hmem
      · obtain ⟨id, hmem, heq⟩ := hv.within_early _ hmem
        cases heq
        exact hid (mem_idsAll hturn.child_mem hmem)

/-- On the way to a node below a child, the child has not been left behind. -/
lemma Branch.Visits.count (h : t.Visits scene v) (hnodup : t.ids.Nodup) (kind : CompositeKind)
    {x : NodeId} {children : List NodeId} (hx : x ∉ t.ids)
    (hchildren : ∀ id ∈ children, id ∈ t.ids → id = t.label.id) (k : Nat) :
    v.early.count x kind children k = k := by
  have hall : ∀ e ∈ v.early, ∀ k, Moment.count x kind children k (.event e) = k := by
    intro e he k
    obtain ⟨id, hid, heq⟩ := h.within_early e he
    cases e with
    | start id' =>
        cases heq
        exact if_neg fun (heq : id = x) => hx (heq ▸ hid)
    | leave id' status =>
        cases heq
        refine if_neg fun hcounts => ?_
        rw [hchildren _ hcounts.1 hid] at he
        exact h.not_leave hnodup status he
    | _ => rfl
  exact Trace.count_of_forall hall k

/-- Where the poll of a composite comes to a node below it, the cursor agrees with the count. -/
lemma Branch.Records.visits (h : s.Records kind cascade log) (hnodup : s.ids.Nodup)
    (hv : s.Visits scene v) : v.now.label.kind = .composite kind cascade
      (advanced s.label.id kind s.childIds (log ++ v.early.map .event)) := by
  cases hv with
  | here => simpa using h.cursor
  | @under n ts _ turn v hturn hv =>
      obtain ⟨id, k, state⟩ := n
      obtain ⟨cursor, rfl⟩ : ∃ cursor, k = .composite kind cascade cursor := ⟨_, h.cursor⟩
      obtain ⟨children, hchildren⟩ : ∃ children, (ts.map fun t => t.label.id) = children :=
        ⟨_, rfl⟩
      obtain ⟨hid, hall⟩ := List.nodup_cons.mp hnodup
      have hx := not_mem_childIds hid
      have hshows := showsChildren_of_nodup (δ := δ) hnodup
      have hentered := h.count_enter hchildren
      have hchild := hturn.child_mem
      have hbelow := hv.count (nodup_ids_of_mem hall hchild) kind
        (fun hmem => hid (mem_idsAll hchild hmem)) (fun _ => eq_of_mem_childIds hall hchild)
      simp only [hchildren] at hx hshows hbelow
      have hmem : ∀ t ∈ ts, t.label.id ∈ children := by
        rw [← hchildren]
        exact fun t ht => List.mem_map_of_mem ht
      rw [begin_composite] at hturn ⊢
      cases hturn with
      | root hk => cases hk
      | decorator hk => cases hk
      | composite hk hturn =>
          cases hk
          simp only [label_node, childIds_node, hchildren]
          rw [advanced_events, Trace.count_append, Trace.count_append, hentered,
            hturn.count hshows hx hmem, hbelow]
          rfl

/-- **Where a poll comes to a node, every composite has its cursor in accord with the log.** -/
theorem Branch.Visits.cursor (h : t.Visits scene v) (hnodup : t.ids.Nodup)
    (horderly : t.Every Node.Orderly) {k : Nat} (hpart : t.parts[k]? = some s)
    (hs : s.Records kind cascade log) : ∃ u, v.now.parts[k]? = some u ∧
      u.label.kind = .composite kind cascade
        (advanced s.label.id kind s.childIds (log ++ v.early.map .event)) := by
  obtain ⟨u, hu, hstands⟩ := h.now_part hnodup hpart
  have hmem := List.mem_of_getElem? hpart
  refine ⟨u, hu, ?_⟩
  cases hstands with
  | met hmeets =>
      have hstatic : u.map Node.static = s.map Node.static := by
        have hparts := congrArg (fun b => b.parts[k]?) h.map_static
        simpa only [parts_map, List.getElem?_map, hu, hpart, Option.map_some,
          Option.some.injEq] using hparts
      obtain ⟨hid, hchildren⟩ := family_of_static hstatic
      rw [← hid, ← hchildren]
      exact (hmeets.records hs (nodup_ids_of_part hnodup hmem) (horderly s hmem)).cursor
  | amid v' w _ hbranch hw hnow hearly hsilent =>
      have hthen := (hs.silent _ hsilent).visits (nodup_ids_of_part hnodup hmem) hw
      rw [hnow, hearly, List.map_append, ← List.append_assoc]
      exact hthen

end Visits

namespace Tree

/-! ## The composites of a tree -/

/-- How the composite `x` at position `p` goes through its children: in the course of the run that
is told by `log` and has led to the tree `now`, and in the course of the next update. -/
structure Composes [Behavior L δ] (now : Tree L) (log : List Moment) (p : Nat) (x : NodeId)
    (kind : CompositeKind) (cascade : Bool) (children : List NodeId) : Prop where
  /-- What the log shows between the start of an activation and its result is what an activation
  has to be. -/
  activations : ∀ (pre seen post : List Moment) (result : Status),
    log = pre ++ .event (.start x) :: seen ++ .event (.leave x result) :: post →
    result.isTerminal = true → .event (.start x) ∉ seen →
    ∃ polls, boundsOf (x :: children) seen = told x 0 polls ∧
      CompositeActivation kind cascade children polls result
  /-- An update polls the composite at most once, so every round is another update. -/
  once : ∀ (driver : δ) (u : Updated L δ), now.update driver = .ok u →
    (u.trace.marked .enter).count x ≤ 1
  /-- Where an activation begins, every child is idle. -/
  idle : ∀ (driver : δ) (v : Visit L δ), now.ComesTo driver v → v.position = p →
    v.branch.label.state.started = false → ∀ c ∈ v.branch.children, c.label.state.started = false
  /-- The cursor is the number of children that have been left behind. -/
  cursor : ∃ slot, now.arena[p]? = some slot ∧
    slot.label.kind = .composite kind cascade (advanced x kind children log)
  /-- So it is wherever the next update comes to a node. -/
  cursor_visit : ∀ (driver : δ) (v : Visit L δ), now.ComesTo driver v →
    ∃ slot, v.world.arena[p]? = some slot ∧
      slot.label.kind =
        .composite kind cascade (advanced x kind children (log ++ v.early.map .event))
  /-- A started composite has a child in turn. -/
  underway : ∀ slot, now.arena[p]? = some slot → slot.label.state.started = true →
    advanced x kind children log < children.length

section Composes

variable {t : Tree L} {b : Branch (Node L)}

lemma Shows.exists_getElem?_parts (h : t.Shows b) {i : Nat} {slot : Slot (Node L)}
    (hslot : t.arena[i]? = some slot) : ∃ s, b.parts[i]? = some s ∧ slot = slotAt i s := by
  rw [h.arena, getElem?_layout, Nat.zero_add, Option.map_eq_some_iff] at hslot
  obtain ⟨s, hs, rfl⟩ := hslot
  exact ⟨s, hs, rfl⟩

/-- The children that a tree lists for a node are those below it. -/
lemma Shows.childIds_eq (h : t.Shows b) {i : Nat} {s : Branch (Node L)}
    (hs : b.parts[i]? = some s) : t.childIds s.label.id = s.childIds := by
  have hslot : t.arena[i]? = some (slotAt i s) := h.arena ▸ getElem?_layout_part hs
  have hlisted := h.map_some_childIds hslot
  have hroots := (h.holds_part hs).children.map_getElem?_roots
  have hids := congrArg (List.map (Option.map Node.id)) hroots
  simp only [List.map_map, Function.comp_def, Option.map_map, Option.map_some] at hids
  refine List.map_injective_iff.mpr (fun _ _ => Option.some.inj) ?_
  rw [Branch.childIds, List.map_map]
  exact hlisted.trans hids

/-- In a tree in which nothing has been touched no activation of a composite is on record. -/
lemma Pristine.records (h : t.Pristine b) {s : Branch (Node L)} (hs : s ∈ b.parts)
    {kind : CompositeKind} {cascade : Bool} {cursor : Nat}
    (hkind : s.label.kind = .composite kind cascade cursor) : s.Records kind cascade [] := by
  have hmem : s.label ∈ b.labels := by
    rw [labels_eq_map_parts]
    exact List.mem_map_of_mem hs
  refine ⟨?_, .nil, fun hstarted => ?_⟩
  · rw [← h.rewind_kind hmem, hkind]
    rfl
  · rw [h.state_eq_fresh hmem] at hstarted
    cases hstarted

variable [Behavior L δ]

/-- An update polls each node at most once. -/
lemma Shows.count_enter (h : t.Shows b) {driver : δ} {u : Updated L δ}
    (hu : t.update driver = .ok u) (id : NodeId) : (u.trace.marked .enter).count id ≤ 1 := by
  rcases h.update_cases hu with rfl | ⟨board, -, -, rfl⟩
  · exact Nat.zero_le 1
  · exact List.nodup_iff_count_le_one.mp ((marked_poll .enter b _).nodup h.nodup) id

/-- The records of a composite tell how it goes through its children. -/
lemma Shows.composes (h : t.Shows b) (horderly : b.Every Node.Orderly) {log : List Moment}
    {p : Nat} {s : Branch (Node L)} (hs : b.parts[p]? = some s) {kind : CompositeKind}
    {cascade : Bool} (hrecords : s.Records kind cascade log) :
    t.Composes (δ := δ) log p s.label.id kind cascade s.childIds where
  activations pre seen post result hlog hterminal hseen := by
    have hself : s.label.id ∈ s.family := List.mem_cons_self
    refine hrecords.accounted (boundsOf s.family pre) (boundsOf s.family seen)
      (boundsOf s.family post) result ?_
      hterminal fun hmem => hseen ?_
    · rw [hlog, boundsOf_append, boundsOf_append, boundsOf_cons,
        boundsOf_cons _ (.event (.leave _ _)), boundsOf_event, boundsOf_event,
        Trace.bounds_start hself, Trace.bounds_leave hself]
      rfl
    · exact mem_of_mem_boundsOf hmem
  once driver u hu := h.count_enter hu s.label.id
  idle driver v hv hposition hidle c hc := by
    obtain ⟨board, -, -, hvisits⟩ := h.exists_visits hv
    have hpart := hvisits.part
    rw [hposition, hs, Option.some.injEq] at hpart
    obtain ⟨j, hj⟩ := List.mem_iff_getElem?.mp hc
    subst hpart
    refine Bool.eq_false_iff.mpr fun hstarted => ?_
    have hsupports := (horderly _ (List.mem_of_getElem? hs)).supports j c hj hstarted
    rw [(hsupports.cursor hrecords.cursor).1] at hidle
    cases hidle
  cursor := ⟨_, h.arena ▸ getElem?_layout_part hs, hrecords.cursor⟩
  cursor_visit driver v hv := by
    obtain ⟨board, -, -, hvisits⟩ := h.exists_visits hv
    obtain ⟨u, hu, hkind⟩ := hvisits.cursor h.nodup horderly hs hrecords
    exact ⟨_, getElem?_layout_part hu, hkind⟩
  underway slot hslot hstarted := by
    have hpart : t.arena[p]? = some (slotAt p s) := h.arena ▸ getElem?_layout_part hs
    rw [hpart, Option.some.injEq] at hslot
    subst hslot
    obtain ⟨-, c, -, hc, hpaused, hnext, -⟩ := hrecords.underway hstarted
    rw [← hnext]
    refine hc.sound.within.resolve_left ?_
    rintro rfl
    cases hpaused

/-- **How composites go through their children**, in the course of any run of a tree. -/
theorem Fresh.composes_performAll (h : t.Fresh) (calls : List (Call δ)) {p : Nat}
    {slot : Slot (Node L)} {kind : CompositeKind} {cascade : Bool} {cursor : Nat}
    (hslot : t.arena[p]? = some slot)
    (hkind : slot.label.kind = .composite kind cascade cursor) :
    (t.performAll calls).1.Composes (δ := δ) (t.performAll calls).2 p slot.label.id kind cascade
      (t.childIds slot.label.id) := by
  obtain ⟨b, hb⟩ := h.pristine
  obtain ⟨c, hc, hsteps⟩ := hb.toShows.performAll calls
  obtain ⟨s, hs, rfl⟩ := hb.toShows.exists_getElem?_parts hslot
  have horderly : b.Every Node.Orderly := every_orderly_of_idle fun n hn => by
    rw [hb.state_eq_fresh hn]
    rfl
  have hrecords := hb.records (List.mem_of_getElem? hs) hkind
  obtain ⟨u, hu, hlog⟩ := hsteps.records hb.nodup horderly hs hrecords
  have hstatic : u.map Node.static = s.map Node.static := by
    have hparts := congrArg (fun b => b.parts[p]?) hsteps.map_static
    simpa only [parts_map, List.getElem?_map, hu, hs, Option.map_some,
      Option.some.injEq] using hparts
  obtain ⟨hid, hchildren⟩ := family_of_static hstatic
  have hchildIds : t.childIds s.label.id = s.childIds := hb.toShows.childIds_eq hs
  have hcomposes := hc.composes (δ := δ)
    (hsteps.invariant (fun _ _ _ hstep => hstep.orderly) horderly) hu hlog
  rw [hid, hchildren, ← hchildIds] at hcomposes
  exact hcomposes

/-- A sequence that leaves its first child behind in one update, and comes to its end in the next
one. -/
theorem composes_pausing :
    let t : Tree Constant := ofBranch (.node (.fresh ⟨0⟩ .root)
      [.node (.fresh ⟨1⟩ (.composite .sequence false 0))
        [.node (.fresh ⟨2⟩ (.leaf .succeed)) [], .node (.fresh ⟨3⟩ (.leaf .fail)) []]])
    let run := t.performAll [.start, .update (), .update ()]
    Tree.build .standard (some (.composite none .sequence (some false)
        [.leaf none Constant.succeed, .leaf none .fail])) = .ok t ∧
      run.1.Composes (δ := Unit) run.2 1 ⟨1⟩ .sequence false [⟨2⟩, ⟨3⟩] ∧
      boundsOf [⟨1⟩, ⟨2⟩, ⟨3⟩] run.2 =
        .enter ⟨1⟩ :: .start ⟨1⟩ ::
          told ⟨1⟩ 0 [⟨0, 0, ⟨2⟩, true, .success⟩, ⟨1, 1, ⟨3⟩, true, .failure⟩] ++
          [.leave ⟨1⟩ .failure] := by
  intro t run
  have hbuild : Tree.build .standard (some (.composite none .sequence (some false)
    [.leaf none Constant.succeed, .leaf none .fail])) = .ok t := rfl
  refine ⟨hbuild, ?_, by decide +kernel⟩
  exact (Fresh.built _ _ hbuild).composes_performAll [.start, .update (), .update ()] (p := 1)
    rfl rfl

end Composes

end Tree

end BehaviorTree
