import BehaviorTree.Proofs.Runs

/-!
# The started nodes of a tree

Between two calls the nodes with an activation under way hang together: a started node has a started
parent, and under a composite it is the child at the cursor.  Only a gate that is evaluated at every
poll can leave a started node behind it, when it closes.

* `Node.Orderly` — what holds at a node and its children.  **`Branch.orderly_poll`**: a poll keeps
  it at every node, whatever the nodes below do.
* `Arena.exists_pathIn` — without such gates the started nodes are a path that begins at the root.
* **`Tree.Fresh.orderly_performAll`** reads both off the arena of a tree after a run.
-/

namespace BehaviorTree

open Branch

variable {L δ : Type}

/-- Whether the rule is a gate that is evaluated at every poll. -/
def DecoratorRule.gatesEachPoll : DecoratorRule → Bool
  | compare _ _ _ once => !once
  | hasValue _ _ once => !once
  | _ => false

/-- Any other rule is a gate when an activation begins, or no gate at all. -/
lemma DecoratorRule.gate_of_not_gatesEachPoll {rule : DecoratorRule} (board : Blackboard)
    (hrule : rule.gatesEachPoll = false) (honce : rule.evaluatesOnce ≠ true) :
    rule.gate board = true := by
  cases rule with
  | compare key op threshold once => cases once <;> simp_all [gatesEachPoll, evaluatesOnce]
  | hasValue key absent once => cases once <;> simp_all [gatesEachPoll, evaluatesOnce]
  | _ => rfl

lemma Node.admits_of_once {rule : DecoratorRule} {gate : Bool} (board : Blackboard)
    (hrule : rule.gatesEachPoll = false) (hgate : rule.evaluatesOnce = true → gate = true) :
    admits rule gate board = true := by
  rw [admits]
  split
  · next honce => exact hgate honce
  · next honce => exact DecoratorRule.gate_of_not_gatesEachPoll board hrule honce

lemma DecoratorRule.map_running (rule : DecoratorRule) : rule.map .running = .running := by
  cases rule <;> rfl

/-- A property of a node and its subtrees, at every node of a branch. -/
def Branch.Every {α : Type} (P : α → List (Branch α) → Prop) (t : Branch α) : Prop :=
  ∀ s ∈ t.parts, P s.label s.children

lemma Branch.every_node {α : Type} {P : α → List (Branch α) → Prop} {a : α}
    {ts : List (Branch α)} : (node a ts).Every P ↔ P a ts ∧ ∀ t ∈ ts, t.Every P := by
  simp only [Every, parts, List.mem_cons, forall_eq_or_imp, label_node, children_node, mem_partsAll]
  refine and_congr_right fun _ => ⟨?_, ?_⟩
  · exact fun h t ht s hs => h s ⟨t, ht, hs⟩
  · rintro h s ⟨t, ht, hs⟩
    exact h t ht s hs

namespace Node

/-- Whether the node is a gate that is evaluated at every poll. -/
def Gated (n : Node L) : Prop :=
  ∃ rule gate, n.kind = .decorator rule gate ∧ rule.gatesEachPoll = true

/-- Whether the child at a place may be started, given the node. -/
def Supports (n : Node L) (j : Nat) : Prop :=
  match n.kind with
  | .root => n.state.started = true ∧ j = 0
  | .composite _ _ cursor => n.state.started = true ∧ cursor = j
  | .decorator rule gate => j = 0 ∧ (rule.gatesEachPoll = true ∨
    n.state.started = true ∧ (rule.evaluatesOnce = true → gate = true))
  | .leaf _ => False

/-- No child is started that may not be. -/
def SupportsAll (n : Node L) (ts : List (Branch (Node L))) : Prop :=
  ∀ j t, ts[j]? = some t → t.label.state.started = true → n.Supports j

/-- What holds of a node and its subtrees between two polls. -/
structure Orderly (n : Node L) (ts : List (Branch (Node L))) : Prop where
  current : n.state.started = true → n.state.current = .running
  activations : n.state.started = true → 0 < n.state.activations.toNat
  supports : n.SupportsAll ts

variable {n : Node L} {j : Nat}

/-- A node that supports a started child is started itself, or it is a gate. -/
lemma Supports.started_or_gated (h : n.Supports j) : n.state.started = true ∨ n.Gated := by
  rw [Supports] at h
  split at h
  · exact .inl h.1
  · exact .inl h.1
  · next rule gate hkind =>
      rcases h.2 with hgate | hstarted
      · exact .inr ⟨rule, gate, hkind, hgate⟩
      · exact .inl hstarted.1
  · exact h.elim

lemma Supports.cursor {kind : CompositeKind} {cascade : Bool} {cursor : Nat} (h : n.Supports j)
    (hkind : n.kind = .composite kind cascade cursor) : n.state.started = true ∧ cursor = j := by
  rwa [Supports, hkind] at h

/-- A started node supports one child. -/
lemma Supports.unique {k : Nat} (h : n.Supports j) (h' : n.Supports k) : j = k := by
  rw [Supports] at h h'
  split at h <;> simp_all

end Node

/-- Where nothing is started, everything is in order. -/
lemma every_orderly_of_idle {t : Branch (Node L)}
    (h : ∀ n ∈ t.labels, n.state.started = false) : t.Every Node.Orderly := by
  induction t with
  | node n ts ih =>
      rw [labels, List.forall_mem_cons] at h
      obtain ⟨hn, hts⟩ := h
      have hchild : ∀ t ∈ ts, ∀ m ∈ t.labels, m.state.started = false :=
        fun t ht m hm => hts m (mem_labelsAll.mpr ⟨t, ht, hm⟩)
      refine every_node.mpr ⟨⟨?_, ?_, ?_⟩, fun t ht => ih t ht (hchild t ht)⟩
      · simp [hn]
      · simp [hn]
      · intro j t ht hstarted
        rw [hchild t (List.mem_of_getElem? ht) t.label t.label_mem_labels] at hstarted
        cases hstarted

lemma every_orderly_map {f : Node L → Node L} (hf : ∀ n, (f n).state.started = false)
    (t : Branch (Node L)) : (t.map f).Every Node.Orderly := by
  refine every_orderly_of_idle fun n hn => ?_
  obtain ⟨m, _, rfl⟩ := mem_labels_map.mp hn
  exact hf m

/-! ## Polling children -/

/-- What a poll makes of a branch that is in order. -/
structure Outcome.Sound (o : Outcome (Branch (Node L)) δ) : Prop where
  every : o.part.Every Node.Orderly
  started : o.part.label.state.started = o.status.isRunning

lemma Outcome.Sound.running {o : Outcome (Branch (Node L)) δ} (h : o.Sound)
    (hstarted : o.part.label.state.started = true) : o.status = .running := by
  rwa [h.started, Status.isRunning_iff] at hstarted

/-- What polling children makes of them: afterwards at most the child at one place is started, and
only if the poll asks for another one. -/
structure LeavesStarted (j : Nat) (status : Status) (ts : List (Branch (Node L))) : Prop where
  every : ∀ t ∈ ts, t.Every Node.Orderly
  only : ∀ k t, ts[k]? = some t → t.label.state.started = true → k = j ∧ status = .running

/-- No child is started if the poll asks for no other one. -/
lemma LeavesStarted.of_ne_running {j : Nat} {status : Status} {ts : List (Branch (Node L))}
    (h : LeavesStarted j status ts) (hne : status ≠ .running) (i : Nat) (status' : Status) :
    LeavesStarted i status' ts where
  every := h.every
  only := by
    intro k t ht hstarted
    exact absurd (h.only k t ht hstarted).2 hne

lemma LeavesStarted.cons {j : Nat} {status : Status} {t : Branch (Node L)}
    {ts : List (Branch (Node L))} (h : LeavesStarted j status ts) (ht : t.Every Node.Orderly)
    (hidle : t.label.state.started ≠ true) : LeavesStarted (j + 1) status (t :: ts) where
  every := List.forall_mem_cons.mpr ⟨ht, h.every⟩
  only := by
    intro k u hu hstarted
    cases k with
    | zero =>
        rw [List.getElem?_cons_zero, Option.some.injEq] at hu
        subst hu
        exact absurd hstarted hidle
    | succ k =>
        obtain ⟨rfl, hrunning⟩ := h.only k u hu hstarted
        exact ⟨rfl, hrunning⟩

section Children

variable [Behavior L δ] {ts : List (Branch (Node L))}

/-- The first of several branches has been polled. -/
lemma leavesStarted_head {t : Branch (Node L)} {scene : Scene δ} (hpoll : (t.poll scene).Sound)
    (hall : ∀ u ∈ ts, u.Every Node.Orderly)
    (honly : ∀ k u, (t :: ts)[k]? = some u → u.label.state.started = true → k = 0) :
    LeavesStarted 0 (t.poll scene).status ((t.poll scene).part :: ts) where
  every := List.forall_mem_cons.mpr ⟨hpoll.every, hall⟩
  only := by
    intro k u hu hstarted
    cases k with
    | zero =>
        rw [List.getElem?_cons_zero, Option.some.injEq] at hu
        subst hu
        exact ⟨rfl, hpoll.running hstarted⟩
    | succ k => exact absurd (honly (k + 1) u hu hstarted) (Nat.succ_ne_zero k)

/-- Polling the first child. -/
lemma pollFirst_leavesStarted (hall : ∀ t ∈ ts, t.Every Node.Orderly)
    (honly : ∀ k t, ts[k]? = some t → t.label.state.started = true → k = 0)
    (ih : ∀ t ∈ ts, ∀ scene : Scene δ, t.Every Node.Orderly → (t.poll scene).Sound)
    (scene : Scene δ) : LeavesStarted 0 (pollFirst ts scene).status (pollFirst ts scene).part := by
  cases ts with
  | nil => exact ⟨hall, by simp [pollFirst]⟩
  | cons t ts =>
      rw [List.forall_mem_cons] at hall
      exact leavesStarted_head (ih t List.mem_cons_self scene hall.1) hall.2 honly

/-- Polling the children of a composite from the cursor on. -/
lemma Onward.leavesStarted {id : NodeId} {kind : CompositeKind} {cascade : Bool} {skip : Nat}
    {scene : Scene δ} {o : Outcome (Nat × List (Branch (Node L))) δ}
    (h : Onward id kind cascade skip ts scene o)
    (hall : ∀ t ∈ ts, t.Every Node.Orderly)
    (honly : ∀ k t, ts[k]? = some t → t.label.state.started = true → k = skip)
    (ih : ∀ t ∈ ts, ∀ scene : Scene δ, t.Every Node.Orderly → (t.poll scene).Sound) :
    LeavesStarted (skip + o.part.1) o.status o.part.2 := by
  induction h with
  | exhausted => exact ⟨hall, by simp⟩
  | @skips skip t ts scene o _ ihs =>
      rw [List.forall_mem_cons] at hall
      have hrest := ihs hall.2
        (fun k u hu hstarted => Nat.succ.inj (honly (k + 1) u hu hstarted))
        (fun u hu => ih u (List.mem_cons_of_mem _ hu))
      have hidle : t.label.state.started ≠ true := fun hstarted =>
        (Nat.succ_ne_zero skip).symm (honly 0 t rfl hstarted)
      rw [Nat.add_right_comm]
      exact hrest.cons hall.1 hidle
  | @stops t ts scene _ =>
      rw [List.forall_mem_cons] at hall
      exact leavesStarted_head (ih t List.mem_cons_self scene hall.1) hall.2 honly
  | @ends t scene hs =>
      rw [List.forall_mem_cons] at hall
      have hhead := leavesStarted_head (ih t List.mem_cons_self scene hall.1) hall.2 honly
      exact hhead.of_ne_running (hs ▸ kind.advancesOn_ne_running) _ _
  | @cascades t u us scene o hs hc _ ihs =>
      rw [List.forall_mem_cons] at hall
      have hpoll := ih t List.mem_cons_self scene hall.1
      have hrest := ihs hall.2
        (fun k v hv hstarted => absurd (honly (k + 1) v hv hstarted) (Nat.succ_ne_zero k))
        (fun v hv => ih v (List.mem_cons_of_mem _ hv))
      have hidle : (t.poll scene).part.label.state.started ≠ true := fun hstarted =>
        kind.advancesOn_ne_running (hs.symm.trans (hpoll.running hstarted))
      exact hrest.cons hpoll.every hidle
  | @pauses t u us scene hs hc =>
      rw [List.forall_mem_cons] at hall
      have hhead := leavesStarted_head (ih t List.mem_cons_self scene hall.1) hall.2 honly
      exact hhead.of_ne_running (hs ▸ kind.advancesOn_ne_running) _ _

end Children

/-! ## Polling a node -/

namespace Node

variable [Behavior L δ] {n : Node L} {ts : List (Branch (Node L))}

/-- Beginning an activation marks the node as started. -/
lemma started_begin (n : Node L) (scene : Scene δ) : (n.begin scene).1.state.started = true := by
  obtain ⟨id, kind, state⟩ := n
  rw [begin]
  split
  · next h => exact h
  · cases kind <;> rfl

lemma activations_begin (scene : Scene δ)
    (h : n.state.started = true → 0 < n.state.activations.toNat) :
    0 < (n.begin scene).1.state.activations.toNat := by
  obtain ⟨id, kind, state⟩ := n
  rw [begin]
  split
  · next hstarted => exact h hstarted
  · have hcount : 0 < state.activate.activations.toNat := by
      have hsize : UInt32.size = 4294967296 := rfl
      rw [NodeState.toNat_activate]
      omega
    cases kind <;> exact hcount

/-- Beginning an activation takes no support away: an idle node that supports a started child is a
gate that is evaluated at every poll. -/
lemma supportsAll_begin (h : n.SupportsAll ts) (scene : Scene δ) :
    (n.begin scene).1.SupportsAll ts := by
  intro j t ht hstarted
  have hsupports := h j t ht hstarted
  obtain ⟨id, kind, state⟩ := n
  rw [begin]
  split
  · exact hsupports
  · next hidle =>
      cases kind with
      | root => exact absurd hsupports.1 hidle
      | composite kind cascade cursor => exact absurd hsupports.1 hidle
      | decorator rule gate =>
          obtain ⟨hj, hrule⟩ := hsupports
          refine ⟨hj, .inl (hrule.resolve_right fun h => hidle h.1)⟩
      | leaf l => exact hsupports.elim

/-- What running a node makes of its children: a child that is started afterwards stands below a
gate that is evaluated at every poll, or the node wants another poll and supports it. -/
structure Ran (o : Outcome (Branch (Node L)) δ) : Prop where
  started : o.part.label.state.started = true
  activations : 0 < o.part.label.state.activations.toNat
  every : ∀ t ∈ o.part.children, t.Every Orderly
  supports : ∀ j t, o.part.children[j]? = some t → t.label.state.started = true →
    o.part.label.Gated ∧ j = 0 ∨ o.status = .running ∧ o.part.label.Supports j

lemma run_ran (hstarted : n.state.started = true) (hcount : 0 < n.state.activations.toNat)
    (hall : ∀ t ∈ ts, t.Every Orderly) (hsupports : n.SupportsAll ts)
    (ih : ∀ t ∈ ts, ∀ scene : Scene δ, t.Every Orderly → (t.poll scene).Sound)
    (scene : Scene δ) :
    Ran (n.run ts (pollFirst ts)
      (fun kind cascade cursor => Branch.pollFrom n.id kind cascade cursor ts) scene) := by
  cases hk : n.kind with
  | root =>
      have honly : ∀ k t, ts[k]? = some t → t.label.state.started = true → k = 0 := by
        intro k t ht hs
        have := hsupports k t ht hs
        rw [Supports, hk] at this
        exact this.2
      have hfirst := pollFirst_leavesStarted hall honly ih scene
      rw [run_root hk]
      refine ⟨hstarted, hcount, hfirst.every, fun j t ht hs => .inr ?_⟩
      obtain ⟨hj, hrunning⟩ := hfirst.only j t ht hs
      refine ⟨hrunning, ?_⟩
      rw [Outcome.part_map, label_node, Supports, hk]
      exact ⟨hstarted, hj⟩
  | composite kind cascade cursor =>
      have honward := (pollFrom_onward n.id kind cascade cursor ts scene).leavesStarted hall
        (fun k t ht hs => ((hsupports k t ht hs).cursor hk).2.symm) ih
      rw [run_composite hk]
      refine ⟨hstarted, hcount, honward.every, fun j t ht hs => .inr ?_⟩
      obtain ⟨hj, hrunning⟩ := honward.only j t ht hs
      exact ⟨hrunning, hstarted, hj.symm⟩
  | decorator rule gate =>
      have honly : ∀ k t, ts[k]? = some t → t.label.state.started = true → k = 0 ∧
          (rule.gatesEachPoll = true ∨ (rule.evaluatesOnce = true → gate = true)) := by
        intro k t ht hs
        have := hsupports k t ht hs
        rw [Supports, hk] at this
        exact ⟨this.1, this.2.imp_right And.right⟩
      cases hadmits : admits rule gate scene.board with
      | true =>
          have hfirst := pollFirst_leavesStarted hall (fun k t ht hs => (honly k t ht hs).1) ih
            scene
          rw [run_admitted hk hadmits]
          refine ⟨hstarted, hcount, hfirst.every, fun j t ht hs => .inr ?_⟩
          obtain ⟨rfl, hrunning⟩ := hfirst.only j t ht hs
          refine ⟨by rw [hrunning, rule.map_running], ?_⟩
          rw [Outcome.part_map, label_node, Supports, hk]
          refine ⟨rfl, .inr ⟨hstarted, fun honce => ?_⟩⟩
          rwa [admits, if_pos honce] at hadmits
      | false =>
          -- the child keeps its activation, which only a gate at every poll can do
          rw [run_refused hk hadmits]
          refine ⟨hstarted, hcount, hall, fun j t ht hs => .inl ?_⟩
          obtain ⟨hj, hgate⟩ := honly j t ht hs
          refine ⟨⟨rule, gate, hk, ?_⟩, hj⟩
          by_contra hrule
          have hadmitted := admits_of_once scene.board (by simpa using hrule)
            (hgate.resolve_left hrule)
          rw [hadmits] at hadmitted
          cases hadmitted
  | leaf l =>
      rw [run_leaf hk]
      refine ⟨hstarted, hcount, hall, fun j t ht hs => ?_⟩
      have := hsupports j t ht hs
      rw [Supports, hk] at this
      exact this.elim

lemma state_conclude (n : Node L) (status : Status) (scene : Scene δ) :
    (n.conclude status scene).1.state =
      if status.isTerminal then (n.state.record status).finish else n.state.record status := by
  obtain ⟨id, kind, state⟩ := n
  rw [conclude]
  split
  · cases kind <;> rfl
  · rfl

lemma conclude_running (n : Node L) (scene : Scene δ) :
    n.conclude .running scene = ({ n with state := n.state.record .running }, scene, []) := rfl

lemma gated_of_static {m : Node L} (h : m.static = n.static) (hn : n.Gated) : m.Gated := by
  obtain ⟨rule, gate, hkind, hrule⟩ := hn
  have hstatic := kind_eq_of_static h
  rw [hkind] at hstatic
  cases hk : m.kind with
  | decorator rule' gate' =>
      rw [hk] at hstatic
      simp only [NodeKind.static, NodeKind.decorator.injEq, and_true] at hstatic
      exact ⟨rule', gate', hk, hstatic ▸ hrule⟩
  | _ => rw [hk] at hstatic; simp [NodeKind.static] at hstatic

lemma Gated.supports (h : n.Gated) : n.Supports 0 := by
  obtain ⟨rule, gate, hkind, hrule⟩ := h
  rw [Supports, hkind]
  exact ⟨rfl, .inl hrule⟩

/-- The end of a poll leaves the node in order. -/
lemma Ran.sound {o : Outcome (Branch (Node L)) δ} (h : Ran o) (id : NodeId) (begun : Trace) :
    (o.conclude id begun).Sound := by
  obtain ⟨hstarted, hcount, hall, hsupports⟩ := h
  have hstate := o.part.label.state_conclude o.status o.scene
  have hc : (o.part.label.conclude o.status o.scene).1.state.started = o.status.isRunning := by
    rw [hstate]
    cases o.status with
    | running => exact hstarted
    | success => rfl
    | failure => rfl
  refine ⟨every_node.mpr ⟨⟨?_, ?_, ?_⟩, ?_⟩, hc⟩
  · intro hrunning
    rw [hc, Status.isRunning_iff] at hrunning
    rw [hstate, hrunning]
    rfl
  · intro _
    rw [hstate]
    split <;> exact hcount
  · intro j t ht hs
    rw [settle] at ht
    split at ht
    · -- everything below has been cleared
      rw [List.getElem?_map, Option.map_eq_some_iff] at ht
      obtain ⟨u, _, rfl⟩ := ht
      rw [label_map] at hs
      cases hs
    · rcases hsupports j t ht hs with ⟨hgated, rfl⟩ | ⟨hrunning, hsupport⟩
      · exact (gated_of_static (o.part.label.static_conclude o.status o.scene) hgated).supports
      · rw [hrunning, conclude_running]
        exact hsupport
  · intro t ht
    rw [settle] at ht
    split at ht
    · obtain ⟨u, _, rfl⟩ := List.mem_map.mp ht
      exact every_orderly_map (fun _ => rfl) u
    · exact hall t ht

end Node

section Poll

variable [Behavior L δ]

/-- **A poll keeps every node in order**, and afterwards its root is started exactly if it wants
another poll. -/
theorem Branch.orderly_poll (t : Branch (Node L)) (scene : Scene δ) (h : t.Every Node.Orderly) :
    (t.poll scene).Sound := by
  induction t generalizing scene with
  | node n ts ih =>
      obtain ⟨hn, hts⟩ := every_node.mp h
      rw [poll_node]
      exact (Node.run_ran (n.started_begin scene) (Node.activations_begin scene hn.activations) hts
        (Node.supportsAll_begin hn.supports scene) (fun t ht scene h => ih t ht scene h) _).sound
        _ _

/-- A call keeps every node in order. -/
lemma Branch.Step.orderly {b c : Branch (Node L)} {moments : List Moment} (h : Step b moments c)
    (hb : b.Every Node.Orderly) : c.Every Node.Orderly := by
  cases h with
  | rests => exact hb
  | polls scene => exact (b.orderly_poll scene hb).every
  | rearms => exact every_orderly_map (fun _ => rfl) b

end Poll

/-! ## Paths -/

namespace Arena

/-- The node at a position is started. -/
def StartedAt (a : Arena L) (i : Nat) : Prop :=
  ∃ slot, a[i]? = some slot ∧ slot.label.state.started = true

/-- A node refers to a child. -/
def Refers (a : Arena L) (p c : Nat) : Prop := ∃ slot, a[p]? = some slot ∧ c ∈ slot.children

variable {a : Arena L}

lemma startedAt_iff {t : Branch (Node L)} {base : Nat} (h : Slot.Holds a base t) :
    a.StartedAt base ↔ t.label.state.started = true := by
  constructor
  · rintro ⟨slot, hslot, hstarted⟩
    rw [h.getElem?, Option.some.injEq] at hslot
    subst hslot
    exact hstarted
  · exact fun hstarted => ⟨_, h.getElem?, hstarted⟩

/-- Positions that are a path down a stretch of the arena, and all of its started nodes. -/
structure PathIn (a : Arena L) (lo hi : Nat) (tops path : List Nat) : Prop where
  mem_iff : ∀ k, k ∈ path ↔ lo ≤ k ∧ k < hi ∧ a.StartedAt k
  head : ∀ k ∈ path.head?, k ∈ tops
  chain : path.IsChain a.Refers

/-- Without started nodes at the top there is no path. -/
lemma PathIn.eq_nil {lo hi : Nat} {tops path : List Nat} (h : a.PathIn lo hi tops path)
    (hidle : ∀ c ∈ tops, ¬ a.StartedAt c) : path = [] := by
  cases path with
  | nil => rfl
  | cons k path =>
      have hstarted := ((h.mem_iff k).mp List.mem_cons_self).2.2
      exact absurd hstarted (hidle k (h.head k rfl))

/-- A started node above a path. -/
lemma PathIn.under {base hi : Nat} {tops path : List Nat} (h : a.PathIn (base + 1) hi tops path)
    (hstarted : a.StartedAt base) (hhi : base < hi) (htops : ∀ c ∈ tops, a.Refers base c) :
    a.PathIn base hi [base] (base :: path) where
  mem_iff k := by
    rw [List.mem_cons, h.mem_iff]
    constructor
    · rintro (rfl | ⟨hle, hlt, hk⟩)
      · exact ⟨Nat.le_refl _, hhi, hstarted⟩
      · exact ⟨by omega, hlt, hk⟩
    · rintro ⟨hle, hlt, hk⟩
      rcases Nat.eq_or_lt_of_le hle with heq | hlt'
      · exact .inl heq.symm
      · exact .inr ⟨hlt', hlt, hk⟩
  head k hk := by
    rw [List.head?_cons, Option.mem_some_iff] at hk
    rw [hk]
    exact List.mem_singleton_self k
  chain := by
    cases path with
    | nil => exact .singleton base
    | cons k path => exact .cons_cons (htops k (h.head k rfl)) h.chain

/-- Two stretches one behind the other, with no started node at the top of one of them. -/
lemma PathIn.beside {lo mid hi : Nat} {tops tops' path path' : List Nat}
    (h : a.PathIn lo mid tops path) (h' : a.PathIn mid hi tops' path') (hlo : lo ≤ mid)
    (hhi : mid ≤ hi) (hidle : (∀ c ∈ tops, ¬ a.StartedAt c) ∨ ∀ c ∈ tops', ¬ a.StartedAt c) :
    a.PathIn lo hi (tops ++ tops') (path ++ path') where
  mem_iff k := by
    rw [List.mem_append, h.mem_iff, h'.mem_iff]
    constructor
    · rintro (⟨hle, hlt, hk⟩ | ⟨hle, hlt, hk⟩)
      · exact ⟨hle, by omega, hk⟩
      · exact ⟨by omega, hlt, hk⟩
    · rintro ⟨hle, hlt, hk⟩
      rcases Nat.lt_or_ge k mid with hmid | hmid
      · exact .inl ⟨hle, hmid, hk⟩
      · exact .inr ⟨hmid, hlt, hk⟩
  head k hk := by
    rw [List.mem_append]
    rcases hidle with hidle | hidle
    · rw [h.eq_nil hidle] at hk
      exact .inr (h'.head k hk)
    · rw [h'.eq_nil hidle, List.append_nil] at hk
      exact .inl (h.head k hk)
  chain := by
    rcases hidle with hidle | hidle
    · rw [h.eq_nil hidle]
      exact h'.chain
    · rw [h'.eq_nil hidle, List.append_nil]
      exact h.chain

/-- At most one of several branches has a started root. -/
def AtMostOneStarted (ts : List (Branch (Node L))) : Prop :=
  ∀ (i j : Nat) (t u : Branch (Node L)), ts[i]? = some t → ts[j]? = some u →
    t.label.state.started = true → u.label.state.started = true → i = j

/-- A started position among the roots is the root of a started branch. -/
lemma exists_of_startedAt {ts : List (Branch (Node L))} {base c : Nat}
    (h : Slot.HoldsAll a base ts) (hc : c ∈ roots base ts) (hstarted : a.StartedAt c) :
    ∃ (j : Nat) (t : Branch (Node L)), ts[j]? = some t ∧ t.label.state.started = true := by
  obtain ⟨j, hj⟩ := List.mem_iff_getElem?.mp hc
  obtain ⟨t, ht, hholds⟩ := h.get hj
  exact ⟨j, t, ht, (startedAt_iff hholds).mp hstarted⟩

mutual

/-- Without gates at every poll the started nodes of a branch are a path from its root. -/
theorem exists_pathIn : ∀ (t : Branch (Node L)) {base : Nat} (_ : Slot.Holds a base t)
    (_ : t.Every Node.Orderly) (_ : ∀ n ∈ t.labels, ¬ n.Gated),
    ∃ path, a.PathIn base (base + t.size) [base] path
  | .node n ts, base, h, hall, hgates => by
      obtain ⟨hn, hts⟩ := every_node.mp hall
      have hgated : ¬ n.Gated := hgates n List.mem_cons_self
      have hslot := startedAt_iff h
      rw [label_node] at hslot
      have hsize : base + (node n ts).size = base + 1 + sizeAll ts := by
        rw [size_node, Nat.add_assoc]
      obtain ⟨path, hpath⟩ := exists_pathIn_all ts h.children hts
        (fun m hm => hgates m (List.mem_cons_of_mem _ hm))
        fun i j t u ht hu hst hsu => (hn.supports i t ht hst).unique (hn.supports j u hu hsu)
      rw [← hsize] at hpath
      by_cases hstarted : n.state.started = true
      · refine ⟨base :: path, hpath.under (hslot.mpr hstarted) (by omega) fun c hc => ?_⟩
        exact ⟨_, h.getElem?, hc⟩
      · -- an idle node that is not a gate has no started child, and so nothing is started below it
        have hidle : ∀ c ∈ roots (base + 1) ts, ¬ a.StartedAt c := by
          intro c hc hs
          obtain ⟨j, t, ht, hchild⟩ := exists_of_startedAt h.children hc hs
          rcases (hn.supports j t ht hchild).started_or_gated with hn' | hn'
          · exact hstarted hn'
          · exact hgated hn'
        have hnil := hpath.eq_nil hidle
        subst hnil
        refine ⟨[], fun k => ?_, by simp, .nil⟩
        have hk := hpath.mem_iff k
        simp only [List.not_mem_nil, false_iff] at hk ⊢
        rintro ⟨hle, hlt, hs⟩
        rcases Nat.eq_or_lt_of_le hle with rfl | hlt'
        · exact hstarted (hslot.mp hs)
        · exact hk ⟨hlt', hlt, hs⟩

theorem exists_pathIn_all : ∀ (ts : List (Branch (Node L))) {base : Nat}
    (_ : Slot.HoldsAll a base ts) (_ : ∀ t ∈ ts, t.Every Node.Orderly)
    (_ : ∀ n ∈ labelsAll ts, ¬ n.Gated) (_ : AtMostOneStarted ts),
    ∃ path, a.PathIn base (base + sizeAll ts) (roots base ts) path
  | [], base, _, _, _, _ => by
      refine ⟨[], fun k => ?_, by simp, .nil⟩
      simp only [List.not_mem_nil, sizeAll_nil, Nat.add_zero, false_iff]
      rintro ⟨hle, hlt, _⟩
      omega
  | t :: ts, base, h, hall, hgates, hone => by
      rw [List.forall_mem_cons] at hall
      obtain ⟨path, hpath⟩ := exists_pathIn t h.head hall.1
        fun n hn => hgates n (List.mem_append_left _ hn)
      obtain ⟨path', hpath'⟩ := exists_pathIn_all ts h.tail hall.2
        (fun n hn => hgates n (List.mem_append_right _ hn))
        fun i j t u ht hu hst hsu => Nat.succ.inj (hone (i + 1) (j + 1) t u ht hu hst hsu)
      refine ⟨path ++ path', ?_⟩
      rw [sizeAll_cons, ← Nat.add_assoc]
      refine hpath.beside hpath' (by omega) (by omega) ?_
      by_cases hstarted : t.label.state.started = true
      · refine .inr fun c hc hs => ?_
        obtain ⟨j, u, hu, hsu⟩ := exists_of_startedAt h.tail hc hs
        exact absurd (hone 0 (j + 1) t u rfl hu hstarted hsu) (Nat.succ_ne_zero j).symm
      · refine .inl fun c hc hs => ?_
        rw [List.mem_singleton.mp hc] at hs
        exact hstarted ((startedAt_iff h.head).mp hs)

end

end Arena

/-! ## The arena of a tree after a run -/

namespace Tree

/-- What holds of the started nodes of a tree between two calls. -/
structure Orderly (t : Tree L) : Prop where
  /-- A started node wants another poll, and it has been activated. -/
  started : ∀ {i : Nat} {slot : Slot (Node L)}, t.arena[i]? = some slot →
    slot.label.state.started = true →
    slot.label.state.current = .running ∧ 0 < slot.label.state.activations.toNat
  /-- The parent of a started node is started, unless it is a gate that is evaluated at every
  poll. -/
  parent : ∀ {p c : Nat} {slot child : Slot (Node L)}, t.arena[p]? = some slot →
    c ∈ slot.children → t.arena[c]? = some child → child.label.state.started = true →
    slot.label.state.started = true ∨ slot.label.Gated
  /-- Under a composite it is the child at the cursor, and the composite is started. -/
  cursor : ∀ {p j c : Nat} {slot child : Slot (Node L)} {kind : CompositeKind} {cascade : Bool}
    {cursor : Nat}, t.arena[p]? = some slot → slot.label.kind = .composite kind cascade cursor →
    slot.children[j]? = some c → t.arena[c]? = some child → child.label.state.started = true →
    slot.label.state.started = true ∧ cursor = j
  /-- Without gates that are evaluated at every poll the started nodes are a path from the root. -/
  path : (∀ slot ∈ t.arena, ¬ slot.label.Gated) →
    ∃ path : List Nat, (∀ i, i ∈ path ↔ t.arena.StartedAt i) ∧ (∀ i ∈ path.head?, i = 0) ∧
      path.IsChain t.arena.Refers

/-- The slots of a tree are the parts of its nested tree, and its references lead to their
subtrees. -/
lemma Shows.exists_part {t : Tree L} {b : Branch (Node L)} (h : t.Shows b) {i : Nat}
    {slot : Slot (Node L)} (hslot : t.arena[i]? = some slot) :
    ∃ s, s ∈ b.parts ∧ slot = slotAt i s ∧ Slot.Holds t.arena i s := by
  have hpart := hslot
  rw [h.arena, getElem?_layout, Nat.zero_add, Option.map_eq_some_iff] at hpart
  obtain ⟨s, hs, rfl⟩ := hpart
  exact ⟨s, List.mem_of_getElem? hs, rfl, h.holds_part hs⟩

/-- A started child is supported by its parent. -/
lemma Shows.supports {t : Tree L} {b : Branch (Node L)} (h : t.Shows b)
    (hb : b.Every Node.Orderly) {p j c : Nat} {slot child : Slot (Node L)}
    (hslot : t.arena[p]? = some slot) (hc : slot.children[j]? = some c)
    (hchild : t.arena[c]? = some child) (hstarted : child.label.state.started = true) :
    slot.label.Supports j := by
  obtain ⟨s, hs, rfl, hholds⟩ := h.exists_part hslot
  obtain ⟨u, hu, hholds'⟩ := hholds.children.get hc
  rw [hholds'.getElem?, Option.some.injEq] at hchild
  subst hchild
  exact (hb s hs).supports j u hu hstarted

lemma Shows.orderly {t : Tree L} {b : Branch (Node L)} (h : t.Shows b)
    (hb : b.Every Node.Orderly) : t.Orderly where
  started {i slot} hslot hstarted := by
    obtain ⟨s, hs, rfl, _⟩ := h.exists_part hslot
    exact ⟨(hb s hs).current hstarted, (hb s hs).activations hstarted⟩
  parent {p c slot child} hslot hc hchild hstarted := by
    obtain ⟨j, hj⟩ := List.mem_iff_getElem?.mp hc
    exact (h.supports hb hslot hj hchild hstarted).started_or_gated
  cursor hslot hkind hc hchild hstarted := (h.supports hb hslot hc hchild hstarted).cursor hkind
  path hgates := by
    have hholds : Slot.Holds t.arena 0 b := h.arena ▸ Slot.holds_layout b
    obtain ⟨path, hpath⟩ := Arena.exists_pathIn b hholds hb fun n hn => by
      obtain ⟨slot, hslot, rfl⟩ := h.exists_of_label hn
      exact hgates slot hslot
    refine ⟨path, fun i => ?_, fun i hi => List.mem_singleton.mp (hpath.head i hi), hpath.chain⟩
    rw [hpath.mem_iff]
    refine ⟨fun hi => hi.2.2, fun hi => ⟨Nat.zero_le i, ?_, hi⟩⟩
    obtain ⟨slot, hslot, _⟩ := hi
    have hlt := (List.getElem?_eq_some_iff.mp hslot).1
    rwa [h.arena, length_layout, ← Nat.zero_add b.size] at hlt

variable [Behavior L δ]

/-- **The started nodes of a tree are in order after every run.** -/
theorem Fresh.orderly_performAll {t : Tree L} (h : t.Fresh) (calls : List (Call δ)) :
    (t.performAll calls).1.Orderly := by
  obtain ⟨b, hb⟩ := h.pristine
  obtain ⟨c, hc, hsteps⟩ := hb.toShows.performAll calls
  refine hc.orderly (hsteps.invariant (fun _ _ _ hstep => hstep.orderly) ?_)
  refine every_orderly_of_idle fun n hn => ?_
  rw [hb.state_eq_fresh hn]
  rfl

/-- A leaf below a gate that closes stays started, and the gate does not. -/
theorem orderly_of_closed :
    let t : Tree Constant := ofBranch (.node (.fresh ⟨0⟩ .root)
      [.node (.fresh ⟨1⟩ (.decorator (.hasValue "k" false false) false))
        [.node (.fresh ⟨2⟩ (.leaf .running)) []]])
    let now := (t.performAll [.start, .edit (·.set "k" (.bool true)), .update (),
      .edit (·.remove "k"), .update ()]).1
    Tree.build .standard (some (.hasValue "k" (.leaf none Constant.running))) = .ok t ∧
      now.Orderly ∧
      now.arena.map (fun slot => slot.label.state.started) = [false, false, true] := by
  intro t now
  have hbuild : Tree.build .standard (some (.hasValue "k" (.leaf none Constant.running))) = .ok t :=
    rfl
  refine ⟨hbuild, (Fresh.built .standard _ hbuild).orderly_performAll _, ?_⟩
  decide +kernel

end Tree

end BehaviorTree
