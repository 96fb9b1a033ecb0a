import BehaviorTree.Proofs.ActivePath

/-!
# Trees in lockstep

Two trees of one shape, whose nodes are related one by one, do the same in every run, if the
relation is one that everything keeps that happens to a single node (`Lockstep`).  The conditions
are about single nodes, and nothing has to be said about trees, positions or references: so a
relation that leaves out a field of the nodes shows that the field does not matter.

* `NodeKind.Agrees` — the kinds agree in every field that a poll reads.  The cursor of a composite
  and the cached gate of a decorator are read only in the course of an activation.
* `Reply` and `Tree.replies` — what a call, and what a run, comes back with: the status, the context
  of the driver, and everything that happened.
* **`Lockstep.poll`** — polls of related arenas over one scene, whatever the references in them.
* **`Lockstep.replies`** — every run of two related trees comes back with the same, and leaves
  related trees behind.

The events are compared as `see` shows them, so that a relation may leave out what it leaves out of
the nodes.
-/

namespace BehaviorTree

open Branch Slot

variable {L δ : Type}

/-! ## Replies -/

/-- What the owner of a tree gets back from a call. -/
inductive Reply (δ : Type)
  /-- There is nothing to report. -/
  | done
  /-- The status that an update returned, the context that it left the driver with, and what
  happened in its course. -/
  | updated (status : Status) (driver : δ) (trace : Trace)
  /-- The call came at the wrong time. -/
  | refused (misuse : Misuse)
  deriving DecidableEq

/-- The reply with the events as `see` shows them. -/
def Reply.seen (see : Event → Event) : Reply δ → Reply δ
  | updated status driver trace => updated status driver (trace.map see)
  | reply => reply

lemma Reply.map_seen_self (rs : List (Reply δ)) : rs.map (seen fun e => e) = rs := by
  have hself : ∀ r : Reply δ, r.seen (fun e => e) = r := by
    intro r
    cases r with
    | updated => rw [seen, List.map_id']
    | _ => rfl
  rw [List.map_congr_left fun r _ => hself r, List.map_id']

namespace Tree

variable [Behavior L δ]

/-- What a call comes back with. -/
def reply (t : Tree L) : Call δ → Reply δ
  | .start =>
    match t.start with
    | .ok _ => .done
    | .error e => .refused e
  | .update driver =>
    match t.update driver with
    | .ok u => .updated u.status u.driver u.trace
    | .error e => .refused e
  | _ => .done

/-- What the calls of a run come back with, one after the other. -/
def replies (t : Tree L) : List (Call δ) → List (Reply δ)
  | [] => []
  | c :: cs => t.reply c :: (t.perform c).1.replies cs

end Tree

/-! ## Related nodes -/

/-- The kinds agree in every field that a poll reads.  A cursor and a cached gate are read only
while an activation is under way, and the gate only if it is evaluated once. -/
inductive NodeKind.Agrees (underway : Prop) : NodeKind L → NodeKind L → Prop
  | root : Agrees underway .root .root
  | composite (kind : CompositeKind) (cascade : Bool) {cursor cursor' : Nat} :
    (underway → cursor' = cursor) →
    Agrees underway (.composite kind cascade cursor) (.composite kind cascade cursor')
  | decorator (rule : DecoratorRule) {gate gate' : Bool} :
    (underway → rule.evaluatesOnce = true → gate' = gate) →
    Agrees underway (.decorator rule gate) (.decorator rule gate')
  | leaf (l : L) : Agrees underway (.leaf l) (.leaf l)

/-- Less is asked of the kinds where no activation is under way. -/
lemma NodeKind.Agrees.mono {p q : Prop} {k k' : NodeKind L} (h : k.Agrees p k') (hqp : q → p) :
    k.Agrees q k' := by
  cases h with
  | root => exact .root
  | composite kind cascade hcursor => exact .composite kind cascade fun hq => hcursor (hqp hq)
  | decorator rule hgate => exact .decorator rule fun hq => hgate (hqp hq)
  | leaf l => exact .leaf l

/-- Two nodes have been through a step: they are related, they have left the same scene behind, and
what happened looks the same. -/
structure Node.Alike (see : Event → Event) (R : Node L → Node L → Prop)
    (x y : Node L × Scene δ × Trace) : Prop where
  node : R x.1 y.1
  scene : y.2.1 = x.2.1
  trace : y.2.2.map see = x.2.2.map see

/-- A relation of nodes that agree in what a poll reads, and that remain related whatever happens to
them: in the course of a poll, when a reset clears them, and when the tree is rearmed. -/
structure Lockstep [Behavior L δ] (see : Event → Event) (R : Node L → Node L → Prop) : Prop where
  id : ∀ {n n'}, R n n' → n'.id = n.id
  started : ∀ {n n'}, R n n' → n'.state.started = n.state.started
  kind : ∀ {n n'}, R n n' → n.kind.Agrees (n.state.started = true) n'.kind
  activate : ∀ {n n'}, R n n' → n.state.started = false → ∀ scene : Scene δ,
    Node.Alike see R (n.activate scene) (n'.activate scene)
  /-- The hook of a poll has changed the leaf. -/
  work : ∀ {n n' l}, R n n' → n.kind = .leaf l → ∀ scene : Scene δ,
    R { n with kind := .leaf (Behavior.onUpdate n.id l scene).2.1 }
      { n' with kind := .leaf (Behavior.onUpdate n.id l scene).2.1 }
  /-- The composite has left a child behind. -/
  move : ∀ {n n'}, R n n' → ∀ cursor, R { n with kind := n.kind.withCursor cursor }
    { n' with kind := n'.kind.withCursor cursor }
  conclude : ∀ {n n'}, R n n' → ∀ (status : Status) (scene : Scene δ),
    Node.Alike see R (n.conclude status scene) (n'.conclude status scene)
  clear : ∀ {n n'}, R n n' → R n.clear n'.clear
  rearm : ∀ {n n'}, R n n' → R n.rearm n'.rearm

/-! ## Related arenas -/

/-- The arenas have the same references, and their nodes are related one by one. -/
structure Arena.Related (R : Node L → Node L → Prop) (a a' : Arena L) : Prop where
  children : a'.map Slot.children = a.map Slot.children
  nodes : ∀ (i : Nat) (slot slot' : Slot (Node L)), a[i]? = some slot → a'[i]? = some slot' →
    R slot.label slot'.label

structure World.Related (R : Node L → Node L → Prop) (w w' : World L δ) : Prop where
  arena : w.arena.Related R w'.arena
  scene : w'.scene = w.scene

structure Polled.Related (see : Event → Event) (R : Node L → Node L → Prop) (p p' : Polled L δ) :
    Prop where
  status : p'.status = p.status
  world : p.world.Related R p'.world
  trace : p'.trace.map see = p.trace.map see

structure Tree.Related (R : Node L → Node L → Prop) (t t' : Tree L) : Prop where
  arena : t.arena.Related R t'.arena
  board : t'.board = t.board
  state : t'.state = t.state

/-- The walk sees nothing but the references. -/
lemma Slot.walk_congr {α β : Type} {slots : List (Slot α)} {slots' : List (Slot β)}
    (h : slots'.map Slot.children = slots.map Slot.children) :
    ∀ i depth, walk slots' i depth = walk slots i depth := by
  have hlen : slots'.length = slots.length := by
    have := congrArg List.length h
    rwa [List.length_map, List.length_map] at this
  intro i
  induction hk : slots.length - i using Nat.strongRecOn generalizing i with
  | ind k ih =>
      intro depth
      rw [walk, walk]
      by_cases hi : i < slots.length
      · have hi' : i < slots'.length := by rwa [hlen]
        have hchildren : slots'[i].children = slots[i].children := by
          have := congrArg (·[i]?) h
          simpa [List.getElem?_eq_getElem hi, List.getElem?_eq_getElem hi'] using this
        rw [dif_pos hi, dif_pos hi', hchildren, hlen]
        refine congrArg ((i, depth) :: ·) (List.flatMap_congr fun c _ => ?_)
        by_cases hc : Forward slots.length i c
        · have hlt := hc.1
          rw [dif_pos hc, dif_pos hc]
          exact ih (slots.length - c) (by omega) c rfl (depth + 1)
        · rw [dif_neg hc, dif_neg hc]
      · rw [dif_neg hi, dif_neg (by rwa [hlen])]

namespace Arena

variable {R : Node L → Node L → Prop} {a a' : Arena L}

lemma Related.length (h : a.Related R a') : a'.length = a.length := by
  have := congrArg List.length h.children
  rwa [List.length_map, List.length_map] at this

/-- At every position there are two related nodes with the same references, or there is nothing. -/
lemma Related.getElem? (h : a.Related R a') (i : Nat) :
    a[i]? = none ∧ a'[i]? = none ∨
      ∃ n n' cs, a[i]? = some ⟨n, cs⟩ ∧ a'[i]? = some ⟨n', cs⟩ ∧ R n n' := by
  have hi := congrArg (·[i]?) h.children
  simp only [List.getElem?_map] at hi
  cases hslot : a[i]? with
  | none =>
      rw [hslot, Option.map_none, Option.map_eq_none_iff] at hi
      exact .inl ⟨rfl, hi⟩
  | some slot =>
      rw [hslot, Option.map_some, Option.map_eq_some_iff] at hi
      obtain ⟨slot', hslot', hchildren⟩ := hi
      refine .inr ⟨slot.label, slot'.label, slot.children, rfl, ?_, h.nodes i _ _ hslot hslot'⟩
      rw [hslot', ← hchildren]

/-- What related nodes have in common stands at the same positions. -/
lemma Related.map_getElem? {β : Type} (h : a.Related R a') {f : Node L → β}
    (hf : ∀ {n n'}, R n n' → f n' = f n) (i : Nat) :
    (a'[i]?.map fun slot => f slot.label) = a[i]?.map fun slot => f slot.label := by
  rcases h.getElem? i with ⟨hnone, hnone'⟩ | ⟨n, n', cs, hn, hn', hrel⟩
  · rw [hnone, hnone']
  · rw [hn, hn', Option.map_some, Option.map_some, hf hrel]

lemma related_self (h : ∀ slot ∈ a, R slot.label slot.label) : a.Related R a where
  children := rfl
  nodes i slot slot' hslot hslot' := by
    rw [hslot, Option.some.injEq] at hslot'
    subst hslot'
    exact h slot (List.mem_of_getElem? hslot)

/-- Changing every node relates the arenas if it relates the nodes. -/
lemma related_relabelAll {f : Node L → Node L} (hf : ∀ slot ∈ a, R slot.label (f slot.label)) :
    a.Related R (a.relabelAll f) where
  children := by
    rw [Arena.relabelAll, List.map_map]
    rfl
  nodes i slot slot' hslot hslot' := by
    rw [Arena.relabelAll, List.getElem?_map, hslot, Option.map_some, Option.some.injEq] at hslot'
    subst hslot'
    exact hf slot (List.mem_of_getElem? hslot)

/-- Changing the nodes at a position keeps arenas related if it keeps these nodes related. -/
lemma Related.relabel (h : a.Related R a') (i : Nat) {f f' : Node L → Node L}
    (hf : ∀ n n' cs, a[i]? = some ⟨n, cs⟩ → a'[i]? = some ⟨n', cs⟩ → R n n' → R (f n) (f' n')) :
    (a.relabel i f).Related R (a'.relabel i f') where
  children := by rw [children_relabel, children_relabel, h.children]
  nodes k slot slot' hslot hslot' := by
    rw [getElem?_relabel, Option.map_eq_some_iff] at hslot hslot'
    obtain ⟨s, hs, rfl⟩ := hslot
    obtain ⟨s', hs', rfl⟩ := hslot'
    rcases h.getElem? k with ⟨hnone, -⟩ | ⟨n, n', cs, hn, hn', hrel⟩
    · rw [hnone] at hs
      cases hs
    · rw [hn, Option.some.injEq] at hs
      rw [hn', Option.some.injEq] at hs'
      subst hs hs'
      by_cases hik : i = k
      · subst hik
        rw [if_pos rfl, if_pos rfl]
        exact hf n n' cs hn hn' hrel
      · rw [if_neg hik, if_neg hik]
        exact hrel

lemma Related.relabelAll {S : Node L → Node L → Prop} (h : a.Related R a') {f f' : Node L → Node L}
    (hf : ∀ {n n'}, R n n' → S (f n) (f' n')) : (a.relabelAll f).Related S (a'.relabelAll f') where
  children := by
    have hkeeps : ∀ (a : Arena L) (f : Node L → Node L),
        (a.relabelAll f).map Slot.children = a.map Slot.children := by
      intro a f
      rw [Arena.relabelAll, List.map_map]
      rfl
    rw [hkeeps, hkeeps, h.children]
  nodes k slot slot' hslot hslot' := by
    rw [Arena.relabelAll, List.getElem?_map, Option.map_eq_some_iff] at hslot hslot'
    obtain ⟨s, hs, rfl⟩ := hslot
    obtain ⟨s', hs', rfl⟩ := hslot'
    exact hf (h.nodes k s s' hs hs')

lemma Related.clearBelow (h : a.Related R a') (hclear : ∀ {n n'}, R n n' → R n.clear n'.clear)
    (i : Nat) : (a.clearBelow i).Related R (a'.clearBelow i) := by
  rw [Arena.clearBelow, Arena.clearBelow, below, below, walk_congr h.children]
  induction ((walk a i 0).tail.map Prod.fst) generalizing a a' with
  | nil => exact h
  | cons k ks ih =>
      exact ih (h.relabel k fun _ _ _ _ _ hrel => hclear hrel)

end Arena

/-! ## Polls of related arenas -/

namespace Lockstep

variable [Behavior L δ] {see : Event → Event} {R : Node L → Node L → Prop}
  {child child' : Poller L δ} {w w' : World L δ}

/-- Two ways to poll that do the same on related arenas. -/
def Polls (see : Event → Event) (R : Node L → Node L → Prop) (child child' : Poller L δ) : Prop :=
  ∀ (c : Nat) (w w' : World L δ), w.Related R w' → (child c w).Related see R (child' c w')

/-- Leaving a child behind keeps the arenas related. -/
lemma passed (hR : Lockstep (δ := δ) see R) {p p' : Polled L δ} (h : p.Related see R p')
    (i cursor : Nat) : (p.passed i cursor).Related R (p'.passed i cursor) where
  arena := h.world.arena.relabel i fun _ _ _ _ _ hrel => hR.move hrel (cursor + 1)
  scene := h.world.scene

omit [Behavior L δ] in
lemma pollRoot (hchild : Polls see R child child') (children : List Nat) (h : w.Related R w') :
    (pollRoot child children w).Related see R (pollRoot child' children w') := by
  cases children with
  | nil => exact ⟨rfl, h, rfl⟩
  | cons c cs => exact hchild c w w' h

/-- Polling the children of a composite from the cursor on. -/
lemma pollFrom (hR : Lockstep (δ := δ) see R) (hchild : Polls see R child child') (i : Nat)
    (id : NodeId) (kind : CompositeKind) (cascade : Bool) (cursor : Nat) (remaining : List Nat)
    (h : w.Related R w') :
    (pollFrom child i id kind cascade cursor remaining w).Related see R
      (pollFrom child' i id kind cascade cursor remaining w') := by
  induction remaining generalizing cursor w w' with
  | nil => exact ⟨rfl, h, rfl⟩
  | cons c rest ih =>
      have hp := hchild c w w' h
      by_cases hs : (child c w).status = kind.advancesOn
      · have hs' : (child' c w').status = kind.advancesOn := hp.status.trans hs
        have hpassed := hR.passed hp i cursor
        cases rest with
        | nil =>
            rw [pollFrom_ends rfl hs, pollFrom_ends rfl hs']
            exact ⟨rfl, hpassed, hp.trace⟩
        | cons d rest =>
            cases hc : cascade with
            | true =>
                subst hc
                rw [pollFrom_cascades rfl hs rfl, pollFrom_cascades rfl hs' rfl]
                have hrest := ih (cursor + 1) hpassed
                refine ⟨hrest.status, hrest.world, ?_⟩
                simp only [Polled.after, List.map_append, hp.trace, hrest.trace]
            | false =>
                rw [pollFrom_pauses rfl hs rfl, pollFrom_pauses rfl hs' rfl]
                refine ⟨rfl, hpassed, ?_⟩
                simp only [List.map_append, hp.trace]
      · have hs' : (child' c w').status ≠ kind.advancesOn := hp.status ▸ hs
        rw [pollFrom_stops rfl hs, pollFrom_stops rfl hs']
        exact hp

omit [Behavior L δ] in
/-- A gate that is evaluated now is evaluated on the same blackboard, and a cached one is the
same. -/
lemma pollDecorated (hchild : Polls see R child child') (rule : DecoratorRule) {gate gate' : Bool}
    (hgate : rule.evaluatesOnce = true → gate' = gate) (children : List Nat)
    (h : w.Related R w') :
    (pollDecorated child rule gate children w).Related see R
      (pollDecorated child' rule gate' children w') := by
  have hadmits : Node.admits rule gate' w'.scene.board = Node.admits rule gate w.scene.board := by
    rw [Node.admits, Node.admits, h.scene]
    split
    · next honce => exact hgate honce
    · rfl
  cases ha : Node.admits rule gate w.scene.board with
  | false =>
      rw [pollDecorated_refused ha, pollDecorated_refused (hadmits.trans ha)]
      exact ⟨rfl, h, rfl⟩
  | true =>
      have hroot := pollRoot hchild children h
      rw [pollDecorated_admitted ha, pollDecorated_admitted (hadmits.trans ha)]
      exact ⟨congrArg rule.map hroot.status, hroot.world, hroot.trace⟩

variable {i : Nat} {n n' : Node L} {cs : List Nat}

/-- Beginning an activation, unless one is under way.  One is under way afterwards. -/
lemma begin (hR : Lockstep (δ := δ) see R) (h : w.Related R w')
    (hn : w.arena[i]? = some ⟨n, cs⟩) (hrel : R n n') :
    (w.activate i n).1.Related R (w'.activate i n').1 ∧
      (w'.activate i n').2.map see = (w.activate i n).2.map see ∧
      ∃ m, (w.activate i n).1.arena[i]? = some ⟨m, cs⟩ ∧ m.state.started = true := by
  cases hstarted : n.state.started with
  | true =>
      have hstarted' := (hR.started hrel).trans hstarted
      simp only [World.activate, hstarted, hstarted', if_true]
      exact ⟨h, trivial, n, hn, hstarted⟩
  | false =>
      have hstarted' := (hR.started hrel).trans hstarted
      have halike := hR.activate hrel hstarted w.scene
      have hm := n.started_begin w.scene
      rw [Node.begin, hstarted] at hm
      simp only [World.activate, hstarted, hstarted', Bool.false_eq_true, if_false, h.scene] at hm ⊢
      refine ⟨⟨h.arena.relabel i fun _ _ _ _ _ _ => halike.node, halike.scene⟩, halike.trace, ?_⟩
      refine ⟨(n.activate w.scene).1, ?_, hm⟩
      rw [Arena.getElem?_relabel, hn, Option.map_some, if_pos rfl]

/-- Running a node that has an activation under way. -/
lemma run (hR : Lockstep (δ := δ) see R) (hchild : Polls see R child child') (h : w.Related R w')
    (hn : w.arena[i]? = some ⟨n, cs⟩) (hstarted : n.state.started = true) :
    (run child i w).Related see R (run child' i w') := by
  rcases h.arena.getElem? i with ⟨hnone, -⟩ | ⟨m, m', ds, hm, hm', hrel⟩
  · rw [hnone] at hn
    cases hn
  · obtain ⟨rfl, rfl⟩ : m = n ∧ ds = cs := by
      rw [hm, Option.some.injEq, Slot.mk.injEq] at hn
      exact hn
    have hid := hR.id hrel
    have hkind := hR.kind hrel
    have hwork := @hR.work m m'
    rw [BehaviorTree.run, BehaviorTree.run]
    simp only [hm, hm', hid]
    obtain ⟨id, kind, state⟩ := m
    obtain ⟨id', kind', state'⟩ := m'
    simp only at hkind hstarted ⊢
    cases hkind with
    | root => exact pollRoot hchild ds h
    | composite kind cascade hcursor =>
        rw [hcursor hstarted]
        exact hR.pollFrom hchild i id kind cascade _ _ h
    | decorator rule hgate => exact pollDecorated hchild rule (hgate hstarted) ds h
    | leaf l =>
        simp only [h.scene]
        refine ⟨rfl, ⟨?_, rfl⟩, rfl⟩
        dsimp only
        refine h.arena.relabel i fun k k' es hk hk' _ => ?_
        rw [hm, Option.some.injEq, Slot.mk.injEq] at hk
        rw [hm', Option.some.injEq, Slot.mk.injEq] at hk'
        rw [← hk.1, ← hk'.1]
        exact hwork hrel rfl w.scene

/-- Ending the poll of a node. -/
lemma conclude_world (hR : Lockstep (δ := δ) see R) (h : w.Related R w') (i : Nat)
    (status : Status) :
    (w.conclude i status).1.Related R (w'.conclude i status).1 ∧
      (w'.conclude i status).2.map see = (w.conclude i status).2.map see := by
  rcases h.arena.getElem? i with ⟨hnone, hnone'⟩ | ⟨n, n', cs, hn, hn', hrel⟩
  · simp only [World.conclude, hnone, hnone']
    exact ⟨h, trivial⟩
  · have halike := hR.conclude hrel status w.scene
    have hclears : (n'.conclude status w.scene).1.clearsOn status =
        (n.conclude status w.scene).1.clearsOn status := by
      have hkind := hR.kind halike.node
      rw [Node.clearsOn, Node.clearsOn]
      revert hkind
      generalize (n.conclude status w.scene).1.kind = k
      generalize (n'.conclude status w.scene).1.kind = k'
      intro hkind
      cases hkind <;> rfl
    have hrelabel : (w.arena.relabel i fun _ => (n.conclude status w.scene).1).Related R
        (w'.arena.relabel i fun _ => (n'.conclude status w.scene).1) :=
      h.arena.relabel i fun _ _ _ _ _ _ => halike.node
    rw [World.conclude_of_slot hn, World.conclude_of_slot hn']
    simp only [h.scene, hclears]
    refine ⟨⟨?_, halike.scene⟩, halike.trace⟩
    split
    · exact hrelabel.clearBelow hR.clear i
    · exact hrelabel

/-- **Polling a node in related arenas**, given that polling its children does the same. -/
lemma pollNode (hR : Lockstep (δ := δ) see R) (hchild : Polls see R child child') (i : Nat)
    (h : w.Related R w') : (pollNode child i w).Related see R (pollNode child' i w') := by
  rcases h.arena.getElem? i with ⟨hnone, hnone'⟩ | ⟨n, n', cs, hn, hn', hrel⟩
  · simp only [BehaviorTree.pollNode, hnone, hnone']
    exact ⟨rfl, h, rfl⟩
  · obtain ⟨hbegun, htrace, m, hm, hstarted⟩ := hR.begin h hn hrel
    have hrun := hR.run hchild hbegun hm hstarted
    obtain ⟨hended, hconclusion⟩ := hR.conclude_world hrun.world i
      (BehaviorTree.run child i (w.activate i n).1).status
    simp only [BehaviorTree.pollNode, hn, hn', hR.id hrel]
    refine ⟨hrun.status, by rw [hrun.status]; exact hended, ?_⟩
    simp only [List.map_cons, List.map_append, hrun.status, hrun.trace, htrace, hconclusion]

/-- **Polls of related arenas do the same**, and leave related arenas behind. -/
theorem poll (hR : Lockstep (δ := δ) see R) (n i : Nat) (h : w.Related R w') :
    (poll n i w).Related see R (poll n i w') := by
  -- the induction is on how much of the arena lies ahead, as in the recursion of the poll
  induction hk : n - i using Nat.strongRecOn generalizing i w w' with
  | ind k ih =>
      rw [poll_eq_pollNode, poll_eq_pollNode]
      refine hR.pollNode (fun c w w' h => ?_) i h
      rw [pollBelow, pollBelow]
      by_cases hc : Forward n i c
      · have hlt := hc.1
        have hlt' := hc.2
        rw [dif_pos hc, dif_pos hc]
        exact ih (n - c) (by omega) c h rfl
      · rw [dif_neg hc, dif_neg hc]
        exact ⟨rfl, h, rfl⟩

/-! ## Runs of related trees -/

variable {t t' : Tree L}

/-- Updates of related trees. -/
lemma update (hR : Lockstep (δ := δ) see R) (h : t.Related R t') (driver : δ) :
    (∃ e, t.update driver = .error e ∧ t'.update driver = .error e) ∨
      ∃ u u', t.update driver = .ok u ∧ t'.update driver = .ok u' ∧ u'.status = u.status ∧
        u'.driver = u.driver ∧ u'.trace.map see = u.trace.map see ∧ u.tree.Related R u'.tree := by
  cases hboard : t.board with
  | none =>
      refine .inl ⟨.notStarted, ?_, ?_⟩
      · rw [Tree.update, hboard]
      · rw [Tree.update, h.board, hboard]
  | some board =>
      refine .inr ?_
      have hboard' := h.board.trans hboard
      cases hstate : t.state.isTerminal with
      | true =>
          have hstate' : t'.state.isTerminal = true := by rw [h.state, hstate]
          exact ⟨_, _, Tree.update_of_terminal hboard hstate driver,
            Tree.update_of_terminal hboard' hstate' driver, h.state, rfl, rfl, h⟩
      | false =>
          have hw : World.Related R (⟨t.arena, ⟨board, driver⟩⟩ : World L δ)
              ⟨t'.arena, ⟨board, driver⟩⟩ := ⟨h.arena, rfl⟩
          have hpoll := hR.poll t.arena.length 0 hw
          simp only [Tree.update, hboard, hboard', h.state, hstate, Bool.false_eq_true, if_false,
            h.arena.length]
          refine ⟨_, _, rfl, rfl, hpoll.status, ?_, hpoll.trace, hpoll.world.arena, ?_, ?_⟩
          · exact congrArg Scene.driver hpoll.world.scene
          · exact congrArg (fun scene => some scene.board) hpoll.world.scene
          · exact hpoll.status

/-- **A call on related trees** comes back with the same, and leaves related trees behind. -/
lemma perform (hR : Lockstep (δ := δ) see R) (h : t.Related R t') (call : Call δ) :
    (t'.reply call).seen see = (t.reply call).seen see ∧
      (t.perform call).1.Related R (t'.perform call).1 := by
  cases call with
  | start =>
      simp only [Tree.reply, Tree.perform, Tree.start, h.board]
      cases t.board with
      | none => exact ⟨rfl, h.arena, rfl, h.state⟩
      | some board => exact ⟨rfl, h⟩
  | update driver =>
      rcases hR.update h driver with ⟨e, he, he'⟩ | ⟨u, u', hu, hu', hstatus, hdriver, htrace, hrel⟩
      · simp only [Tree.reply, Tree.perform, he, he']
        exact ⟨trivial, h⟩
      · simp only [Tree.reply, Tree.perform, hu, hu', Reply.seen, hstatus, hdriver, htrace]
        exact ⟨trivial, hrel⟩
  | halt => exact ⟨rfl, h.arena, h.board, rfl⟩
  | rearm => exact ⟨rfl, h.arena.relabelAll hR.rearm, h.board, rfl⟩
  | edit f => exact ⟨rfl, h.arena, congrArg (Option.map f) h.board, h.state⟩

/-- **Every run of related trees comes back with the same**, and leaves related trees behind. -/
theorem replies (hR : Lockstep (δ := δ) see R) (h : t.Related R t') (calls : List (Call δ)) :
    (t'.replies calls).map (Reply.seen see) = (t.replies calls).map (Reply.seen see) ∧
      (t.performAll calls).1.Related R (t'.performAll calls).1 := by
  induction calls generalizing t t' with
  | nil => exact ⟨rfl, h⟩
  | cons call calls ih =>
      obtain ⟨hreply, hnow⟩ := hR.perform h call
      obtain ⟨hreplies, hlater⟩ := ih hnow
      refine ⟨?_, hlater⟩
      rw [Tree.replies, Tree.replies, List.map_cons, List.map_cons, hreply, hreplies]

end Lockstep

/-! ## What lasts -/

/-- A property that a node keeps whatever happens to it. -/
structure Lasting [Behavior L δ] (P : Node L → Prop) : Prop where
  activate : ∀ {n}, P n → ∀ scene : Scene δ, P (n.activate scene).1
  work : ∀ {n l}, P n → n.kind = .leaf l → ∀ scene : Scene δ,
    P { n with kind := .leaf (Behavior.onUpdate n.id l scene).2.1 }
  move : ∀ {n}, P n → ∀ cursor, P { n with kind := n.kind.withCursor cursor }
  conclude : ∀ {n}, P n → ∀ (status : Status) (scene : Scene δ), P (n.conclude status scene).1
  clear : ∀ {n}, P n → P n.clear
  rearm : ∀ {n}, P n → P n.rearm

/-- A hook can leave a leaf with other private fields. -/
inductive Behavior.Hooked [Behavior L δ] : L → L → Prop
  | start (id : NodeId) (first : Bool) (l : L) (scene : Scene δ) :
    Hooked l (Behavior.onStart id first l scene).1
  | update (id : NodeId) (l : L) (scene : Scene δ) :
    Hooked l (Behavior.onUpdate id l scene).2.1
  | stop (id : NodeId) (l : L) (scene : Scene δ) : Hooked l (Behavior.onStop id l scene).1

/-- The leaf that a node is, with its private fields. -/
def NodeKind.leaf? : NodeKind L → Option L
  | .leaf l => some l
  | _ => none

namespace NodeKind

lemma agrees_refl (p : Prop) (k : NodeKind L) : k.Agrees p k := by
  cases k with
  | root => exact .root
  | composite kind cascade => exact .composite kind cascade fun _ => rfl
  | decorator rule => exact .decorator rule fun _ _ => rfl
  | leaf l => exact .leaf l

@[simp] lemma leaf?_rewind (k : NodeKind L) : k.rewind.leaf? = k.leaf? := by
  cases k <;> rfl

@[simp] lemma leaf?_withCursor (k : NodeKind L) (cursor : Nat) :
    (k.withCursor cursor).leaf? = k.leaf? := by
  cases k <;> rfl

end NodeKind

section Lasting

variable [Behavior L δ] {P : Node L → Prop}

/-- What a node keeps is kept in lockstep with itself. -/
lemma Lasting.lockstep (hP : Lasting P) :
    Lockstep (fun e => e) fun n n' : Node L => n' = n ∧ P n where
  id h := congrArg Node.id h.1
  started h := congrArg (fun n => n.state.started) h.1
  kind h := h.1 ▸ NodeKind.agrees_refl _ _
  activate h _ scene := by
    obtain ⟨rfl, h⟩ := h
    exact ⟨⟨rfl, hP.activate h scene⟩, rfl, rfl⟩
  work h hl scene := by
    obtain ⟨rfl, h⟩ := h
    exact ⟨rfl, hP.work h hl scene⟩
  move h cursor := by
    obtain ⟨rfl, h⟩ := h
    exact ⟨rfl, hP.move h cursor⟩
  conclude h status scene := by
    obtain ⟨rfl, h⟩ := h
    exact ⟨⟨rfl, hP.conclude h status scene⟩, rfl, rfl⟩
  clear h := ⟨congrArg Node.clear h.1, hP.clear h.2⟩
  rearm h := ⟨congrArg Node.rearm h.1, hP.rearm h.2⟩

/-- **What every node of a tree keeps holds of every node after any run.** -/
theorem Lasting.performAll (hP : Lasting P) {t : Tree L} (h : ∀ slot ∈ t.arena, P slot.label)
    (calls : List (Call δ)) : ∀ slot ∈ (t.performAll calls).1.arena, P slot.label := by
  have hself : t.Related (fun n n' : Node L => n' = n ∧ P n) t :=
    ⟨Arena.related_self fun slot hslot => ⟨rfl, h slot hslot⟩, rfl, rfl⟩
  intro slot hslot
  obtain ⟨i, hi⟩ := List.mem_iff_getElem?.mp hslot
  exact ((hP.lockstep.replies hself calls).2.arena.nodes i slot slot hi hi).2

/-- What leaves keep when their hooks are called is kept by the nodes. -/
lemma lasting_of_hooked {Q : NodeId → L → Prop}
    (hQ : ∀ id l l', Behavior.Hooked l l' → Q id l → Q id l') :
    Lasting (δ := δ) fun n : Node L => ∀ l, n.kind.leaf? = some l → Q n.id l where
  activate {n} h scene := by
    obtain ⟨id, kind, state⟩ := n
    cases kind with
    | leaf l =>
        rintro _ ⟨⟩
        exact hQ id l _ (.start id _ l scene) (h l rfl)
    | _ => rintro _ ⟨⟩
  work {n l} h hl scene := by
    rintro _ ⟨⟩
    exact hQ n.id l _ (.update n.id l scene) (h l (by rw [hl]; rfl))
  move h cursor := by simpa only [NodeKind.leaf?_withCursor] using h
  conclude {n} h status scene := by
    obtain ⟨id, kind, state⟩ := n
    rw [Node.conclude]
    split
    · cases kind with
      | leaf l =>
          rintro _ ⟨⟩
          exact hQ id l _ (.stop id l scene) (h l rfl)
      | _ => rintro _ ⟨⟩
    · exact h
  clear h := h
  rearm {n} h := by
    intro l hl
    exact h l (by rwa [Node.rearm, NodeKind.leaf?_rewind] at hl)

end Lasting

end BehaviorTree
