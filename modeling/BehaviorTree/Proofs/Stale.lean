import BehaviorTree.Proofs.Lockstep

/-!
# Stale fields

A reset clears the nodes below it and leaves their cursors and cached gates as they are, and a
composite that ends keeps its cursor where it was.  Nothing comes of it: every activation writes
these fields before they are read, so what they hold in between is nothing that anyone can see.

* `Tree.Agrees` — the trees are the same but for stale fields, that is for the cursors of composites
  that are idle and for all cached gates but those of started decorators that are evaluated once.
* `Tree.overwrite` — the tree with any values in its stale fields.  It agrees with the tree.
* **`Tree.Agrees.indistinguishable`** — calls on trees that agree come back with the same, and the
  trees still agree afterwards.
-/

namespace BehaviorTree

variable {L δ : Type}

/-- The nodes are the same but for stale fields. -/
structure Node.Agrees (n n' : Node L) : Prop where
  id : n'.id = n.id
  state : n'.state = n.state
  kind : n.kind.Agrees (n.state.started = true) n'.kind

/-- The trees are the same but for stale fields. -/
abbrev Tree.Agrees (t t' : Tree L) : Prop := t.Related Node.Agrees t'

/-- The node with other values in the fields that are stale. -/
def Node.overwrite (cursor : NodeId → Nat) (gate : NodeId → Bool) (n : Node L) : Node L :=
  { n with kind := match n.kind with
    | .composite kind cascade c =>
      .composite kind cascade (if n.state.started then c else cursor n.id)
    | .decorator rule g =>
      .decorator rule (if n.state.started && rule.evaluatesOnce then g else gate n.id)
    | kind => kind }

/-- The tree with other values in the fields that are stale. -/
def Tree.overwrite (cursor : NodeId → Nat) (gate : NodeId → Bool) (t : Tree L) : Tree L :=
  { t with arena := t.arena.relabelAll (Node.overwrite cursor gate) }

namespace NodeKind

variable {p : Prop} {k k' : NodeKind L}

lemma agrees_rewind (h : k.Agrees p k') (q : Prop) : k.rewind.Agrees q k'.rewind := by
  cases h with
  | root => exact .root
  | composite kind cascade => exact .composite kind cascade fun _ => rfl
  | decorator rule => exact .decorator rule fun _ _ => rfl
  | leaf l => exact .leaf l

lemma agrees_withCursor (h : k.Agrees p k') (cursor : Nat) :
    (k.withCursor cursor).Agrees p (k'.withCursor cursor) := by
  cases h with
  | composite kind cascade => exact .composite kind cascade fun _ => rfl
  | root => exact .root
  | decorator rule hgate => exact .decorator rule hgate
  | leaf l => exact .leaf l

end NodeKind

namespace Node

lemma agrees_overwrite (cursor : NodeId → Nat) (gate : NodeId → Bool) (n : Node L) :
    n.Agrees (n.overwrite cursor gate) := by
  obtain ⟨id, kind, state⟩ := n
  refine ⟨rfl, rfl, ?_⟩
  cases kind with
  | root => exact .root
  | composite kind cascade c => exact .composite kind cascade fun hstarted => if_pos hstarted
  | decorator rule g =>
      refine .decorator rule fun hstarted honce => if_pos ?_
      exact (Bool.and_eq_true _ _).mpr ⟨hstarted, honce⟩
  | leaf l => exact .leaf l

variable [Behavior L δ] {n n' : Node L}

/-- An activation writes every stale field that it lets be read. -/
lemma Agrees.activate (h : n.Agrees n') (scene : Scene δ) :
    Alike (fun e => e) Agrees (n.activate scene) (n'.activate scene) := by
  obtain ⟨id, kind, state⟩ := n
  obtain ⟨id', kind', state'⟩ := n'
  obtain ⟨hid, hstate, hkind⟩ := h
  simp only at hid hstate hkind
  subst hid hstate
  cases hkind with
  | root => exact ⟨⟨rfl, rfl, .root⟩, rfl, rfl⟩
  | composite kind cascade => exact ⟨⟨rfl, rfl, .composite kind cascade fun _ => rfl⟩, rfl, rfl⟩
  | @decorator rule gate gate' hgate =>
      refine ⟨⟨rfl, rfl, .decorator rule fun _ honce => ?_⟩, rfl, rfl⟩
      rw [if_pos honce, if_pos honce]
  | leaf l => exact ⟨⟨rfl, rfl, .leaf _⟩, rfl, rfl⟩

lemma Agrees.conclude (h : n.Agrees n') (status : Status) (scene : Scene δ) :
    Alike (fun e => e) Agrees (n.conclude status scene) (n'.conclude status scene) := by
  obtain ⟨id, kind, state⟩ := n
  obtain ⟨id', kind', state'⟩ := n'
  obtain ⟨hid, hstate, hkind⟩ := h
  simp only at hid hstate hkind
  subst hid hstate
  rw [Node.conclude, Node.conclude]
  split
  · have hended := hkind.mono (q := false = true) fun hstarted => by cases hstarted
    cases hkind with
    | leaf l => exact ⟨⟨rfl, rfl, .leaf _⟩, rfl, rfl⟩
    | _ => exact ⟨⟨rfl, rfl, hended⟩, rfl, rfl⟩
  · exact ⟨⟨rfl, rfl, hkind⟩, rfl, rfl⟩

/-- **Nodes that agree stay in agreement**, whatever happens to them. -/
theorem lockstep_agrees : Lockstep (δ := δ) (L := L) (fun e => e) Agrees where
  id h := h.id
  started h := congrArg NodeState.started h.state
  kind h := h.kind
  activate h _ := h.activate
  work h _ _ := ⟨h.id, h.state, .leaf _⟩
  move h cursor := ⟨h.id, h.state, NodeKind.agrees_withCursor h.kind cursor⟩
  conclude h := h.conclude
  clear h := ⟨h.id, congrArg NodeState.clear h.state, h.kind.mono fun hstarted => by cases hstarted⟩
  rearm h := ⟨h.id, congrArg NodeState.clear h.state, NodeKind.agrees_rewind h.kind _⟩

end Node

namespace Tree

/-- What is stale may be anything. -/
lemma agrees_overwrite (cursor : NodeId → Nat) (gate : NodeId → Bool) (t : Tree L) :
    t.Agrees (t.overwrite cursor gate) :=
  ⟨Arena.related_relabelAll fun slot _ => slot.label.agrees_overwrite cursor gate, rfl, rfl⟩

variable [Behavior L δ]

/-- **Stale fields cannot be observed.**  A call on trees that are the same but for stale fields
comes back with the same: an update with its status, with the calls of hooks in its course and with
the context of the driver.  The trees are again the same but for stale fields, and so they remain
over every run. -/
theorem Agrees.indistinguishable {t t' : Tree L} (h : t.Agrees t') :
    (∀ call : Call δ, t'.reply call = t.reply call ∧
      (t.perform call).1.Agrees (t'.perform call).1) ∧
    ∀ calls : List (Call δ), t'.replies calls = t.replies calls ∧
      (t.performAll calls).1.Agrees (t'.performAll calls).1 := by
  have hrun : ∀ calls : List (Call δ), t'.replies calls = t.replies calls ∧
      (t.performAll calls).1.Agrees (t'.performAll calls).1 := by
    intro calls
    have hreplies := Node.lockstep_agrees.replies h calls
    rwa [Reply.map_seen_self, Reply.map_seen_self] at hreplies
  refine ⟨fun call => ?_, hrun⟩
  obtain ⟨hreply, hnow⟩ := hrun [call]
  exact ⟨(List.cons.inj hreply).1, hnow⟩

/-- A sequence that a failed reset has left with its cursor behind the first leaf is polled again,
as if the cursor had been left anywhere else. -/
theorem indistinguishable_of_reset :
    let t : Tree Constant := ofBranch (.node (.fresh ⟨0⟩ .root)
      [.node (.fresh ⟨1⟩ (.decorator .repeat false)) [.node (.fresh ⟨2⟩ (.decorator .reset false))
        [.node (.fresh ⟨3⟩ (.composite .sequence true 0))
          [.node (.fresh ⟨4⟩ (.leaf .succeed)) [], .node (.fresh ⟨5⟩ (.leaf .fail)) []]]]])
    let now := (t.performAll [.start, .update ()]).1
    let other := now.overwrite (fun _ => 7) (fun _ => true)
    Tree.build .standard (some (.decorate .repeat (.decorate .reset (.sequence
      [.leaf none Constant.succeed, .leaf none Constant.fail])))) = .ok t ∧
      now.snapshot.map Snapshot.cursor = [none, none, none, some 1, none, none] ∧
      other.snapshot.map Snapshot.cursor = [none, none, none, some 7, none, none] ∧
      now.Agrees other ∧
      other.replies [.update (), .halt, .rearm, .update ()] =
        now.replies [.update (), .halt, .rearm, .update ()] := by
  intro t now other
  have hagrees : now.Agrees other := agrees_overwrite _ _ now
  refine ⟨rfl, by decide +kernel, by decide +kernel, hagrees, ?_⟩
  exact (hagrees.indistinguishable.2 [.update (), .halt, .rearm, .update ()]).1

end Tree

end BehaviorTree
