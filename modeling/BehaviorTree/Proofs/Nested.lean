import BehaviorTree.Poll
import BehaviorTree.Proofs.Layout

/-!
# Polling a nested tree

`Branch.poll` polls a tree by plain recursion on it: a node knows its subtrees, and there is no
arena, no position and no reference.  `BehaviorTree.Proofs.Refinement` shows that the poll of an
arena does the same, so whatever has to be said about a poll is said about this one.

The rule for a node is the same whatever its kind: an idle node begins an activation
(`Node.begin`), the node runs (`Node.run`), and its result is recorded, where a terminal one ends
the activation and a failed reset clears every node below (`Outcome.conclude`).

* `Onward` — what polling the children of a composite from the cursor on can do, one case for each
  way in which it can end; `pollFrom_onward` says that these are all.
* `Node.static` — what no poll changes: the identity, and the kind without cursor, gate and the
  private fields of a leaf.  **`map_static_poll`**: a poll keeps the static tree, and with it the
  shape, the sizes and the identities.
-/

namespace BehaviorTree

variable {τ υ L δ : Type}

/-- The outcome of polling a part of a nested tree: the result, what has become of the part, the
scene after the poll, and what happened. -/
structure Outcome (τ δ : Type) where
  status : Status
  part : τ
  scene : Scene δ
  trace : Trace

namespace Outcome

/-- The same outcome for a part that the polled one belongs to. -/
def map (f : τ → υ) (o : Outcome τ δ) : Outcome υ δ := { o with part := f o.part }

/-- The same outcome with earlier events in front. -/
def after (o : Outcome τ δ) (earlier : Trace) : Outcome τ δ :=
  { o with trace := earlier ++ o.trace }

@[simp] lemma status_map (f : τ → υ) (o : Outcome τ δ) : (o.map f).status = o.status := rfl

@[simp] lemma part_map (f : τ → υ) (o : Outcome τ δ) : (o.map f).part = f o.part := rfl

@[simp] lemma scene_map (f : τ → υ) (o : Outcome τ δ) : (o.map f).scene = o.scene := rfl

@[simp] lemma trace_map (f : τ → υ) (o : Outcome τ δ) : (o.map f).trace = o.trace := rfl

@[simp] lemma status_after (o : Outcome τ δ) (t : Trace) : (o.after t).status = o.status := rfl

@[simp] lemma part_after (o : Outcome τ δ) (t : Trace) : (o.after t).part = o.part := rfl

@[simp] lemma scene_after (o : Outcome τ δ) (t : Trace) : (o.after t).scene = o.scene := rfl

@[simp] lemma trace_after (o : Outcome τ δ) (t : Trace) : (o.after t).trace = t ++ o.trace := rfl

end Outcome

/-- Beginning an activation counts it, up to the largest 32-bit number. -/
lemma NodeState.toNat_activate (s : NodeState) :
    s.activate.activations.toNat = min (UInt32.size - 1) (s.activations.toNat + 1) := by
  have hlt := s.activations.toNat_lt
  have hsize : UInt32.size = 4294967296 := rfl
  rw [activate]
  simp only
  split
  · next h =>
      rw [UInt32.toNat_add]
      simp only [UInt32.reduceToNat]
      omega
  · next h => omega

namespace Node

/-- Whether ending a poll of the node with a status clears everything below it. -/
def clearsOn (n : Node L) (status : Status) : Bool :=
  match n.kind with
  | .decorator rule _ => rule.resetsOn status
  | _ => false

/-- The subtrees of the node once a poll of it has ended with a status. -/
def settle (n : Node L) (status : Status) (ts : List (Branch (Node L))) : List (Branch (Node L)) :=
  if n.clearsOn status then ts.map (Branch.map clear) else ts

lemma settle_running (n : Node L) (ts : List (Branch (Node L))) : n.settle .running ts = ts := by
  obtain ⟨id, kind, state⟩ := n
  cases kind with
  | decorator rule gate => cases rule <;> rfl
  | root => rfl
  | composite => rfl
  | leaf => rfl

variable [Behavior L δ]

/-- Begins an activation of an idle node; one under way goes on. -/
def begin (n : Node L) (scene : Scene δ) : Node L × Scene δ × Trace :=
  if n.state.started then (n, scene, []) else n.activate scene

/-- Runs a node that has an activation under way, given what polling the first of its children does
and what polling them from the cursor on does. -/
def run (n : Node L) (ts : List (Branch (Node L)))
    (first : Scene δ → Outcome (List (Branch (Node L))) δ)
    (onward : CompositeKind → Bool → Nat → Scene δ → Outcome (Nat × List (Branch (Node L))) δ)
    (scene : Scene δ) : Outcome (Branch (Node L)) δ :=
  match n.kind with
  | .root => (first scene).map (.node n)
  | .composite kind cascade cursor =>
    (onward kind cascade cursor scene).map fun (moves, ts) =>
      .node { n with kind := .composite kind cascade (cursor + moves) } ts
  | .decorator rule gate =>
    if admits rule gate scene.board then
      let o := first scene
      { o.map (.node n) with status := rule.map o.status }
    else ⟨.failure, .node n ts, scene, []⟩
  | .leaf l =>
    let (status, l, scene) := Behavior.onUpdate n.id l scene
    ⟨status, .node { n with kind := .leaf l } ts, scene, [.hook n.id (.update status)]⟩

section Run

variable {n : Node L} {ts : List (Branch (Node L))}
  {first : Scene δ → Outcome (List (Branch (Node L))) δ}
  {onward : CompositeKind → Bool → Nat → Scene δ → Outcome (Nat × List (Branch (Node L))) δ}
  {scene : Scene δ}

lemma run_root (h : n.kind = .root) :
    n.run ts first onward scene = (first scene).map (.node n) := by
  simp only [run, h]

lemma run_composite {kind : CompositeKind} {cascade : Bool} {cursor : Nat}
    (h : n.kind = .composite kind cascade cursor) :
    n.run ts first onward scene = (onward kind cascade cursor scene).map fun p =>
      .node { n with kind := .composite kind cascade (cursor + p.1) } p.2 := by
  simp only [run, h]

lemma run_admitted {rule : DecoratorRule} {gate : Bool} (h : n.kind = .decorator rule gate)
    (hadmits : admits rule gate scene.board = true) :
    n.run ts first onward scene =
      { (first scene).map (.node n) with status := rule.map (first scene).status } := by
  simp only [run, h, hadmits, if_true]

lemma run_refused {rule : DecoratorRule} {gate : Bool} (h : n.kind = .decorator rule gate)
    (hadmits : admits rule gate scene.board = false) :
    n.run ts first onward scene = ⟨.failure, .node n ts, scene, []⟩ := by
  simp only [run, h, hadmits, Bool.false_eq_true, if_false]

lemma run_leaf {l : L} (h : n.kind = .leaf l) :
    n.run ts first onward scene =
      ⟨(Behavior.onUpdate n.id l scene).1,
        .node { n with kind := .leaf (Behavior.onUpdate n.id l scene).2.1 } ts,
        (Behavior.onUpdate n.id l scene).2.2,
        [.hook n.id (.update (Behavior.onUpdate n.id l scene).1)]⟩ := by
  simp only [run, h]

end Run

end Node

/-- Ends the poll of a node that ran: its result is recorded, a terminal one ends the activation,
and a failed reset clears everything below. -/
def Outcome.conclude [Behavior L δ] (o : Outcome (Branch (Node L)) δ) (id : NodeId)
    (begun : Trace) : Outcome (Branch (Node L)) δ :=
  let c := o.part.label.conclude o.status o.scene
  { status := o.status
    part := .node c.1 (c.1.settle o.status o.part.children)
    scene := c.2.1
    trace := .enter id :: begun ++ o.trace ++ c.2.2 ++ [.leave id o.status] }

namespace Branch

variable [Behavior L δ]

mutual

/-- Polls a nested tree. -/
def poll : Branch (Node L) → Scene δ → Outcome (Branch (Node L)) δ
  | .node n ts, scene =>
    let (n, scene, begun) := n.begin scene
    (n.run ts (pollFirst ts) (fun kind cascade cursor => pollFrom n.id kind cascade cursor ts)
      scene).conclude n.id begun

/-- Polls the first of the children; a missing one counts as a success. -/
def pollFirst : List (Branch (Node L)) → Scene δ → Outcome (List (Branch (Node L))) δ
  | [], scene => ⟨.success, [], scene, []⟩
  | t :: ts, scene => (poll t scene).map (· :: ts)

/-- Polls the children of a composite, but not the first `skip` of them, which have been left behind
before.  The part tells how many children are left behind now. -/
def pollFrom (id : NodeId) (kind : CompositeKind) (cascade : Bool) :
    (skip : Nat) → List (Branch (Node L)) → Scene δ → Outcome (Nat × List (Branch (Node L))) δ
  | _, [], scene => ⟨kind.advancesOn, (0, []), scene, []⟩
  | skip + 1, t :: ts, scene =>
    (pollFrom id kind cascade skip ts scene).map fun (moves, ts) => (moves, t :: ts)
  | 0, t :: ts, scene =>
    let o := poll t scene
    if o.status ≠ kind.advancesOn then o.map fun t => (0, t :: ts)
    else if ts.isEmpty then o.map fun t => (1, [t])
    else if cascade then
      ((pollFrom id kind cascade 0 ts o.scene).map fun (moves, ts) =>
        (moves + 1, o.part :: ts)).after o.trace
    else ⟨.running, (1, o.part :: ts), o.scene, o.trace ++ [.advance id]⟩

end

lemma poll_node (n : Node L) (ts : List (Branch (Node L))) (scene : Scene δ) :
    (node n ts).poll scene =
      (((n.begin scene).1.run ts (pollFirst ts)
        (fun kind cascade cursor => pollFrom (n.begin scene).1.id kind cascade cursor ts)
        (n.begin scene).2.1).conclude (n.begin scene).1.id (n.begin scene).2.2) := rfl

section PollFrom

variable {id : NodeId} {kind : CompositeKind} {cascade : Bool} {t u : Branch (Node L)}
  {ts : List (Branch (Node L))} {scene : Scene δ}

lemma pollFrom_stops (h : (t.poll scene).status ≠ kind.advancesOn) :
    pollFrom id kind cascade 0 (t :: ts) scene = (t.poll scene).map fun t => (0, t :: ts) := by
  rw [pollFrom]
  exact if_pos h

lemma pollFrom_ends (h : (t.poll scene).status = kind.advancesOn) :
    pollFrom id kind cascade 0 [t] scene = (t.poll scene).map fun t => (1, [t]) := by
  rw [pollFrom]
  exact if_neg (not_not.mpr h)

lemma pollFrom_cascades (h : (t.poll scene).status = kind.advancesOn) (hc : cascade = true) :
    pollFrom id kind cascade 0 (t :: u :: ts) scene =
      ((pollFrom id kind cascade 0 (u :: ts) (t.poll scene).scene).map fun p =>
        (p.1 + 1, (t.poll scene).part :: p.2)).after (t.poll scene).trace := by
  rw [pollFrom, if_neg (not_not.mpr h), if_neg (by simp), if_pos hc]

lemma pollFrom_pauses (h : (t.poll scene).status = kind.advancesOn) (hc : cascade = false) :
    pollFrom id kind cascade 0 (t :: u :: ts) scene =
      ⟨.running, (1, (t.poll scene).part :: u :: ts), (t.poll scene).scene,
        (t.poll scene).trace ++ [.advance id]⟩ := by
  rw [pollFrom, if_neg (not_not.mpr h), if_neg (by simp), if_neg (by simp [hc])]

end PollFrom

end Branch

/-! ## What polling from the cursor on can do -/

/-- The ways in which polling the children of a composite from the cursor on can go.  A child before
the cursor is passed over.  The child under it stops the composite with its own result, or it is
left behind: then the children end with it, or the next one is polled at once, or that is left to
the next poll. -/
inductive Onward [Behavior L δ] (id : NodeId) (kind : CompositeKind) (cascade : Bool) :
    Nat → List (Branch (Node L)) → Scene δ → Outcome (Nat × List (Branch (Node L))) δ → Prop
  | exhausted (skip : Nat) (scene : Scene δ) :
    Onward id kind cascade skip [] scene ⟨kind.advancesOn, (0, []), scene, []⟩
  | skips {skip : Nat} {t : Branch (Node L)} {ts : List (Branch (Node L))} {scene : Scene δ}
    {o : Outcome (Nat × List (Branch (Node L))) δ} :
    Onward id kind cascade skip ts scene o →
    Onward id kind cascade (skip + 1) (t :: ts) scene (o.map fun p => (p.1, t :: p.2))
  | stops {t : Branch (Node L)} {ts : List (Branch (Node L))} {scene : Scene δ} :
    (t.poll scene).status ≠ kind.advancesOn →
    Onward id kind cascade 0 (t :: ts) scene ((t.poll scene).map fun t => (0, t :: ts))
  | ends {t : Branch (Node L)} {scene : Scene δ} :
    (t.poll scene).status = kind.advancesOn →
    Onward id kind cascade 0 [t] scene ((t.poll scene).map fun t => (1, [t]))
  | cascades {t u : Branch (Node L)} {us : List (Branch (Node L))} {scene : Scene δ}
    {o : Outcome (Nat × List (Branch (Node L))) δ} :
    (t.poll scene).status = kind.advancesOn → cascade = true →
    Onward id kind cascade 0 (u :: us) (t.poll scene).scene o →
    Onward id kind cascade 0 (t :: u :: us) scene
      ((o.map fun p => (p.1 + 1, (t.poll scene).part :: p.2)).after (t.poll scene).trace)
  | pauses {t u : Branch (Node L)} {us : List (Branch (Node L))} {scene : Scene δ} :
    (t.poll scene).status = kind.advancesOn → cascade = false →
    Onward id kind cascade 0 (t :: u :: us) scene
      ⟨.running, (1, (t.poll scene).part :: u :: us), (t.poll scene).scene,
        (t.poll scene).trace ++ [.advance id]⟩

theorem pollFrom_onward [Behavior L δ] (id : NodeId) (kind : CompositeKind) (cascade : Bool) :
    ∀ (skip : Nat) (ts : List (Branch (Node L))) (scene : Scene δ),
      Onward id kind cascade skip ts scene (Branch.pollFrom id kind cascade skip ts scene)
  | skip, [], scene => by
      rw [Branch.pollFrom]
      exact .exhausted skip scene
  | skip + 1, t :: ts, scene => by
      rw [Branch.pollFrom]
      exact .skips (pollFrom_onward id kind cascade skip ts scene)
  | 0, [t], scene => by
      by_cases h : (t.poll scene).status = kind.advancesOn
      · rw [Branch.pollFrom_ends h]
        exact .ends h
      · rw [Branch.pollFrom_stops h]
        exact .stops h
  | 0, t :: u :: us, scene => by
      by_cases h : (t.poll scene).status = kind.advancesOn
      · cases hc : cascade with
        | true =>
            rw [Branch.pollFrom_cascades h rfl]
            exact .cascades h rfl (pollFrom_onward id kind true 0 (u :: us) (t.poll scene).scene)
        | false =>
            rw [Branch.pollFrom_pauses h rfl]
            exact .pauses h rfl
      · rw [Branch.pollFrom_stops h]
        exact .stops h

/-! ## What no poll changes -/

/-- The kind without what execution changes: cursor, cached gate, and the private fields of a
leaf. -/
def NodeKind.static : NodeKind L → NodeKind Unit
  | .root => .root
  | .composite kind cascade _ => .composite kind cascade 0
  | .decorator rule _ => .decorator rule false
  | .leaf _ => .leaf ()

namespace Node

/-- The identity and the kind, without what execution changes. -/
def static (n : Node L) : NodeId × NodeKind Unit := (n.id, n.kind.static)

lemma static_of_kind {n m : Node L} (hid : m.id = n.id) (hkind : m.kind.static = n.kind.static) :
    m.static = n.static := by
  rw [static, static, hid, hkind]

lemma map_static_settle (n : Node L) (status : Status) (ts : List (Branch (Node L))) :
    (n.settle status ts).map (Branch.map static) = ts.map (Branch.map static) := by
  rw [settle]
  split
  · rw [List.map_map]
    exact List.map_congr_left fun t _ => Branch.map_map static clear t
  · rfl

lemma static_rewind (k : NodeKind L) : k.rewind.static = k.static := by
  cases k <;> rfl

@[simp] lemma static_rearm (n : Node L) : n.rearm.static = n.static :=
  static_of_kind rfl (static_rewind n.kind)

/-- The kind of a copy is the one that rearming leaves behind. -/
lemma kind_pristine (n : Node L) : n.pristine.kind = n.kind.rewind :=
  n.kind.duplicate_eq_rewind

@[simp] lemma static_pristine (n : Node L) : n.pristine.static = n.static := by
  refine static_of_kind rfl ?_
  rw [kind_pristine, static_rewind]

end Node

namespace Branch

/-- Relabelling keeps the static tree if it keeps what is static about each node. -/
lemma map_static_map {f : Node L → Node L} (hf : ∀ n, (f n).static = n.static)
    (b : Branch (Node L)) : (b.map f).map Node.static = b.map Node.static :=
  (map_map _ _ b).trans (congrArg (fun g => b.map g) (funext hf))

/-- The identities of a nested tree in pre-order. -/
def ids (t : Branch (Node L)) : List NodeId := t.labels.map Node.id

def idsAll (ts : List (Branch (Node L))) : List NodeId := (labelsAll ts).map Node.id

@[simp] lemma ids_node (n : Node L) (ts : List (Branch (Node L))) :
    (node n ts).ids = n.id :: idsAll ts := rfl

@[simp] lemma idsAll_cons (t : Branch (Node L)) (ts : List (Branch (Node L))) :
    idsAll (t :: ts) = t.ids ++ idsAll ts := List.map_append

lemma map_id_layout (base : Nat) (b : Branch (Node L)) :
    (b.layout base).map (fun slot => slot.label.id) = b.ids := by
  rw [ids, ← map_label_layout base b, List.map_map]
  rfl

section Static

variable {b c : Branch (Node L)} (h : c.map Node.static = b.map Node.static)

include h

/-- Nested trees with the same static tree have the same identities. -/
lemma ids_of_static : c.ids = b.ids := by
  have hlabels := congrArg (fun t => (labels t).map Prod.fst) h
  simpa [ids, labels_map, Node.static, Function.comp_def] using hlabels

lemma exists_label_of_static {n : Node L} (hn : n ∈ c.labels) :
    ∃ m ∈ b.labels, m.static = n.static := by
  have hmem : n.static ∈ (c.map Node.static).labels := mem_labels_map.mpr ⟨n, hn, rfl⟩
  rw [h] at hmem
  exact mem_labels_map.mp hmem

lemma exists_part_of_static {s : Branch (Node L)} (hs : s ∈ c.parts) :
    ∃ u ∈ b.parts, u.map Node.static = s.map Node.static := by
  have hmem : s.map Node.static ∈ (c.map Node.static).parts := by
    rw [parts_map]
    exact List.mem_map_of_mem hs
  rw [h, parts_map] at hmem
  exact List.mem_map.mp hmem

end Static

end Branch

namespace Node

variable [Behavior L δ]

lemma static_activate (n : Node L) (scene : Scene δ) : (n.activate scene).1.static = n.static := by
  obtain ⟨id, kind, state⟩ := n
  cases kind <;> rfl

@[simp] lemma static_begin (n : Node L) (scene : Scene δ) :
    (n.begin scene).1.static = n.static := by
  rw [begin]
  split
  · rfl
  · exact static_activate n scene

@[simp] lemma static_conclude (n : Node L) (status : Status) (scene : Scene δ) :
    (n.conclude status scene).1.static = n.static := by
  obtain ⟨id, kind, state⟩ := n
  rw [conclude]
  split
  · cases kind <;> rfl
  · rfl

lemma static_moved {n : Node L} {kind : CompositeKind} {cascade : Bool} {cursor : Nat}
    (h : n.kind = .composite kind cascade cursor) (c : Nat) :
    ({ n with kind := .composite kind cascade c } : Node L).static = n.static := by
  rw [static, static, h]
  rfl

lemma static_worked {n : Node L} {l : L} (h : n.kind = .leaf l) (l' : L) :
    ({ n with kind := .leaf l' } : Node L).static = n.static := by
  rw [static, static, h]
  rfl

lemma id_eq_of_static {n m : Node L} (h : m.static = n.static) : m.id = n.id :=
  congrArg Prod.fst h

lemma kind_eq_of_static {n m : Node L} (h : m.static = n.static) : m.kind.static = n.kind.static :=
  congrArg Prod.snd h

end Node

@[simp] lemma Node.id_begin [Behavior L δ] (n : Node L) (scene : Scene δ) :
    (n.begin scene).1.id = n.id :=
  Node.id_eq_of_static (n.static_begin scene)

/-- Concluding a poll keeps the static tree. -/
lemma Outcome.map_static_conclude [Behavior L δ] (o : Outcome (Branch (Node L)) δ) (id : NodeId)
    (begun : Trace) : (o.conclude id begun).part.map Node.static = o.part.map Node.static := by
  obtain ⟨status, ⟨n, ts⟩, scene, trace⟩ := o
  simp only [conclude, Branch.label_node, Branch.children_node, Branch.map_node,
    Node.static_conclude, Node.map_static_settle]

/-- Running a node keeps the static tree if polling its children does. -/
lemma Node.map_static_run [Behavior L δ] (n : Node L) (ts : List (Branch (Node L)))
    {first : Scene δ → Outcome (List (Branch (Node L))) δ}
    {onward : CompositeKind → Bool → Nat → Scene δ → Outcome (Nat × List (Branch (Node L))) δ}
    (scene : Scene δ)
    (hfirst : (first scene).part.map (Branch.map static) = ts.map (Branch.map static))
    (honward : ∀ kind cascade cursor,
      (onward kind cascade cursor scene).part.2.map (Branch.map static) =
        ts.map (Branch.map static)) :
    (n.run ts first onward scene).part.map static = (Branch.node n ts).map static := by
  cases hk : n.kind with
  | root => simp [run_root hk, hfirst]
  | composite kind cascade cursor =>
      rw [run_composite hk, Outcome.part_map, Branch.map_node, Branch.map_node, honward,
        static_moved hk]
  | decorator rule gate =>
      cases ha : admits rule gate scene.board with
      | false => simp [run_refused hk ha]
      | true => simp [run_admitted hk ha, hfirst]
  | leaf l =>
      rw [run_leaf hk, Branch.map_node, Branch.map_node, static_worked hk]

/-- Polling from the cursor on keeps the static trees of the children if each poll of a child
does. -/
lemma Onward.map_static [Behavior L δ] {id : NodeId} {kind : CompositeKind} {cascade : Bool}
    {skip : Nat} {ts : List (Branch (Node L))} {scene : Scene δ}
    {o : Outcome (Nat × List (Branch (Node L))) δ}
    (h : Onward id kind cascade skip ts scene o)
    (ih : ∀ t ∈ ts, ∀ scene : Scene δ,
      (t.poll scene).part.map Node.static = t.map Node.static) :
    o.part.2.map (Branch.map Node.static) = ts.map (Branch.map Node.static) := by
  induction h with
  | exhausted => rfl
  | skips _ ihs =>
      have := ihs fun t ht => ih t (List.mem_cons_of_mem _ ht)
      simpa using this
  | stops => simpa using ih _ List.mem_cons_self _
  | ends => simpa using ih _ List.mem_cons_self _
  | cascades _ _ _ ihs =>
      have hhead := ih _ List.mem_cons_self
      have htail := ihs fun t ht => ih t (List.mem_cons_of_mem _ ht)
      simpa [hhead] using htail
  | pauses => simpa using ih _ List.mem_cons_self _

namespace Branch

variable [Behavior L δ]

/-- **A poll keeps the static tree.** -/
theorem map_static_poll (t : Branch (Node L)) (scene : Scene δ) :
    (t.poll scene).part.map Node.static = t.map Node.static := by
  induction t generalizing scene with
  | node n ts ih =>
      rw [poll_node, Outcome.map_static_conclude, Node.map_static_run, map_node, map_node,
        Node.static_begin]
      · cases ts with
        | nil => rfl
        | cons t ts => simp [pollFirst, ih t List.mem_cons_self]
      · intro kind cascade cursor
        exact (pollFrom_onward _ kind cascade cursor ts _).map_static ih

lemma ids_poll (t : Branch (Node L)) (scene : Scene δ) : (t.poll scene).part.ids = t.ids :=
  ids_of_static (map_static_poll t scene)

lemma size_poll (t : Branch (Node L)) (scene : Scene δ) : (t.poll scene).part.size = t.size := by
  have h := congrArg size (map_static_poll t scene)
  rwa [size_map, size_map] at h

/-- Running a node keeps the static tree. -/
lemma map_static_run (n : Node L) (ts : List (Branch (Node L))) (scene : Scene δ) :
    (n.run ts (pollFirst ts) (fun kind cascade cursor => pollFrom n.id kind cascade cursor ts)
      scene).part.map Node.static = (node n ts).map Node.static := by
  have hfirst : (pollFirst ts scene).part.map (map Node.static) = ts.map (map Node.static) := by
    cases ts with
    | nil => rfl
    | cons t ts => simp [pollFirst, map_static_poll]
  exact Node.map_static_run n ts scene hfirst fun kind cascade cursor =>
    (pollFrom_onward n.id kind cascade cursor ts scene).map_static fun t _ => map_static_poll t

lemma size_run (n : Node L) (ts : List (Branch (Node L))) (scene : Scene δ) :
    (n.run ts (pollFirst ts) (fun kind cascade cursor => pollFrom n.id kind cascade cursor ts)
      scene).part.size = (node n ts).size := by
  have h := congrArg size (map_static_run n ts scene)
  rwa [size_map, size_map] at h

lemma static_label_run (n : Node L) (ts : List (Branch (Node L))) (scene : Scene δ) :
    (n.run ts (pollFirst ts) (fun kind cascade cursor => pollFrom n.id kind cascade cursor ts)
      scene).part.label.static = n.static := by
  have h := congrArg label (map_static_run n ts scene)
  rwa [label_map, label_map] at h

end Branch

end BehaviorTree
