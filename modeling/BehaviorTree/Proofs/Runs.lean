import BehaviorTree.Blueprint
import BehaviorTree.Graph.Template
import BehaviorTree.Proofs.Refinement
import BehaviorTree.Proofs.Validity

/-!
# Runs of a tree

A tree comes out of authoring (`Tree.Fresh`): it is built from a blueprint or from a graph, or it is
an instance of such a tree.  From then on its owner starts it, polls it, halts it, rearms it and
edits its blackboard, in any order (`Call`), and what happens on the way is a list of `Moment`s.

* `Tree.Shows` — the arena of a tree is the layout of a nested tree with distinct identities.
  **`Fresh.pristine`**: a fresh tree shows one, and no node of it has been touched.
* `Branch.Step` — what one call does to the nested tree: it rests, or it is polled, or every node is
  rearmed.  **`Shows.perform`** says that no call does anything else.
* **`Shows.performAll`** and `Branch.Steps` — a whole run, seen on the nested tree.
* **`Fresh.poll_eq_graft`** — in every arena that a fresh tree can come to have, polling the node
  at a position is polling the nested tree below that position.
-/

namespace BehaviorTree

open Branch Slot

variable {L δ : Type}

/-! ## Calls and runs -/

/-- What the owner of a tree asks of it. -/
inductive Call (δ : Type)
  | start
  | update (driver : δ)
  | halt
  | rearm
  | edit (f : Blackboard → Blackboard)

/-- One thing that happens in the course of a run: an event of a poll, or a rearming of every
node. -/
inductive Moment
  | event (e : Event)
  | rearm
  deriving DecidableEq

namespace Tree

variable [Behavior L δ]

/-- The tree after a call, and what happened.  A call at the wrong time changes nothing. -/
def perform (t : Tree L) : Call δ → Tree L × List Moment
  | .start =>
    match t.start with
    | .ok t => (t, [])
    | .error _ => (t, [])
  | .update driver =>
    match t.update driver with
    | .ok u => (u.tree, u.trace.map .event)
    | .error _ => (t, [])
  | .halt => (t.halt, [])
  | .rearm => (t.rearm, [.rearm])
  | .edit f => (t.editBoard f, [])

/-- The tree after a run of calls, and what happened in the course of it. -/
def performAll (t : Tree L) : List (Call δ) → Tree L × List Moment
  | [] => (t, [])
  | c :: cs =>
    let (t, now) := t.perform c
    let (t, later) := t.performAll cs
    (t, now ++ later)

/-- A tree as it comes out of authoring: built from a blueprint or from a graph, or an instance of
such a tree, whatever that tree has been through. -/
inductive Fresh : Tree L → Prop
  | built (config : EngineConfig) (child : Option (Blueprint L)) {t : Tree L} :
    Tree.build config child = .ok t → Fresh t
  | grown (g : Graph) (registry : LeafRegistry L) (config : EngineConfig) {b : Graph.Built L} :
    g.build registry config = .ok b → Fresh b.tree
  | copied {t : Tree L} (calls : List (Call δ)) :
    Fresh t → Fresh (t.performAll calls).1.instantiate

end Tree

/-! ## The nested tree that a tree shows -/

namespace Tree

/-- The arena of a tree is the layout of a nested tree with distinct identities. -/
structure Shows (t : Tree L) (b : Branch (Node L)) : Prop where
  arena : t.arena = b.layout 0
  nodup : b.ids.Nodup

/-- A tree in which nothing has been touched: it has not been started, and its nodes are as copying
a tree would make them, that is idle, never activated and rewound. -/
structure Pristine (t : Tree L) (b : Branch (Node L)) : Prop extends Shows t b where
  nodes : ∀ n ∈ b.labels, n.pristine = n
  board : t.board = none
  state : t.state = .running

section Shows

variable {t : Tree L} {b : Branch (Node L)}

lemma Shows.map_label (h : t.Shows b) : t.arena.map Slot.label = b.labels := by
  rw [h.arena, map_label_layout]

lemma Shows.label_mem (h : t.Shows b) {i : Nat} {slot : Slot (Node L)}
    (hslot : t.arena[i]? = some slot) : slot.label ∈ b.labels := by
  rw [← h.map_label]
  exact List.mem_map_of_mem (List.mem_of_getElem? hslot)

lemma Shows.exists_of_label (h : t.Shows b) {n : Node L} (hn : n ∈ b.labels) :
    ∃ slot ∈ t.arena, slot.label = n := by
  rw [← h.map_label] at hn
  exact List.mem_map.mp hn

/-- A part of the nested tree stands in the arena at its position. -/
lemma Shows.holds_part (h : t.Shows b) {i : Nat} {s : Branch (Node L)}
    (hs : b.parts[i]? = some s) : Holds t.arena i s := by
  have hholds := (holds_layout b).part hs
  rwa [Nat.zero_add, ← h.arena] at hholds

lemma Pristine.state_eq_fresh (h : t.Pristine b) {n : Node L} (hn : n ∈ b.labels) :
    n.state = .fresh :=
  congrArg Node.state (h.nodes n hn).symm

/-- Nothing has come of running a node that has not been touched. -/
lemma Pristine.rewind_kind (h : t.Pristine b) {n : Node L} (hn : n ∈ b.labels) :
    n.kind.rewind = n.kind := by
  rw [← n.kind_pristine, h.nodes n hn]

lemma Shows.map_id (h : t.Shows b) : t.arena.map (fun slot => slot.label.id) = b.ids := by
  rw [h.arena, map_id_layout]

lemma Shows.nodup_ids (h : t.Shows b) : (t.arena.map fun slot => slot.label.id).Nodup :=
  h.map_id ▸ h.nodup

/-- The identity tells the position. -/
lemma Shows.eq_of_id (h : t.Shows b) {i j : Nat} {a c : Slot (Node L)}
    (ha : t.arena[i]? = some a) (hc : t.arena[j]? = some c) (hid : a.label.id = c.label.id) :
    i = j := by
  have hlt : i < (t.arena.map fun slot => slot.label.id).length := by
    rw [List.length_map]
    exact (List.getElem?_eq_some_iff.mp ha).1
  refine (List.getElem?_inj hlt h.nodup_ids).mp ?_
  rw [List.getElem?_map, List.getElem?_map, ha, hc]
  exact congrArg some hid

lemma pristine_ofArena (h : ofArena (b.layout 0) = .ok t)
    (hnodes : ∀ n ∈ b.labels, n.pristine = n) : t.Pristine b := by
  rw [ofArena] at h
  split at h
  · simp at h
  · next hids =>
      simp only [Except.ok.injEq] at h
      subst h
      have hnodup := (firstRepeat_eq_none_iff.mp hids).1
      refine ⟨⟨rfl, ?_⟩, hnodes, rfl, rfl⟩
      rwa [← map_id_layout 0 b]

end Shows

/-! ### Blueprints -/

lemma length_fillIds (pins : List (Option NodeId)) (supply : List NodeId) :
    (fillIds pins supply).length = pins.length := by
  induction pins generalizing supply with
  | nil => rfl
  | cons pin pins ih =>
      cases pin with
      | some id => rw [fillIds, List.length_cons, List.length_cons, ih]
      | none => cases supply <;> rw [fillIds, List.length_cons, List.length_cons, ih]

end Tree

namespace Blueprint

mutual

/-- The nodes of a blueprint are authored rewound, and none of them is a root. -/
lemma authored_outline (config : EngineConfig) : ∀ b : Blueprint L,
    ∀ x ∈ (b.outline config).labels, x.2.rewind = x.2 ∧ x.2.isRoot = false
  | composite id kind cascade bs, x, h => by
      rw [outline, labels, List.mem_cons] at h
      rcases h with rfl | h
      · exact ⟨rfl, rfl⟩
      · exact authored_outlineAll config bs x h
  | decorator id rule child, x, h => by
      rw [outline, labels, List.mem_cons] at h
      rcases h with rfl | h
      · exact ⟨rfl, rfl⟩
      · exact authored_outlineChild config child x h
  | leaf id l, x, h => by
      simp only [outline, labels, labelsAll, List.mem_singleton] at h
      subst h
      exact ⟨rfl, rfl⟩

lemma authored_outlineAll (config : EngineConfig) : ∀ bs : List (Blueprint L),
    ∀ x ∈ labelsAll (outlineAll config bs), x.2.rewind = x.2 ∧ x.2.isRoot = false
  | [], x, h => by simp [outlineAll, labelsAll] at h
  | b :: bs, x, h => by
      rw [outlineAll, labelsAll, List.mem_append] at h
      rcases h with h | h
      · exact authored_outline config b x h
      · exact authored_outlineAll config bs x h

lemma authored_outlineChild (config : EngineConfig) : ∀ child : Option (Blueprint L),
    ∀ x ∈ labelsAll (outlineChild config child), x.2.rewind = x.2 ∧ x.2.isRoot = false
  | none, x, h => by simp [outlineChild, labelsAll] at h
  | some b, x, h => by
      simp only [outlineChild, labelsAll, List.append_nil] at h
      exact authored_outline config b x h

end

end Blueprint

namespace Tree

lemma exists_pristine_of_build {config : EngineConfig} {child : Option (Blueprint L)} {t : Tree L}
    (h : Tree.build config child = .ok t) : ∃ b, t.Pristine b := by
  set outline : Branch (Option NodeId × NodeKind L) :=
    .node (none, .root) (Blueprint.outlineChild config child) with houtline
  set pins := (outline.layout 0).map fun slot => slot.label.1
  have hlen : (assignIds pins).length = outline.size := by
    rw [assignIds, length_fillIds, List.length_map, length_layout]
  obtain ⟨b, hmap, hb⟩ := exists_layout_zipWith
    (g := fun id (x : Option NodeId × NodeKind L) => Node.fresh id x.2)
    (p := fun n : Node L => (n.kind, n.state)) (q := fun x => (x.2, NodeState.fresh))
    (fun _ _ => rfl) 0 outline (assignIds pins) hlen
  have harena : ofArena (b.layout 0) = .ok t := by
    rw [← hb]
    exact h
  refine ⟨b, pristine_ofArena harena fun n hn => ?_⟩
  -- the kinds are those of the outline, and every state is fresh
  have hmem : (n.kind, n.state) ∈ (outline.map fun x => (x.2, NodeState.fresh)).labels := by
    rw [← hmap]
    exact mem_labels_map.mpr ⟨n, hn, rfl⟩
  obtain ⟨x, hx, heq⟩ := mem_labels_map.mp hmem
  rw [houtline, labels, List.mem_cons] at hx
  have hrewind : x.2.rewind = x.2 := by
    rcases hx with rfl | hx
    · rfl
    · exact (Blueprint.authored_outlineChild config child x hx).1
  simp only [Prod.mk.injEq] at heq
  rw [Node.pristine, NodeKind.duplicate_eq_rewind, ← heq.1, hrewind, heq.1, heq.2]

end Tree

/-! ### Graphs -/

namespace Graph

lemma rewind_kindOf {registry : LeafRegistry L} {config : EngineConfig} {node : GraphNode}
    {kind : NodeKind L} (h : kindOf registry config node = .ok kind) : kind.rewind = kind := by
  rw [kindOf] at h
  split at h
  · cases h; rfl
  · cases h; rfl
  · cases h; rfl
  · split at h
    · cases h; rfl
    · cases h

/-- Every node that grows from a graph is fresh. -/
lemma pristine_of_grow (registry : LeafRegistry L) (config : EngineConfig) :
    ∀ (pool : List GraphNode) (node : GraphNode) (b : Branch (Node L)),
      grow registry config pool node = .ok b → ∀ n ∈ b.labels, n.pristine = n := by
  intro pool node
  induction pool, node using grow.induct with
  | case1 pool node ih =>
      intro b h n hn
      rw [grow] at h
      cases hkind : kindOf registry config node with
      | error e => simp [hkind, bind, Except.bind] at h
      | ok kind =>
          simp only [hkind, bind, Except.bind] at h
          split at h
          · cases h
          · next ts hts =>
              simp only [pure, Except.pure, Except.ok.injEq] at h
              subst h
              rw [labels, List.mem_cons] at hn
              rcases hn with rfl | hn
              · rw [Node.pristine, Node.fresh, NodeKind.duplicate_eq_rewind, rewind_kindOf hkind]
              · obtain ⟨t, ht, hnt⟩ := mem_labelsAll.mp hn
                obtain ⟨id, hid, hgrow⟩ := exists_of_forall₂ (mapM_eq_ok_iff.mp hts) ht
                split at hgrow
                · cases hgrow
                · next child hfind => exact ih id child hfind t hgrow n hnt

lemma exists_pristine_of_build {g : Graph} {registry : LeafRegistry L} {config : EngineConfig}
    {built : Built L} (h : g.build registry config = .ok built) :
    ∃ b, built.tree.Pristine b := by
  rw [build] at h
  cases hroot : g.validate registry with
  | error e => simp [hroot, bind, Except.bind] at h
  | ok root =>
      simp only [hroot, bind, Except.bind] at h
      split at h
      · cases h
      · split at h
        · cases h
        · next b hgrow =>
            split at h
            · cases h
            · next t ht =>
                simp only [pure, Except.pure, Except.ok.injEq] at h
                subst h
                exact ⟨b, Tree.pristine_ofArena ht (pristine_of_grow registry config _ _ b hgrow)⟩

end Graph

/-! ## What calls do to the nested tree -/

lemma Node.pristine_pristine (n : Node L) : n.pristine.pristine = n.pristine := by
  obtain ⟨id, kind, state⟩ := n
  cases kind <;> rfl

namespace Tree

variable {t : Tree L} {b : Branch (Node L)}

/-- Another nested tree of the same identities may stand in the arena. -/
lemma Shows.of_static (h : t.Shows b) {c : Branch (Node L)}
    (hstatic : c.map Node.static = b.map Node.static) {u : Tree L} (harena : u.arena = c.layout 0) :
    u.Shows c :=
  ⟨harena, by rw [ids_of_static hstatic]; exact h.nodup⟩

/-- A node keeps its position and what is static about it. -/
lemma Shows.exists_slot {u : Tree L} {c : Branch (Node L)} (h : t.Shows b) (hu : u.Shows c)
    (hstatic : c.map Node.static = b.map Node.static) {p : Nat} {slot : Slot (Node L)}
    (hslot : t.arena[p]? = some slot) :
    ∃ now, u.arena[p]? = some now ∧ now.label.static = slot.label.static ∧
      now.label ∈ c.labels := by
  have hlayout := congrArg (fun d => (layout 0 d)[p]?) hstatic
  simp only [layout_map, List.getElem?_map, ← h.arena, ← hu.arena, hslot,
    Option.map_some] at hlayout
  obtain ⟨now, hnow, heq⟩ := Option.map_eq_some_iff.mp hlayout
  exact ⟨now, hnow, congrArg Slot.label heq, hu.label_mem hnow⟩

/-- The nested tree that a tree was laid out from is read off it. -/
lemma branch?_ofBranch (b : Branch (Node L)) : (ofBranch b).branch? = some b := by
  have hpos : 0 < (ofBranch b).arena.length := by
    rw [ofBranch, length_layout]
    exact b.size_pos
  rw [branch?, dif_pos hpos]
  exact congrArg some (branchAt_layout b hpos)

lemma Shows.branch? (h : t.Shows b) : t.branch? = some b := by
  obtain ⟨arena, board, state⟩ := t
  obtain rfl : arena = b.layout 0 := h.arena
  exact branch?_ofBranch b

lemma Shows.rearm (h : t.Shows b) : t.rearm.Shows (b.map Node.rearm) := by
  refine h.of_static (map_static_map Node.static_rearm b) ?_
  rw [layout_map, ← h.arena]
  rfl

/-- An instance shows a copy of the template's nested tree. -/
lemma Shows.instantiate (h : t.Shows b) : t.instantiate.Pristine (b.map Node.pristine) := by
  have heq : t.instantiate = ofBranch (b.map Node.pristine) := by
    rw [Tree.instantiate, h.branch?]
  rw [heq]
  refine ⟨h.of_static (map_static_map Node.static_pristine b) rfl, fun n hn => ?_, rfl, rfl⟩
  obtain ⟨m, _, rfl⟩ := mem_labels_map.mp hn
  exact m.pristine_pristine

variable [Behavior L δ]

/-- A tree that has come to its end answers with its result. -/
lemma update_of_terminal {board : Blackboard} (hboard : t.board = some board)
    (hstate : t.state.isTerminal = true) (driver : δ) :
    t.update driver = .ok ⟨t.state, t, driver, []⟩ := by
  rw [Tree.update, hboard]
  exact if_pos hstate

/-- A poll of a started tree whose result is open is the nested poll. -/
lemma Shows.update (h : t.Shows b) {board : Blackboard} (hboard : t.board = some board)
    (hstate : t.state = .running) (driver : δ) :
    t.update driver = .ok ⟨(b.poll ⟨board, driver⟩).status,
      ⟨(b.poll ⟨board, driver⟩).part.layout 0, some (b.poll ⟨board, driver⟩).scene.board,
        (b.poll ⟨board, driver⟩).status⟩,
      (b.poll ⟨board, driver⟩).scene.driver, (b.poll ⟨board, driver⟩).trace⟩ := by
  have hpoll := poll_layout (δ := δ) (n := b.size) b [] [] ⟨board, driver⟩ (by simp)
  simp only [List.nil_append, List.append_nil, List.length_nil, Outcome.inArena] at hpoll
  simp only [Tree.update, hboard, hstate, h.arena, length_layout, hpoll]
  rfl

end Tree

/-- What a call can do to a nested tree, and what happens then. -/
inductive Branch.Step [Behavior L δ] (b : Branch (Node L)) :
    List Moment → Branch (Node L) → Prop
  | rests : Step b [] b
  | polls (scene : Scene δ) : Step b ((b.poll scene).trace.map .event) (b.poll scene).part
  | rearms : Step b [.rearm] (b.map Node.rearm)

/-- What a run of calls can do to a nested tree, and what happens then. -/
inductive Branch.Steps [Behavior L δ] : Branch (Node L) → List Moment → Branch (Node L) → Prop
  | none (b : Branch (Node L)) : Steps b [] b
  | cons {b c d : Branch (Node L)} {now later : List Moment} :
    Step b now c → Steps c later d → Steps b (now ++ later) d

section Step

variable [Behavior L δ] {b c : Branch (Node L)} {moments : List Moment}

lemma Branch.Step.map_static (h : Step b moments c) : c.map Node.static = b.map Node.static := by
  cases h with
  | rests => rfl
  | polls scene => exact map_static_poll b scene
  | rearms => exact map_static_map Node.static_rearm b

/-- A property of nested trees that no call breaks holds after every run. -/
lemma Branch.Steps.invariant {P : Branch (Node L) → Prop} (h : Steps b moments c)
    (hstep : ∀ b moments c, Step b moments c → P b → P c) (hb : P b) : P c := by
  induction h with
  | none b => exact hb
  | cons hnow _ ih => exact ih (hstep _ _ _ hnow hb)

lemma Branch.Steps.map_static (h : Steps b moments c) : c.map Node.static = b.map Node.static :=
  h.invariant (P := fun c => c.map Node.static = b.map Node.static)
    (fun _ _ _ hstep hstatic => hstep.map_static.trans hstatic) rfl

end Step

namespace Tree

variable [Behavior L δ] {t : Tree L} {b : Branch (Node L)}

/-- **A call is a step of the nested tree**: the nodes rest, or they are polled, or they are
rearmed. -/
theorem Shows.perform (h : t.Shows b) (call : Call δ) :
    ∃ c, (t.perform call).1.Shows c ∧ Branch.Step b (t.perform call).2 c := by
  have hrests : ∀ u : Tree L, u.arena = t.arena → ∃ c, u.Shows c ∧ Branch.Step b [] c :=
    fun u hu => ⟨b, ⟨hu.trans h.arena, h.nodup⟩, .rests⟩
  cases call with
  | start =>
      rw [Tree.perform, Tree.start]
      cases t.board with
      | none => exact hrests _ rfl
      | some board => exact hrests _ rfl
  | update driver =>
      cases hboard : t.board with
      | none =>
          have hupdate : t.update driver = .error .notStarted := by rw [Tree.update, hboard]
          rw [Tree.perform, hupdate]
          exact hrests t rfl
      | some board =>
          cases hstate : t.state.isTerminal with
          | false =>
              have hrunning := Status.isTerminal_eq_false_iff.mp hstate
              rw [Tree.perform, h.update hboard hrunning driver]
              refine ⟨(b.poll ⟨board, driver⟩).part, h.of_static ?_ rfl, .polls _⟩
              exact map_static_poll b _
          | true =>
              rw [Tree.perform, update_of_terminal hboard hstate]
              exact hrests t rfl
  | halt => exact hrests t.halt rfl
  | rearm => exact ⟨b.map Node.rearm, h.rearm, .rearms⟩
  | edit f => exact hrests (t.editBoard f) rfl

/-- **A run is a sequence of steps of the nested tree.** -/
theorem Shows.performAll (h : t.Shows b) (calls : List (Call δ)) :
    ∃ c, (t.performAll calls).1.Shows c ∧ Branch.Steps b (t.performAll calls).2 c := by
  induction calls generalizing t b with
  | nil => exact ⟨b, h, .none b⟩
  | cons call calls ih =>
      obtain ⟨c, hc, hnow⟩ := h.perform call
      obtain ⟨d, hd, hlater⟩ := ih hc
      exact ⟨d, hd, .cons hnow hlater⟩

/-- **A fresh tree shows a nested tree of which nothing has been touched.** -/
theorem Fresh.pristine (h : t.Fresh) : ∃ b, t.Pristine b := by
  induction h with
  | built config child hbuild => exact exists_pristine_of_build hbuild
  | grown g registry config hbuild => exact Graph.exists_pristine_of_build hbuild
  | copied calls _ ih =>
      obtain ⟨b, hb⟩ := ih
      obtain ⟨c, hc, _⟩ := hb.toShows.performAll calls
      exact ⟨_, hc.instantiate⟩

/-- **No run changes the references of a tree.** -/
theorem Fresh.children_performAll (h : t.Fresh) (calls : List (Call δ)) :
    (t.performAll calls).1.arena.map Slot.children = t.arena.map Slot.children := by
  obtain ⟨b, hb⟩ := h.pristine
  obtain ⟨c, hc, hsteps⟩ := hb.toShows.performAll calls
  rw [hb.arena, hc.arena, ← children_layout_map 0 Node.static c, hsteps.map_static,
    children_layout_map]

/-! ## Polling a node of a fresh tree -/

/-- **Polling the node at a position is polling the nested tree below it.**  In the arena that a run
has left a fresh tree with, and whatever else its nodes may hold, the poll of a node computes what
the plain recursion computes on the branch that is read off the arena there.  The outcome takes the
place of that branch, and no other stretch of the arena changes. -/
theorem Fresh.poll_eq_graft (h : t.Fresh) (calls : List (Call δ)) (a : Arena L)
    (hrefs : a.map Slot.children = (t.performAll calls).1.arena.map Slot.children) (i : Nat)
    (hi : i < a.length) (scene : Scene δ) :
    poll a.length i ⟨a, scene⟩ =
        ⟨((branchAt a i hi).poll scene).status,
          ⟨graft a i ((branchAt a i hi).poll scene).part, ((branchAt a i hi).poll scene).scene⟩,
          ((branchAt a i hi).poll scene).trace⟩ ∧
      ∃ hi', branchAt (graft a i ((branchAt a i hi).poll scene).part) i hi' =
        ((branchAt a i hi).poll scene).part := by
  obtain ⟨b, hb⟩ := h.pristine
  rw [h.children_performAll, hb.arena] at hrefs
  obtain ⟨u, _, rfl⟩ := exists_layout_eq hrefs
  have hpart : i < u.parts.length := by
    rwa [length_parts, ← length_layout 0 u]
  obtain ⟨s, hs⟩ : ∃ s, u.parts[i]? = some s := ⟨_, List.getElem?_eq_getElem hpart⟩
  obtain ⟨pre, post, heq, hlen⟩ := exists_layout_split 0 u s i hs
  rw [Nat.zero_add] at heq
  subst hlen
  have hholds : Holds (u.layout 0) pre.length s := ⟨pre, post, heq, rfl⟩
  have hgraft := hholds.graft (s.size_poll scene)
  rw [branchAt_of_holds s hholds hi]
  refine ⟨?_, hgraft.lt, branchAt_of_holds _ hgraft _⟩
  rw [heq, graft_append pre post (s.size_poll scene)]
  exact poll_layout s pre post scene (by simp only [List.length_append, length_layout])

/-- The poll of a reset over a leaf that fails. -/
theorem poll_eq_graft_reset :
    let b : Branch (Node Constant) :=
      .node (.fresh ⟨0⟩ .root) [.node (.fresh ⟨1⟩ (.decorator .reset false))
        [.node (.fresh ⟨2⟩ (.leaf .fail)) []]]
    Tree.build .standard (some (.decorate .reset (.leaf none Constant.fail))) = .ok (ofBranch b) ∧
      (poll 3 0 ⟨b.layout 0, ⟨.empty, ()⟩⟩).trace =
        [.enter ⟨0⟩, .start ⟨0⟩, .enter ⟨1⟩, .start ⟨1⟩, .enter ⟨2⟩, .start ⟨2⟩,
          .hook ⟨2⟩ (.start true), .hook ⟨2⟩ (.update .failure), .hook ⟨2⟩ .stop,
          .leave ⟨2⟩ .failure, .leave ⟨1⟩ .failure, .leave ⟨0⟩ .failure] := by
  intro b
  have hbuild : Tree.build .standard (some (.decorate .reset (.leaf none Constant.fail))) =
      .ok (ofBranch b) := rfl
  refine ⟨hbuild, ?_⟩
  have hpoll := ((Fresh.built .standard _ hbuild).poll_eq_graft [] (b.layout 0) rfl 0 (by decide)
    ⟨.empty, ()⟩).1
  rw [branchAt_layout b] at hpoll
  exact congrArg Polled.trace hpoll

end Tree

end BehaviorTree
