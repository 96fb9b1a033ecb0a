import BehaviorTree.Proofs.Copying

/-!
# Rearming a tree or copying it anew

The owner of a tree that has finished, or that is to begin again, can rearm it, or throw it away
and copy it.  The copy has to be started, and to be given what the blackboard held.  Both ways the
nodes are idle and rewound, and the leaves have their private fields; what is left of the first life
is the counts of activations, and all that comes of them is that the leaves of the rearmed tree are
not told of a first activation.

* `Behavior.Heedless` — the leaf does the same on its first activation as on any other, now and
  whatever its hooks make of it.
* `Event.plain` and `Snapshot.uncounted` — what happens, and what is recorded, without what tells
  the two lives apart.
* **`Blackboard.fill_toList`** — filling an empty blackboard with the entries of another one makes
  the other one.
* **`Fresh.rearm_renews`** — from then on the rearmed tree and the copy do the same, for ever.
-/

namespace BehaviorTree

open Relation

variable {L δ : Type}

/-! ## What is left out of the comparison -/

/-- The call without word on whether it is the first one. -/
def HookCall.plain : HookCall → HookCall
  | start _ => start true
  | call => call

def Event.plain : Event → Event
  | hook id call => hook id call.plain
  | e => e

/-- What is recorded about a node, but for the count of its activations. -/
def Snapshot.uncounted (s : Snapshot) : Snapshot :=
  { s with state := { s.state with activations := 0 } }

/-- The node with another count of activations. -/
def Node.withCount (count : UInt32) (n : Node L) : Node L :=
  { n with state := { n.state with activations := count } }

/-- The leaf does the same whether or not an activation is the first one: as it is, and as its hooks
may leave it behind. -/
def Behavior.Heedless [Behavior L δ] (l : L) : Prop :=
  ∀ l', ReflTransGen Behavior.Hooked l l' → ∀ (id : NodeId) (scene : Scene δ),
    Behavior.onStart id true l' scene = Behavior.onStart id false l' scene

/-- Trees that are the same but for the counts of activations. -/
structure Tree.Matches (t u : Tree L) : Prop where
  board : u.board = t.board
  state : u.state = t.state
  leaves : u.leaves = t.leaves
  snapshot : u.snapshot.map Snapshot.uncounted = t.snapshot.map Snapshot.uncounted

/-! ## Filling a blackboard -/

namespace Blackboard

/-- Puts entries into a blackboard, one after the other. -/
def fill (entries : List (String × Value)) (b : Blackboard) : Blackboard :=
  entries.foldl (fun b (key, value) => b.set key value) b

lemma entries_fill (entries : List (String × Value)) (b : Blackboard) :
    (b.fill entries).entries = b.entries.insertMany entries := by
  induction entries generalizing b with
  | nil => rfl
  | cons entry entries ih =>
      obtain ⟨key, value⟩ := entry
      rw [Std.ExtTreeMap.insertMany_cons]
      exact ih (b.set key value)

/-- **Filling an empty blackboard with the entries of a blackboard makes the blackboard.** -/
theorem fill_toList (b : Blackboard) : empty.fill b.toList = b := by
  refine ext fun key => ?_
  rw [get?, get?, entries_fill]
  cases hvalue : b.entries[key]? with
  | some value =>
      have hmem := Std.ExtTreeMap.mem_toList_iff_getElem?_eq_some.mpr hvalue
      exact Std.ExtTreeMap.getElem?_insertMany_list_of_mem (Std.ReflCmp.compare_self)
        Std.ExtTreeMap.distinct_keys_toList hmem
  | none =>
      have hunknown : (b.toList.map Prod.fst).contains key = false := by
        rw [List.contains_eq_mem, decide_eq_false_iff_not, List.mem_map]
        rintro ⟨⟨k, value⟩, hmem, rfl⟩
        have hvalue' := Std.ExtTreeMap.mem_toList_iff_getElem?_eq_some.mp hmem
        rw [hvalue] at hvalue'
        cases hvalue'
      exact Std.ExtTreeMap.getElem?_insertMany_list_of_contains_eq_false hunknown

end Blackboard

/-! ## Nodes that differ in their counts -/

namespace Behavior

variable [Behavior L δ] {l l' : L}

lemma Heedless.hooked (h : Heedless l) (hl : Hooked l l') : Heedless l' :=
  fun l'' hl' => h l'' (.head hl hl')

lemma Heedless.onStart_eq (h : Heedless l) (id : NodeId) (first first' : Bool) (scene : Scene δ) :
    onStart id first l scene = onStart id first' l scene := by
  have hl := h l .refl id scene
  cases first <;> cases first' <;> simp only [hl]

end Behavior

namespace Node

/-- A copy of a node is the node rearmed, but for the count. -/
lemma pristine_eq_rearm (n : Node L) : n.pristine = n.rearm.withCount 0 := by
  rw [pristine, NodeKind.duplicate_eq_rewind]
  rfl

variable [Behavior L δ]

/-- The nodes are the same but for the count of activations, which nobody heeds. -/
structure Recounted (n n' : Node L) : Prop where
  count : ∃ count, n' = n.withCount count
  heedless : ∀ l, n.kind.leaf? = some l → Behavior.Heedless l

/-- What comes of a leaf that does not care whether an activation is its first one does not care
either. -/
lemma lasting_heedless :
    Lasting (δ := δ) fun n : Node L => ∀ l, n.kind.leaf? = some l → Behavior.Heedless l :=
  lasting_of_hooked (Q := fun _ => Behavior.Heedless) fun _ _ _ hl h => h.hooked hl

variable {n n' : Node L}

lemma Recounted.activate (h : n.Recounted n') (scene : Scene δ) :
    Alike Event.plain Recounted (n.activate scene) (n'.activate scene) := by
  obtain ⟨⟨count, rfl⟩, h⟩ := h
  have hlasts := lasting_heedless.activate h scene
  obtain ⟨id, kind, state⟩ := n
  cases kind with
  | leaf l =>
      have hstart := (h l rfl).onStart_eq id (count == 0) (state.activations == 0) scene
      simp only [Node.activate, withCount, hstart] at hlasts ⊢
      exact ⟨⟨⟨_, rfl⟩, hlasts⟩, rfl, rfl⟩
  | _ => exact ⟨⟨⟨_, rfl⟩, hlasts⟩, rfl, rfl⟩

lemma Recounted.conclude (h : n.Recounted n') (status : Status) (scene : Scene δ) :
    Alike Event.plain Recounted (n.conclude status scene) (n'.conclude status scene) := by
  obtain ⟨⟨count, rfl⟩, h⟩ := h
  have hlasts := lasting_heedless.conclude h status scene
  obtain ⟨id, kind, state⟩ := n
  rw [Node.conclude] at hlasts
  rw [Node.conclude, Node.conclude]
  split
  · rw [if_pos ‹_›] at hlasts
    cases kind <;> exact ⟨⟨⟨count, rfl⟩, hlasts⟩, rfl, rfl⟩
  · rw [if_neg ‹_›] at hlasts
    exact ⟨⟨⟨count, rfl⟩, hlasts⟩, rfl, rfl⟩

/-- **Nodes that are the same but for the count remain so**, whatever happens to them. -/
theorem lockstep_recounted : Lockstep (δ := δ) (L := L) Event.plain Recounted where
  id h := by
    obtain ⟨⟨count, rfl⟩, -⟩ := h
    rfl
  started h := by
    obtain ⟨⟨count, rfl⟩, -⟩ := h
    rfl
  kind h := by
    obtain ⟨⟨count, rfl⟩, -⟩ := h
    exact NodeKind.agrees_refl _ _
  activate h _ := h.activate
  work h hl scene := by
    obtain ⟨⟨count, rfl⟩, h⟩ := h
    exact ⟨⟨count, rfl⟩, lasting_heedless.work h hl scene⟩
  move h cursor := by
    obtain ⟨⟨count, rfl⟩, h⟩ := h
    exact ⟨⟨count, rfl⟩, lasting_heedless.move h cursor⟩
  conclude h := h.conclude
  clear h := by
    obtain ⟨⟨count, rfl⟩, h⟩ := h
    exact ⟨⟨count, rfl⟩, lasting_heedless.clear h⟩
  rearm h := by
    obtain ⟨⟨count, rfl⟩, h⟩ := h
    exact ⟨⟨count, rfl⟩, lasting_heedless.rearm h⟩

end Node

/-! ## The two lives -/

namespace Tree

/-- Trees whose nodes differ in their counts alone show the same but for the counts. -/
lemma matches_of_related [Behavior L δ] {t u : Tree L} (h : t.Related Node.Recounted u) :
    t.Matches u := by
  have hnodes : ∀ {α : Type} (f : Node L → α), (∀ n count, f (n.withCount count) = f n) →
      u.arena.map (fun slot => f slot.label) = t.arena.map fun slot => f slot.label := by
    intro α f hf
    refine List.ext_getElem? fun i => ?_
    rw [List.getElem?_map, List.getElem?_map]
    refine h.arena.map_getElem? (fun hrel => ?_) i
    obtain ⟨⟨count, rfl⟩, -⟩ := hrel
    exact hf _ count
  refine ⟨h.board, h.state, hnodes (fun n => n.kind.leaf?) fun _ _ => rfl, ?_⟩
  rw [snapshot, snapshot, List.map_map, List.map_map]
  exact hnodes (fun n => Snapshot.uncounted ⟨n.id, n.kind.tag, n.state, n.kind.cursor?,
    n.kind.cachedGate?⟩) fun _ _ => rfl

variable [Behavior L δ] {template t : Tree L}

/-- **Rearming a tree and copying it anew come to the same.**  The copy is started, and its
blackboard is filled with the entries of the blackboard that the tree had.  Then, if no leaf cares
whether an activation is its first one, every run of the two comes back with the same: the statuses,
the calls of hooks but for that argument, and the contexts of the driver.  After every run they have
the same blackboard, the same private fields of leaves, and the same recorded about every node but
for its count of activations. -/
theorem Fresh.rearm_renews (h : template.Fresh) (hd : template.Descends t) {board : Blackboard}
    (hboard : t.board = some board) (hleaves : ∀ l, some l ∈ t.leaves → Behavior.Heedless l) :
    ∃ copy, t.instantiate.start = .ok copy ∧ ∀ later : List (Call δ),
      let renewed := copy.editBoard (Blackboard.fill board.toList)
      (renewed.replies later).map (Reply.seen Event.plain) =
          (t.rearm.replies later).map (Reply.seen Event.plain) ∧
        (t.rearm.performAll later).1.Matches (renewed.performAll later).1 := by
  obtain ⟨b, hb⟩ := h.pristine
  obtain ⟨c, hc, -⟩ := hd.exists_shows hb.toShows
  have hcopy := hc.instantiate
  have hself : t.arena.Related (fun n n' => n' = n ∧
      ∀ l, n.kind.leaf? = some l → Behavior.Heedless l) t.arena :=
    Arena.related_self fun slot hslot =>
      ⟨rfl, fun l hl => hleaves l (hl ▸ List.mem_map_of_mem hslot)⟩
  refine ⟨{ t.instantiate with board := some .empty }, ?_, fun later => ?_⟩
  · rw [start, hcopy.board]
  · intro renewed
    have hrelated : t.rearm.Related Node.Recounted renewed := by
      refine ⟨?_, ?_, hcopy.state⟩
      · show (t.arena.relabelAll Node.rearm).Related Node.Recounted t.instantiate.arena
        rw [hc.arena_instantiate]
        refine hself.relabelAll ?_
        rintro _ n ⟨rfl, hheedless⟩
        exact ⟨⟨0, n.pristine_eq_rearm⟩, Node.lasting_heedless.rearm hheedless⟩
      · show some (Blackboard.empty.fill board.toList) = t.board
        rw [Blackboard.fill_toList, hboard]
    obtain ⟨hreplies, hlater⟩ := Node.lockstep_recounted.replies hrelated later
    exact ⟨hreplies, matches_of_related hlater⟩

/-- A sequence that was halted in the course of its second leaf. -/
theorem rearm_renews_halted :
    let template : Tree Constant := ofBranch (.node (.fresh ⟨0⟩ .root)
      [.node (.fresh ⟨1⟩ (.composite .sequence true 0))
        [.node (.fresh ⟨2⟩ (.leaf .succeed)) [], .node (.fresh ⟨3⟩ (.leaf .running)) []]])
    let t := (template.performAll
      [.start, .edit fun b => b.set "k" (.bool true), .update (), .halt]).1
    let later : List (Call Unit) := [.update (), .rearm, .update ()]
    Tree.build .standard (some (.sequence [.leaf none Constant.succeed, .leaf none .running])) =
        .ok template ∧
      t.snapshot.map (fun s => s.state.activations) = [1, 1, 1, 1] ∧
      (∀ l, some l ∈ t.leaves → Behavior.Heedless l) ∧
      ∃ board copy, t.board = some board ∧ t.instantiate.start = .ok copy ∧
        (t.rearm.performAll later).1.Matches
          ((copy.editBoard (Blackboard.fill board.toList)).performAll later).1 := by
  intro template t later
  have hbuild : Tree.build .standard (some (.sequence [.leaf none Constant.succeed,
      .leaf none .running])) = .ok template := rfl
  have hheedless : ∀ l, some l ∈ t.leaves → Behavior.Heedless l := fun l _ l' _ _ _ => rfl
  have hstarted : t.board.isSome = true := by decide +kernel
  obtain ⟨board, hboard⟩ := Option.isSome_iff_exists.mp hstarted
  obtain ⟨copy, hcopy, hlater⟩ := (Fresh.built .standard _ hbuild).rearm_renews
    (.performed _ .self) hboard hheedless
  exact ⟨hbuild, by decide +kernel, hheedless, board, copy, hboard, hcopy, (hlater later).2⟩

end Tree

end BehaviorTree
