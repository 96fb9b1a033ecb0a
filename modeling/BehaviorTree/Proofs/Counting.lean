import BehaviorTree.Proofs.Footprint
import Mathlib.Algebra.GroupWithZero.Nat

/-!
# Counting activations on a blackboard

A counting decorator adds one to an integer on the blackboard whenever an activation of it begins,
and the engine keeps a count of activations at every node.  Several decorators may count under one
key, at different depths, and each may be broken off and begin anew: as long as nothing else writes
under the key, what is there is what was there before, and the activations of all of them.

* `Blackboard.Counted` — what is under the key after so many activations.  **`Counted.trans`**:
  activations one after the other add up, where sums are held at the largest integer.
* `Tree.CountersOnly` — nothing but counting decorators writes under the key: no hook of a leaf that
  a call comes to, and no edit.
* `Reckons` — what is under the key has grown with the counts of some nodes.  **`poll_reckons`**: so
  it does in a poll of any branch.
* **`Fresh.counts_activations`** — the sum law of every run, and that an activation under way writes
  nothing.
-/

namespace BehaviorTree

open Branch

variable {L δ : Type}

/-! ## The specification -/

/-- The second blackboard holds what so many activations leave of the first one under the key: the
same entry after none, and the sum as an integer after any. -/
structure Blackboard.Counted (key : String) (b b' : Blackboard) (count : Nat) : Prop where
  same : count = 0 → b'.get? key = b.get? key
  sum : 0 < count → ∃ m : Int64, b'.get? key = some (.int m) ∧
    m.toInt = min ((b.intOr key 0).toInt + count) Int64.maxValue.toInt

namespace Node

/-- The activations that a node has counted under the key. -/
def tally (key : String) (n : Node L) : Nat :=
  if n.kind.rule? = some (.increment key) then n.state.activations.toNat else 0

/-- The node counts under the key, and the count of its own activations cannot grow any more. -/
def Full (key : String) (n : Node L) : Prop :=
  n.kind.rule? = some (.increment key) ∧ n.state.activations.toNat + 1 = UInt32.size

instance (key : String) (n : Node L) : Decidable (n.Full key) :=
  inferInstanceAs (Decidable (_ ∧ _))

/-- No hook of the leaf, if it is one, changes what is under the key in a poll on the scene. -/
def HooksSpare [Behavior L δ] (key : String) (n : Node L) (scene : Scene δ) : Prop :=
  ∀ l, n.kind.leaf? = some l →
    ((Branch.node n []).poll scene).scene.board.get? key = scene.board.get? key

end Node

namespace Tree

/-- All the activations that nodes of the tree have counted under the key. -/
def tally (key : String) (t : Tree L) : Nat := (t.arena.map fun slot => slot.label.tally key).sum

/-- Nothing but counting decorators writes under the key in the course of the call. -/
def CountersOnly [Behavior L δ] (key : String) (t : Tree L) : Call δ → Prop
  | .update driver => ∀ v : Visit L δ, t.ComesTo driver v → v.branch.label.HooksSpare key v.scene
  | .edit f => (t.editBoard f).held.get? key = t.held.get? key
  | _ => True

end Tree

/-! ## Sums on a blackboard -/

lemma toInt_saturatingAdd_one (a : Int64) :
    (saturatingAdd a 1).toInt = min (a.toInt + 1) Int64.maxValue.toInt := by
  have hlow := a.minValue_le_toInt
  have hone : (1 : Int64).toInt = 1 := rfl
  rw [saturatingAdd, hone]
  by_cases hhigh : a.toInt + 1 ≤ Int64.maxValue.toInt
  · rw [Int64.toInt_ofIntClamp (by omega) hhigh]
    omega
  · rw [Int64.ofIntClamp, dif_pos (by omega), dif_neg hhigh]
    omega

namespace Blackboard

variable {key : String} {b b' b'' : Blackboard} {m n : Nat}

lemma counted_of_same (h : b'.get? key = b.get? key) : Counted key b b' 0 where
  same _ := h
  sum hpos := absurd hpos (Nat.lt_irrefl 0)

/-- An activation counts one. -/
lemma counted_onStart (key : String) (b : Blackboard) :
    Counted key b ((DecoratorRule.increment key).onStart b) 1 where
  same h := absurd h Nat.one_ne_zero
  sum _ := by
    refine ⟨saturatingAdd (b.intOr key 0) 1, ?_, toInt_saturatingAdd_one _⟩
    rw [DecoratorRule.onStart, get?_set, if_pos rfl]

/-- The integer that the entry is read as is the sum in either case. -/
lemma Counted.toInt_intOr (h : Counted key b b' n) :
    (b'.intOr key 0).toInt = min ((b.intOr key 0).toInt + n) Int64.maxValue.toInt := by
  have hmax := (b.intOr key 0).toInt_le
  rcases Nat.eq_zero_or_pos n with rfl | hn
  · have hsame : b'.intOr key 0 = b.intOr key 0 := by rw [intOr, intOr, h.same rfl]
    rw [hsame]
    omega
  · obtain ⟨k, hget, hk⟩ := h.sum hn
    have hread : b'.intOr key 0 = k := by
      rw [intOr, hget]
      rfl
    rw [hread, hk]

/-- **Activations one after the other add up.** -/
theorem Counted.trans (h : Counted key b b' m) (h' : Counted key b' b'' n) :
    Counted key b b'' (m + n) where
  same hzero := (h'.same (by omega)).trans (h.same (by omega))
  sum hpos := by
    rcases Nat.eq_zero_or_pos n with rfl | hn
    · rw [h'.same rfl]
      exact h.sum hpos
    · obtain ⟨k, hget, hk⟩ := h'.sum hn
      have hread := h.toInt_intOr
      exact ⟨k, hget, by push_cast; omega⟩

end Blackboard

/-! ## Counts of nodes -/

/-- What is under the key has grown with what the nodes have counted, unless one of them is full by
now. -/
def Reckons (key : String) (b b' : Blackboard) (ns ns' : List (Node L)) : Prop :=
  (∀ n ∈ ns', ¬ n.Full key) → (∀ n ∈ ns, ¬ n.Full key) ∧ ∃ count, b.Counted key b' count ∧
    (ns'.map (Node.tally key)).sum = (ns.map (Node.tally key)).sum + count

section Reckons

variable {key : String} {b b' b'' : Blackboard} {ns ns' ns'' ms ms' : List (Node L)}

/-- Nodes that count as before go with an entry that is as before. -/
lemma reckons_of_same (hboard : b'.get? key = b.get? key)
    (hnodes : List.Forall₂ (fun n n' : Node L => n'.kind.rule? = n.kind.rule? ∧
      n'.state.activations = n.state.activations) ns ns') : Reckons key b b' ns ns' := by
  have hall : (∀ n ∈ ns', ¬ n.Full key) → (∀ n ∈ ns, ¬ n.Full key) ∧
      (ns'.map (Node.tally key)).sum = (ns.map (Node.tally key)).sum := by
    intro hfull
    induction hnodes with
    | nil => exact ⟨hfull, rfl⟩
    | @cons n n' ns ns' hn _ ih =>
        obtain ⟨hhead, htail⟩ := List.forall_mem_cons.mp hfull
        obtain ⟨hspare, hsum⟩ := ih htail
        have hsame : n.Full key ↔ n'.Full key := by rw [Node.Full, Node.Full, hn.1, hn.2]
        have htally : n'.tally key = n.tally key := by rw [Node.tally, Node.tally, hn.1, hn.2]
        refine ⟨List.forall_mem_cons.mpr ⟨hsame.not.mpr hhead, hspare⟩, ?_⟩
        rw [List.map_cons, List.map_cons, List.sum_cons, List.sum_cons, hsum, htally]
  intro hfull
  obtain ⟨hspare, hsum⟩ := hall hfull
  exact ⟨hspare, 0, Blackboard.counted_of_same hboard, hsum⟩

lemma reckons_refl (key : String) (b : Blackboard) (ns : List (Node L)) : Reckons key b b ns ns :=
  reckons_of_same rfl (List.forall₂_same.mpr fun _ _ => ⟨rfl, rfl⟩)

/-- A node that does not count under the key adds nothing. -/
lemma reckons_of_other {n n' : Node L} (hother : n.kind.rule? ≠ some (.increment key))
    (hrule : n'.kind.rule? = n.kind.rule?) (hboard : b'.get? key = b.get? key) :
    Reckons key b b' [n] [n'] := by
  intro _
  have hother' : n'.kind.rule? ≠ some (.increment key) := hrule ▸ hother
  refine ⟨fun m hm hfull => ?_, 0, Blackboard.counted_of_same hboard, ?_⟩
  · obtain rfl := List.mem_singleton.mp hm
    exact hother hfull.1
  · simp only [List.map_cons, List.map_nil, List.sum_singleton, Node.tally, if_neg hother,
      if_neg hother']

lemma Reckons.trans (h : Reckons key b b' ns ns') (h' : Reckons key b' b'' ns' ns'') :
    Reckons key b b'' ns ns'' := by
  intro hfull
  obtain ⟨hmid, n, hn, hsum'⟩ := h' hfull
  obtain ⟨hspare, m, hm, hsum⟩ := h hmid
  exact ⟨hspare, m + n, hm.trans hn, by omega⟩

/-- First some nodes count, and then some others. -/
lemma Reckons.append (h : Reckons key b b' ns ns') (h' : Reckons key b' b'' ms ms') :
    Reckons key b b'' (ns ++ ms) (ns' ++ ms') := by
  intro hfull
  obtain ⟨hleft, hright⟩ := List.forall_mem_append.mp hfull
  obtain ⟨hspare, m, hm, hsum⟩ := h hleft
  obtain ⟨hspare', n, hn, hsum'⟩ := h' hright
  refine ⟨List.forall_mem_append.mpr ⟨hspare, hspare'⟩, m + n, hm.trans hn, ?_⟩
  rw [List.map_append, List.map_append, List.sum_append, List.sum_append]
  omega

/-- Changing nodes in a way that keeps rules and counts keeps what they have counted. -/
lemma reckons_map {f : Node L → Node L} (hf : ∀ n, (f n).kind.rule? = n.kind.rule? ∧
    (f n).state.activations = n.state.activations) (b : Blackboard) (ns : List (Node L)) :
    Reckons key b b ns (ns.map f) :=
  reckons_of_same rfl (List.forall₂_map_right_iff.mpr (List.forall₂_same.mpr fun n _ => hf n))

end Reckons

/-! ## Polls -/

section Poll

variable [Behavior L δ] {key : String} {n : Node L} {ts : List (Branch (Node L))}
  {scene : Scene δ}

/-- A poll of the branch on the scene counts. -/
def Branch.PollReckons (key : String) (t : Branch (Node L)) (scene : Scene δ) : Prop :=
  Reckons key scene.board (t.poll scene).scene.board t.labels (t.poll scene).part.labels

/-- Beginning an activation of a node that does not count under the key leaves the entry. -/
lemma Node.get?_begin (hother : n.kind.rule? ≠ some (.increment key)) (hleaf : n.kind.leaf? = none)
    (scene : Scene δ) : (n.begin scene).2.1.board.get? key = scene.board.get? key := by
  rw [begin]
  split
  · rfl
  obtain ⟨id, kind, state⟩ := n
  cases kind with
  | leaf l => cases hleaf
  | decorator rule gate =>
      cases rule with
      | increment k =>
          have hne : k ≠ key := fun heq => hother (heq ▸ rfl)
          exact (Blackboard.get?_set _ _ _ _).trans (if_neg hne)
      | _ => rfl
  | _ => rfl

/-- Beginning an activation counts where it should, at a node that is no leaf. -/
lemma Node.reckons_begin (hleaf : n.kind.leaf? = none) (scene : Scene δ) :
    Reckons key scene.board (n.begin scene).2.1.board [n] [(n.begin scene).1] := by
  by_cases hkey : n.kind.rule? = some (.increment key)
  · rw [begin]
    split
    · exact reckons_refl key _ _
    obtain ⟨id, kind, state⟩ := n
    obtain ⟨gate, rfl⟩ : ∃ gate, kind = .decorator (.increment key) gate := by
      cases kind with
      | decorator rule gate =>
          exact ⟨gate, congrArg (NodeKind.decorator · gate) (Option.some.inj hkey)⟩
      | _ => cases hkey
    have hcount := state.toNat_activate
    have hlt := state.activations.toNat_lt
    have hsize : UInt32.size = 4294967296 := rfl
    intro hfull
    have hroom := hfull _ List.mem_cons_self
    simp only [Full, activate, NodeKind.rule?, true_and] at hroom
    refine ⟨fun m hm hmfull => ?_, 1, Blackboard.counted_onStart key scene.board, ?_⟩
    · obtain rfl := List.mem_singleton.mp hm
      have hat : state.activations.toNat + 1 = UInt32.size := hmfull.2
      omega
    · simp only [List.map_cons, List.map_nil, List.sum_singleton, tally, activate,
        NodeKind.rule?, if_true]
      omega
  · exact reckons_of_other hkey (rule?_eq_of_static (n.static_begin scene))
      (get?_begin hkey hleaf scene)

lemma pollFirst_reckons (hpoll : ∀ t us, ts = t :: us → t.PollReckons key scene) :
    Reckons key scene.board (pollFirst ts scene).scene.board (labelsAll ts)
      (labelsAll (pollFirst ts scene).part) := by
  cases ts with
  | nil => exact reckons_refl key _ _
  | cons t us => exact (hpoll t us rfl).append (reckons_refl key _ _)

/-- Polling from the cursor on counts child by child. -/
lemma Onward.reckons {id : NodeId} {kind : CompositeKind} {cascade : Bool} {skip : Nat}
    {o : Outcome (Nat × List (Branch (Node L))) δ} (h : Onward id kind cascade skip ts scene o)
    (hpoll : ∀ turn, Turns kind cascade skip ts scene turn →
      turn.child.PollReckons key turn.scene) :
    Reckons key scene.board o.scene.board (labelsAll ts) (labelsAll o.part.2) := by
  induction h with
  | exhausted => exact reckons_refl key _ _
  | @skips _ t _ _ _ _ ih =>
      exact (reckons_refl key _ _).append (ih fun turn hturn =>
        hpoll { turn with done := t :: turn.done } (.skips hturn))
  | stops => exact (hpoll _ (.here _ _ _)).append (reckons_refl key _ _)
  | ends => exact (hpoll _ (.here _ _ _)).append (reckons_refl key _ _)
  | @cascades t _ _ scene _ hstatus hc _ ih =>
      exact (hpoll _ (.here _ _ _)).append (ih fun turn hturn =>
        hpoll ⟨(t.poll scene).trace ++ turn.early, turn.moves + 1, (t.poll scene).part :: turn.done,
          turn.child, turn.rest, turn.scene⟩ (.onward hstatus hc hturn))
  | pauses => exact (hpoll _ (.here _ _ _)).append (reckons_refl key _ _)

/-- Running a node counts the activations below it. -/
lemma runBelow_reckons
    (hpoll : ∀ turn, n.Polls ts scene turn → turn.child.PollReckons key turn.scene)
    (hleaf : n.kind.leaf? = none) :
    let o := runBelow (node n ts) scene
    Reckons key scene.board o.scene.board (labelsAll ts) (labelsAll o.part.children) := by
  rw [runBelow]
  cases hk : n.kind with
  | root =>
      rw [Node.run_root hk]
      exact pollFirst_reckons fun t us hts => hpoll ⟨[], 0, [], t, us, scene⟩ (hts ▸ .root hk)
  | composite kind cascade cursor =>
      rw [Node.run_composite hk]
      exact (pollFrom_onward n.id kind cascade cursor ts scene).reckons fun turn hturn =>
        hpoll turn (.composite hk hturn)
  | decorator rule gate =>
      cases ha : Node.admits rule gate scene.board with
      | true =>
          rw [Node.run_admitted hk ha]
          exact pollFirst_reckons fun t us hts =>
            hpoll ⟨[], 0, [], t, us, scene⟩ (hts ▸ .decorator hk ha)
      | false =>
          rw [Node.run_refused hk ha]
          exact reckons_refl key _ _
  | leaf l =>
      rw [hk] at hleaf
      cases hleaf

/-- Ending a poll changes no count. -/
lemma reckons_settle (n : Node L) (status : Status) (b : Blackboard) (ts : List (Branch (Node L))) :
    Reckons key b b (labelsAll ts) (labelsAll (n.settle status ts)) := by
  rw [Node.settle]
  split
  · rw [← mapAll_eq_map, labelsAll_mapAll]
    exact reckons_map (f := Node.clear) (fun _ => ⟨rfl, rfl⟩) b _
  · exact reckons_refl key b _

/-- The run and the end of a poll keep the rule and the count of a node that is no leaf. -/
lemma Node.reckons_conclude {m : Node L} (hstatic : m.static = n.static)
    (hstate : m.state = n.state) (hleaf : n.kind.leaf? = none) (status : Status) :
    Reckons key scene.board (m.conclude status scene).2.1.board [n]
      [(m.conclude status scene).1] := by
  have hrule := rule?_eq_of_static ((m.static_conclude status scene).trans hstatic)
  have hcount : (m.conclude status scene).1.state.activations = n.state.activations := by
    rw [state_conclude, hstate]
    split <;> rfl
  have hboard := congrArg Prod.fst
    (Tandem.conclude_of_leafless (Tandem.leaf?_eq_none_of_static hstatic hleaf) status scene)
  exact reckons_of_same (congrArg (fun s : Scene δ => s.board.get? key) hboard)
    (.cons ⟨hrule, hcount⟩ .nil)

/-- **A poll counts the activations that it begins**, if no hook of a leaf that it comes to changes
what is under the key. -/
theorem poll_reckons (t : Branch (Node L)) (scene : Scene δ)
    (hspares : ∀ v, t.Visits scene v → v.branch.label.HooksSpare key v.scene) :
    t.PollReckons key scene := by
  induction t generalizing scene with
  | node n ts ih =>
      cases hleaf : n.kind.leaf? with
      | some l =>
          have hboard := hspares _ (.here _ scene) l hleaf
          have hother : n.kind.rule? ≠ some (.increment key) := by
            obtain ⟨id, kind, state⟩ := n
            cases kind with
            | decorator => cases hleaf
            | _ => exact fun h => by cases h
          have hstatic := congrArg Branch.label (map_static_poll (node n []) scene)
          rw [label_map, label_map] at hstatic
          have hnode := reckons_of_other hother (Node.rule?_eq_of_static hstatic) hboard
          rw [PollReckons, Tandem.poll_of_leaf hleaf]
          exact hnode.append (reckons_refl key _ _)
      | none =>
          have hbegun : Reckons key scene.board (n.begin scene).2.1.board [n] [(n.begin scene).1] :=
            Node.reckons_begin hleaf scene
          have hleaf' := Tandem.leaf?_eq_none_of_static (n.static_begin scene) hleaf
          have hran : let o := runBelow (node (n.begin scene).1 ts) (n.begin scene).2.1
              Reckons key (n.begin scene).2.1.board o.scene.board (labelsAll ts)
                (labelsAll o.part.children) :=
            runBelow_reckons (fun turn hturn => ih turn.child hturn.child_mem turn.scene
              fun v hv => by
                have hbelow := hspares _ (.under hturn hv)
                exact hbelow) hleaf'
          have hstatic := static_label_run (n.begin scene).1 ts (n.begin scene).2.1
          have hstate := state_runBelow (node (n.begin scene).1 ts) (n.begin scene).2.1
          rw [PollReckons, poll_eq_conclude, Outcome.conclude]
          exact (hbegun.append hran).trans
            ((Node.reckons_conclude hstatic hstate hleaf' _).append (reckons_settle _ _ _ _))

end Poll

/-! ## Activations under way -/

section Underway

variable [Behavior L δ]

/-- The scene after a poll in an arena is the one after the nested poll. -/
lemma Slot.Holds.scene_poll {a : Arena L} {i : Nat} {s : Branch (Node L)} (h : Slot.Holds a i s)
    (scene : Scene δ) : (poll a.length i ⟨a, scene⟩).world.scene = (s.poll scene).scene := by
  obtain ⟨pre, post, rfl, rfl⟩ := h
  rw [poll_layout s pre post scene (by simp only [List.length_append, length_layout])]
  rfl

/-- A counting decorator with an activation under way only passes on what the poll of its child
does to the scene. -/
lemma Branch.scene_poll_counter {n : Node L} {ts : List (Branch (Node L))} {key : String}
    {gate : Bool} (hkind : n.kind = .decorator (.increment key) gate)
    (hstarted : n.state.started = true) (scene : Scene δ) :
    ((node n ts).poll scene).scene = (pollFirst ts scene).scene := by
  have hbegin : n.begin scene = (n, scene, []) := if_pos hstarted
  have hadmits : Node.admits (.increment key) gate scene.board = true := rfl
  have hquiet : ∀ (n : Node L), n.kind = .decorator (.increment key) gate →
      ∀ (status : Status) (scene : Scene δ), (n.conclude status scene).2.1 = scene := by
    intro n hn status scene
    rw [Tandem.conclude_of_leafless (by rw [hn]; rfl)]
  rw [poll_eq_conclude, hbegin, runBelow, Node.run_admitted hkind hadmits, Outcome.conclude]
  exact hquiet n hkind _ _

end Underway

/-! ## Runs -/

namespace Tree

variable [Behavior L δ] {t : Tree L} {b : Branch (Node L)} {key : String}

/-- A call that is no update does nothing to the nodes, or it rearms them. -/
lemma arena_perform {call : Call δ} (hcall : ∀ driver, call ≠ .update driver) :
    (t.perform call).1.arena = t.arena ∨
      (t.perform call).1.arena = t.arena.relabelAll Node.rearm := by
  cases call with
  | start =>
      rw [perform, start]
      cases t.board <;> exact .inl rfl
  | update driver => exact absurd rfl (hcall driver)
  | halt => exact .inl rfl
  | rearm => exact .inr rfl
  | edit f => exact .inl rfl

/-- No node is activated before the first update. -/
lemma activations_performAll {calls : List (Call δ)} (hcalls : ∀ driver, .update driver ∉ calls)
    (h : ∀ slot ∈ t.arena, slot.label.state.activations = 0) :
    ∀ slot ∈ (t.performAll calls).1.arena, slot.label.state.activations = 0 := by
  induction calls generalizing t with
  | nil => exact h
  | cons call calls ih =>
      have hnow : ∀ slot ∈ (t.perform call).1.arena, slot.label.state.activations = 0 := by
        have hother : ∀ driver, call ≠ .update driver := fun driver heq =>
          hcalls driver (heq ▸ List.mem_cons_self)
        obtain harena | harena := arena_perform (t := t) hother <;> rw [harena]
        · exact h
        · intro slot hslot
          obtain ⟨before, hbefore, rfl⟩ := List.mem_map.mp hslot
          exact h before hbefore
      exact ih (fun driver hmem => hcalls driver (List.mem_cons_of_mem _ hmem)) hnow

/-- **A call counts the activations that it begins.** -/
lemma Shows.perform_reckons (h : t.Shows b) {call : Call δ} (hcall : t.CountersOnly key call) :
    Reckons key t.held (t.perform call).1.held (t.arena.map Slot.label)
      ((t.perform call).1.arena.map Slot.label) := by
  -- a call that is no update leaves the counts, and what is under the key
  have hrests : (∀ driver, call ≠ .update driver) →
      (t.perform call).1.held.get? key = t.held.get? key →
      Reckons key t.held (t.perform call).1.held (t.arena.map Slot.label)
        ((t.perform call).1.arena.map Slot.label) := by
    intro hne hheld
    refine reckons_of_same hheld ?_
    rcases arena_perform (t := t) hne with harena | harena <;> rw [harena]
    · exact List.forall₂_same.mpr fun _ _ => ⟨rfl, rfl⟩
    · rw [Arena.relabelAll, List.map_map, List.forall₂_map_left_iff, List.forall₂_map_right_iff]
      exact List.forall₂_same.mpr fun slot _ =>
        ⟨Node.rule?_eq_of_static (Node.static_rearm slot.label), rfl⟩
  cases call with
  | start =>
      refine hrests (fun _ heq => by cases heq) ?_
      rw [Tree.perform, start]
      cases hboard : t.board with
      | none =>
          rw [held, held, hboard]
          rfl
      | some board => rfl
  | update driver =>
      cases hboard : t.board with
      | none =>
          have hupdate : t.update driver = .error .notStarted := by rw [Tree.update, hboard]
          rw [Tree.perform, hupdate]
          exact reckons_refl key _ _
      | some board =>
          cases hstate : t.state.isTerminal with
          | true =>
              rw [Tree.perform, update_of_terminal hboard hstate]
              exact reckons_refl key _ _
          | false =>
              have hrunning := Status.isTerminal_eq_false_iff.mp hstate
              have hpoll := poll_reckons b ⟨board, driver⟩ fun v hv =>
                hcall v ⟨b, board, h.branch?, hboard, hrunning, hv⟩
              rw [Tree.perform, h.update hboard hrunning, held, hboard, h.map_label,
                map_label_layout]
              exact hpoll
  | halt => exact hrests (fun _ heq => by cases heq) rfl
  | rearm => exact hrests (fun _ heq => by cases heq) rfl
  | edit f => exact hrests (fun _ heq => by cases heq) hcall

/-- **A run counts the activations that it begins.** -/
theorem Shows.performAll_reckons (h : t.Shows b) {calls : List (Call δ)}
    (hcalls : t.Along (CountersOnly key) calls) :
    Reckons key t.held (t.performAll calls).1.held (t.arena.map Slot.label)
      ((t.performAll calls).1.arena.map Slot.label) := by
  induction calls generalizing t b with
  | nil => exact reckons_refl key _ _
  | cons call calls ih =>
      obtain ⟨c, hc, -⟩ := h.perform call
      exact (h.perform_reckons hcalls.1).trans (ih hc hcalls.2)

/-- **Increments count activations.**  Take a run of a fresh tree in which, from the first update
on, nothing but counting decorators writes under the key.  At every point of it, what is under the
key is what was there before the first update, together with the activations of all the nodes that
count under it, as long as none of their own counts has reached its end.  And wherever a node that
counts is polled in the middle of an activation, the poll does nothing to the blackboard but what
polling its child does. -/
theorem Fresh.counts_activations (h : t.Fresh) (key : String) {before after : List (Call δ)}
    (hbefore : ∀ driver, .update driver ∉ before)
    (hafter : (t.performAll before).1.Along (CountersOnly key) after) :
    (∀ done, done <+: after →
      let first := (t.performAll before).1
      let now := (first.performAll done).1
      (∀ slot ∈ now.arena, ¬ slot.label.Full key) →
        first.held.Counted key now.held (now.tally key)) ∧
    ∀ a : Arena L, a.map Slot.children = t.arena.map Slot.children →
      ∀ (i : Nat) (slot : Slot (Node L)) (k : String) (gate : Bool), a[i]? = some slot →
        slot.label.kind = .decorator (.increment k) gate → slot.label.state.started = true →
          ∀ scene : Scene δ, (poll a.length i ⟨a, scene⟩).world.scene =
            (pollRoot (poll a.length) slot.children ⟨a, scene⟩).world.scene := by
  obtain ⟨b, hb⟩ := h.pristine
  refine ⟨?_, ?_⟩
  · rintro done ⟨rest, rfl⟩ first now hfull
    obtain ⟨c, hc, -⟩ := hb.toShows.performAll before
    have hidle : ∀ slot ∈ t.arena, slot.label.state.activations = 0 := fun slot hslot => by
      obtain ⟨i, hi⟩ := List.mem_iff_getElem?.mp hslot
      rw [hb.state_eq_fresh (hb.label_mem hi)]
      rfl
    have hzero : ((first.arena.map Slot.label).map (Node.tally key)).sum = 0 := by
      rw [List.map_map]
      refine List.sum_eq_zero_iff_forall_eq_nat.mpr fun x hx => ?_
      obtain ⟨slot, hslot, rfl⟩ := List.mem_map.mp hx
      have hcount : slot.label.state.activations = 0 :=
        activations_performAll hbefore hidle slot hslot
      simp [Node.tally, hcount]
    obtain ⟨-, count, hcount, hsum⟩ :=
      hc.performAll_reckons (Along.append_left hafter) (List.forall_mem_map.mpr hfull)
    have htally : now.tally key = ((now.arena.map Slot.label).map (Node.tally key)).sum := by
      rw [List.map_map]
      rfl
    rw [htally, hsum, hzero, Nat.zero_add]
    exact hcount
  · intro a hrefs i slot k gate hslot hkind hstarted scene
    rw [hb.arena] at hrefs
    obtain ⟨u, -, rfl⟩ := exists_layout_eq hrefs
    rw [getElem?_layout, Nat.zero_add, Option.map_eq_some_iff] at hslot
    obtain ⟨⟨n, ts⟩, hs, rfl⟩ := hslot
    have hholds := (Slot.holds_layout u).part hs
    rw [Nat.zero_add] at hholds
    have hcounter : n.kind = .decorator (.increment k) gate := hkind
    rw [hholds.scene_poll, scene_poll_counter hcounter hstarted]
    cases ts with
    | nil => rfl
    | cons c cs => exact (hholds.children.head.scene_poll scene).symm

/-- Blind leaves and edits elsewhere leave it to counting decorators to write under a key. -/
lemma Shows.countersOnly (h : t.Shows b) {rules : List DecoratorRule}
    (htracked : ∀ slot ∈ t.arena, slot.label.Tracked rules) {calls : List (Call δ)}
    (hedits : ∀ f, .edit f ∈ calls → ∀ board : Blackboard, (f board).get? key = board.get? key) :
    t.Along (CountersOnly key) calls := by
  induction calls generalizing t b with
  | nil => trivial
  | cons call calls ih =>
      obtain ⟨c, hc, -⟩ := h.perform call
      have hlater := (Node.lasting_tracked rules).performAll htracked [call]
      refine ⟨?_, ih hc hlater fun f hf => hedits f (List.mem_cons_of_mem _ hf)⟩
      cases call with
      | update driver =>
          intro v hv l hl
          obtain ⟨board, -, -, hvisits⟩ := h.exists_visits hv
          have hslot := getElem?_layout_part hvisits.part
          rw [← h.arena] at hslot
          have hblind := (htracked _ (List.mem_of_getElem? hslot)).leaf l hl
          obtain ⟨early, now, position, ⟨⟨id, kind, state⟩, ts⟩, ⟨board, driver⟩⟩ := v
          cases kind with
          | leaf l' =>
              cases hl
              obtain ⟨status, l', state', driver', trace, -, hpoll⟩ := hblind.poll id state driver
              exact congrArg (fun o => o.scene.board.get? key) (hpoll board)
          | _ => cases hl
      | edit f =>
          rw [CountersOnly, held, held, editBoard]
          cases hboard : t.board with
          | none => rfl
          | some board => exact hedits f List.mem_cons_self board
      | _ => trivial

/-- Two nodes that count under one key, at different depths: a truth value is there first, and each
is activated twice. -/
theorem counts_activations_shared :
    let t : Tree Constant := ofBranch (.node (.fresh ⟨0⟩ .root)
      [.node (.fresh ⟨1⟩ (.composite .sequence true 0))
        [.node (.fresh ⟨2⟩ (.decorator (.increment "n") false))
          [.node (.fresh ⟨3⟩ (.leaf .succeed)) []],
        .node (.fresh ⟨4⟩ (.decorator .invert false))
          [.node (.fresh ⟨5⟩ (.decorator (.increment "n") false))
            [.node (.fresh ⟨6⟩ (.leaf .running)) []]]]])
    let before : List (Call Unit) := [.start, .edit (·.set "n" (.bool true))]
    let after : List (Call Unit) :=
      [.update (), .edit (·.set "other" (.int 9)), .update (), .halt, .rearm, .update ()]
    let first := (t.performAll before).1
    let now := (first.performAll after).1
    Tree.build .standard (some (.sequence [
        .decorate (.increment "n") (.leaf none Constant.succeed),
        .decorate .invert (.decorate (.increment "n") (.leaf none .running))])) = .ok t ∧
      (∀ driver, .update driver ∉ before) ∧ first.Along (CountersOnly "n") after ∧
      (∀ slot ∈ now.arena, ¬ slot.label.Full "n") ∧ now.tally "n" = 4 ∧
      first.held.Counted "n" now.held (now.tally "n") ∧ now.held.intOr "n" 0 = 5 := by
  intro t before after first now
  have hbuild : Tree.build .standard (some (.sequence [
      .decorate (.increment "n") (.leaf none Constant.succeed),
      .decorate .invert (.decorate (.increment "n") (.leaf none .running))])) = .ok t := rfl
  have hfresh : t.Fresh := .built .standard _ hbuild
  have hbefore : ∀ driver, .update driver ∉ before := by simp [before]
  have halong : first.Along (CountersOnly "n") after := by
    obtain ⟨b, hb⟩ := hfresh.pristine
    obtain ⟨c, hc, -⟩ := hb.toShows.performAll before
    refine hc.countersOnly (tracked_of_blind fun l _ => l.blind) fun f hf board => ?_
    obtain rfl : f = (·.set "other" (.int 9)) := by simpa [after] using hf
    rw [Blackboard.get?_set, if_neg (by decide)]
  have hfull : ∀ slot ∈ now.arena, ¬ slot.label.Full "n" := by decide +kernel
  exact ⟨hbuild, hbefore, halong, hfull, by decide +kernel,
    (hfresh.counts_activations "n" hbefore halong).1 after List.prefix_rfl hfull,
    by decide +kernel⟩

end Tree

end BehaviorTree
