import BehaviorTree.Proofs.Following
import BehaviorTree.Proofs.Positions
import BehaviorTree.Proofs.Resetting
import Mathlib.Order.Interval.Set.Basic

/-!
# The frame of a poll

All nodes of a tree share one arena, and a poll goes through it by positions.  What it may change is
bounded by the stretch of the node that it polls, and within the stretch by what its trace tells.
Nothing is asked of the nodes in the arena, of their identities or of the leaves: it is enough that
the references are as in a layout.

* `Arena.Tiled` — below every node the subtrees of its children tile a stretch.
  **`Fresh.tiled_performAll`**: so it is in every tree.
* `Arena.Entered` and `Arena.Cleared` — the node at a position has been polled, or a reset above it
  has failed, as a trace tells.
* `Arena.Framed` — the frame that steps keep to: which slots may change, and which activations may
  begin.  Frames one after the other make a frame (`Framed.trans`), if no activation begins in both.
* **`poll_framed`** — what a poll keeps to, and **`poll_frame`** — the same of any position.
-/

namespace BehaviorTree

open Relation Slot

variable {L δ : Type}

/-! ## The specification -/

namespace Arena

/-- The nodes at or below a position are a stretch, and the subtrees of its children tile the rest
of the stretch. -/
def Tiled (a : Arena L) : Prop :=
  ∀ (i : Nat) (slot : Slot (Node L)), a[i]? = some slot →
    ∃ hi ≤ a.length, a.Spans i hi ∧ a.Tiles (i + 1) slot.children hi

/-- What is static about the nodes, with their references. -/
def static (a : Arena L) : List (Slot (NodeId × NodeKind Unit)) :=
  a.map fun slot => ⟨slot.label.static, slot.children⟩

/-- How many activations of the node at a position there have been. -/
def activations (a : Arena L) (j : Nat) : Nat :=
  a[j]?.elim 0 fun slot => slot.label.state.activations.toNat

/-- The node at the position has been polled.  Its identity tells, which no other node of a tree
has. -/
def Entered (a : Arena L) (trace : Trace) (j : Nat) : Prop :=
  ∃ slot, a[j]? = some slot ∧ .enter slot.label.id ∈ trace

/-- A reset above the position has been polled, and it has failed. -/
def Cleared (a : Arena L) (trace : Trace) (j : Nat) : Prop :=
  ∃ r slot, a[r]? = some slot ∧ slot.label.kind.static = .decorator .reset false ∧
    .leave slot.label.id .failure ∈ trace ∧ TransGen a.Refers r j

/-- The frame of a poll that has made one arena of another: the poll of the position `i`, below
which the nodes are a stretch up to `hi`. -/
structure PollFrame (i hi : Nat) (trace : Trace) (a a' : Arena L) : Prop where
  stretch : a.Spans i hi
  within : i < a.length → hi ≤ a.length
  outside : ∀ j, ¬ (i ≤ j ∧ j < hi) → a'[j]? = a[j]?
  /-- Identities, kinds with everything that execution does not change, and references. -/
  static : a'.static = a.static
  /-- At most one activation of a node begins, and none is forgotten. -/
  activations : ∀ j, a.activations j ≤ a'.activations j ∧ a'.activations j ≤ a.activations j + 1
  kept : ∀ j, ¬ a.Entered trace j → ¬ a.Cleared trace j → a'[j]? = a[j]?

end Arena

/-! ## Frames -/

namespace Arena

/-- The frame that a step keeps to: the slots that it may change, and the positions at which an
activation may begin, one at each. -/
structure Framed (touched begun : Set Nat) (a a' : Arena L) : Prop where
  static : a'.static = a.static
  kept : ∀ j ∉ touched, a'[j]? = a[j]?
  idle : ∀ j ∉ begun, a'.activations j = a.activations j
  grown : ∀ j, a.activations j ≤ a'.activations j ∧ a'.activations j ≤ a.activations j + 1

namespace Framed

variable {a b c : Arena L} {T T' B B' : Set Nat}

lemma refl (a : Arena L) : Framed T B a a where
  static := rfl
  kept _ _ := rfl
  idle _ _ := rfl
  grown _ := ⟨Nat.le_refl _, Nat.le_succ _⟩

lemma mono (h : Framed T B a b) (hT : T ⊆ T') (hB : B ⊆ B') : Framed T' B' a b where
  static := h.static
  kept j hj := h.kept j fun hmem => hj (hT hmem)
  idle j hj := h.idle j fun hmem => hj (hB hmem)
  grown := h.grown

/-- **One step after the other**, if no activation begins at one position in both. -/
theorem trans (h : Framed T B a b) (h' : Framed T' B' b c) (hdisjoint : ∀ j ∈ B, j ∉ B') :
    Framed (T ∪ T') (B ∪ B') a c where
  static := h'.static.trans h.static
  kept j hj := by
    rw [Set.mem_union, not_or] at hj
    exact (h'.kept j hj.2).trans (h.kept j hj.1)
  idle j hj := by
    rw [Set.mem_union, not_or] at hj
    exact (h'.idle j hj.2).trans (h.idle j hj.1)
  grown j := by
    by_cases hj : j ∈ B
    · rw [h'.idle j (hdisjoint j hj)]
      exact h.grown j
    · rw [← h.idle j hj]
      exact h'.grown j

/-- A step in which no activation begins, behind another one. -/
lemma trans_idle (h : Framed T B a b) (h' : Framed T' ∅ b c) : Framed (T ∪ T') B a c :=
  (h.trans h' fun j _ => Set.notMem_empty j).mono Set.Subset.rfl (Set.union_empty B).subset

end Framed

end Arena

/-! ## Changing nodes -/

/-- What a step that keeps to a frame may make of the node at a position. -/
structure Node.Framed (touched begun : Set Nat) (j : Nat) (n n' : Node L) : Prop where
  static : n'.static = n.static
  kept : j ∉ touched → n' = n
  idle : j ∉ begun → n'.state.activations = n.state.activations
  grown : n.state.activations.toNat ≤ n'.state.activations.toNat ∧
    n'.state.activations.toNat ≤ n.state.activations.toNat + 1

namespace Node

variable {T B : Set Nat} {j : Nat} {n n' : Node L}

lemma framed_refl (n : Node L) : n.Framed T B j n :=
  ⟨rfl, fun _ => rfl, fun _ => rfl, Nat.le_refl _, Nat.le_succ _⟩

/-- A node that is changed without counting an activation. -/
lemma framed_of_idle (hj : j ∈ T) (hstatic : n'.static = n.static)
    (hcount : n'.state.activations = n.state.activations) : n.Framed T B j n' :=
  ⟨hstatic, fun h => absurd hj h, fun _ => hcount, hcount ▸ Nat.le_refl _, hcount ▸ Nat.le_succ _⟩

end Node

namespace Arena

variable {a a' : Arena L} {T B : Set Nat} {i : Nat}

/-- Changing nodes in their places. -/
lemma framed_of_map {g : Nat → Node L → Node L}
    (h : ∀ j : Nat, a'[j]? = a[j]?.map fun slot => ⟨g j slot.label, slot.children⟩)
    (hnode : ∀ (j : Nat) slot, a[j]? = some slot → slot.label.Framed T B j (g j slot.label)) :
    Framed T B a a' where
  static := by
    refine List.ext_getElem? fun j => ?_
    rw [static, static, List.getElem?_map, List.getElem?_map, h]
    cases hslot : a[j]? with
    | none => rfl
    | some slot => simp [(hnode j slot hslot).static]
  kept j hj := by
    rw [h]
    cases hslot : a[j]? with
    | none => rfl
    | some slot => simp [(hnode j slot hslot).kept hj]
  idle j hj := by
    rw [activations, activations, h]
    cases hslot : a[j]? with
    | none => rfl
    | some slot => exact congrArg UInt32.toNat ((hnode j slot hslot).idle hj)
  grown j := by
    rw [activations, activations, h]
    cases hslot : a[j]? with
    | none => exact ⟨Nat.le_refl _, Nat.zero_le _⟩
    | some slot => exact (hnode j slot hslot).grown

/-- Changing the node at one position. -/
lemma framed_relabel {f : Node L → Node L}
    (h : ∀ slot, a[i]? = some slot → slot.label.Framed {i} B i (f slot.label)) :
    Framed {i} B a (a.relabel i f) := by
  refine framed_of_map (g := fun j n => if i = j then f n else n)
    (fun j => getElem?_relabel a i j f) fun j slot hslot => ?_
  split
  · next hij =>
      subst hij
      exact h slot hslot
  · exact slot.label.framed_refl

/-- Changing the node that stands at a position. -/
lemma framed_relabel_of_slot {f : Node L → Node L} {slot : Slot (Node L)}
    (hslot : a[i]? = some slot) (h : slot.label.Framed {i} B i (f slot.label)) :
    Framed {i} B a (a.relabel i f) := by
  refine framed_relabel fun slot' hslot' => ?_
  rw [hslot, Option.some.injEq] at hslot'
  exact hslot' ▸ h

/-- Clearing below a position. -/
lemma framed_clearBelow (a : Arena L) (i : Nat) :
    Framed {j | j ∈ Slot.below a i} ∅ a (a.clearBelow i) := by
  refine framed_of_map (g := fun j n => if j ∈ Slot.below a i then n.clear else n) (fun j => ?_)
    fun j slot _ => ?_
  · rw [getElem?_clearBelow]
    by_cases hj : j ∈ Slot.below a i
    · simp only [if_pos hj]
      rfl
    · simp only [if_neg hj]
      cases a[j]? <;> rfl
  · split
    · next hj => exact Node.framed_of_idle hj rfl rfl
    · exact slot.label.framed_refl

end Arena

/-! ## References and stretches -/

namespace Arena

variable {a a' : Arena L}

/-- What is static about the slot at a position. -/
lemma exists_slot_of_static (h : a'.static = a.static) {i : Nat} {slot' : Slot (Node L)}
    (hslot : a'[i]? = some slot') : ∃ slot, a[i]? = some slot ∧
      slot.label.static = slot'.label.static ∧ slot.children = slot'.children := by
  have hi := congrArg (·[i]?) h
  simp only [static, List.getElem?_map, hslot, Option.map_some] at hi
  obtain ⟨slot, hslot, heq⟩ := Option.map_eq_some_iff.mp hi.symm
  rw [Slot.mk.injEq] at heq
  exact ⟨slot, hslot, heq⟩

lemma refers_of_static (h : a'.static = a.static) {p c : Nat} (hc : a'.Refers p c) :
    a.Refers p c := by
  obtain ⟨slot', hslot', hmem⟩ := hc
  obtain ⟨slot, hslot, -, hchildren⟩ := exists_slot_of_static h hslot'
  exact ⟨slot, hslot, hchildren ▸ hmem⟩

lemma transGen_of_static (h : a'.static = a.static) {p c : Nat} (hc : TransGen a'.Refers p c) :
    TransGen a.Refers p c :=
  TransGen.mono (fun _ _ => refers_of_static h) p c hc

/-- A walk goes along references. -/
lemma reaches_of_mem_walk {i depth k e : Nat} (h : (k, e) ∈ Slot.walk a i depth) :
    ReflTransGen a.Refers i k := by
  induction hn : a.length - i using Nat.strongRecOn generalizing i depth with
  | ind n ih =>
      rw [Slot.walk] at h
      split at h
      · next hi =>
          rcases List.mem_cons.mp h with heq | hmem
          · rw [(Prod.mk.inj heq).1]
          · obtain ⟨c, hc, hwalk⟩ := List.mem_flatMap.mp hmem
            split at hwalk
            · next hforward =>
                have hlt := hforward.1
                have hrefers : a.Refers i c := ⟨a[i], List.getElem?_eq_getElem hi, hc⟩
                exact .head hrefers (ih (a.length - c) (by omega) hwalk rfl)
            · exact absurd hwalk List.not_mem_nil
      · exact absurd h List.not_mem_nil

/-- What is below a position is reached from it. -/
lemma below_of_mem {i k : Nat} (h : k ∈ Slot.below a i) : TransGen a.Refers i k := by
  obtain ⟨⟨k, e⟩, hmem, rfl⟩ := List.mem_map.mp h
  rw [Slot.walk] at hmem
  split at hmem
  · next hi =>
      obtain ⟨c, hc, hwalk⟩ := List.mem_flatMap.mp hmem
      split at hwalk
      · exact .head' ⟨a[i], List.getElem?_eq_getElem hi, hc⟩ (reaches_of_mem_walk hwalk)
      · exact absurd hwalk List.not_mem_nil
  · exact absurd hmem List.not_mem_nil

/-- A stretch has one end. -/
lemma Spans.unique {lo hi hi' : Nat} (h : a.Spans lo hi) (h' : a.Spans lo hi') : hi = hi' := by
  have hsame : ∀ k, (lo ≤ k ∧ k < hi) ↔ lo ≤ k ∧ k < hi' := fun k => (h k).symm.trans (h' k)
  have hlo := (h lo).mp .refl
  have hlo' := (h' lo).mp .refl
  have hhi := hsame hi
  have hhi' := hsame hi'
  omega

/-- The children behind the first ones still tile the rest of the stretch. -/
lemma Tiles.drop {lo hi : Nat} {cs : List Nat} (h : a.Tiles lo cs hi) (n : Nat) :
    ∃ mid, lo ≤ mid ∧ a.Tiles mid (cs.drop n) hi := by
  induction h generalizing n with
  | nil k => exact ⟨k, Nat.le_refl _, by rw [List.drop_nil]; exact .nil k⟩
  | @cons lo mid hi cs hspans htiles ih =>
      cases n with
      | zero => exact ⟨lo, Nat.le_refl _, .cons hspans htiles⟩
      | succ n =>
          obtain ⟨start, hle, hrest⟩ := ih n
          have hlo := (hspans lo).mp .refl
          exact ⟨start, by omega, hrest⟩

lemma Tiles.le {lo hi : Nat} {cs : List Nat} (h : a.Tiles lo cs hi) : lo ≤ hi := by
  induction h with
  | nil k => exact Nat.le_refl k
  | @cons lo mid hi cs hspans _ ih =>
      have hlo := (hspans lo).mp .refl
      omega

end Arena

/-! ## What a trace tells of -/

namespace Arena

/-- The positions of a stretch that a trace tells of. -/
def told (a : Arena L) (lo hi : Nat) (trace : Trace) : Set Nat :=
  {j | (lo ≤ j ∧ j < hi) ∧ (a.Entered trace j ∨ a.Cleared trace j)}

variable {a : Arena L} {i hi : Nat} {trace : Trace} {slot : Slot (Node L)}

lemma told_mono {lo lo' hi' : Nat} {trace' : Trace} (hlo : lo' ≤ lo) (hhi : hi ≤ hi')
    (htrace : trace ⊆ trace') : a.told lo hi trace ⊆ a.told lo' hi' trace' := by
  rintro j ⟨hj, htold⟩
  refine ⟨⟨by omega, by omega⟩, htold.imp ?_ ?_⟩
  · rintro ⟨slot, hslot, henter⟩
    exact ⟨slot, hslot, htrace henter⟩
  · rintro ⟨r, slot, hslot, hreset, hleave, hbelow⟩
    exact ⟨r, slot, hslot, hreset, htrace hleave, hbelow⟩

lemma self_mem_told (hspans : a.Spans i hi) (hslot : a[i]? = some slot)
    (henter : .enter slot.label.id ∈ trace) : i ∈ a.told i hi trace :=
  ⟨(hspans i).mp .refl, .inl ⟨slot, hslot, henter⟩⟩

/-- The failure of a reset tells of everything below it. -/
lemma below_mem_told (hspans : a.Spans i hi) (hslot : a[i]? = some slot)
    (hreset : slot.label.kind.static = .decorator .reset false)
    (hleave : .leave slot.label.id .failure ∈ trace) {j : Nat} (hj : TransGen a.Refers i j) :
    j ∈ a.told i hi trace :=
  ⟨(hspans j).mp hj.to_reflTransGen, .inr ⟨i, slot, hslot, hreset, hleave, hj⟩⟩

end Arena

/-! ## Polls -/

section Polls

variable {a : Arena L} {w : World L δ} {child : Poller L δ} {i lo hi : Nat}

/-- The way to poll keeps to the stretch of the node that is polled. -/
def Poller.Framed (a : Arena L) (child : Poller L δ) : Prop :=
  ∀ c mid, a.Spans c mid → ∀ w : World L δ, w.arena.static = a.static →
    Arena.Framed (a.told c mid (child c w).trace) (Set.Ico c mid) w.arena (child c w).world.arena

lemma pollRoot_framed (hchild : child.Framed a) {cs : List Nat} (h : a.Tiles lo cs hi)
    (hw : w.arena.static = a.static) :
    Arena.Framed (a.told lo hi (pollRoot child cs w).trace) (Set.Ico lo hi) w.arena
      (pollRoot child cs w).world.arena := by
  cases h with
  | nil => exact .refl _
  | cons hspans hrest =>
      exact (hchild lo _ hspans w hw).mono
        (Arena.told_mono (Nat.le_refl _) hrest.le (List.Subset.refl _))
        (Set.Ico_subset_Ico_right hrest.le)

lemma Polled.passed_framed (p : Polled L δ) (i cursor : Nat) :
    Arena.Framed {i} ∅ p.world.arena (p.passed i cursor).arena := by
  show Arena.Framed {i} ∅ p.world.arena
    (p.world.arena.relabel i fun n => { n with kind := n.kind.withCursor (cursor + 1) })
  refine Arena.framed_relabel fun slot _ => Node.framed_of_idle rfl ?_ ?_
  · obtain ⟨⟨id, kind, state⟩, cs⟩ := slot
    cases kind <;> rfl
  · rfl

/-- Polling the children of a composite from the cursor on.  The subtrees that are polled one after
the other are stretches one behind the other. -/
lemma pollFrom_framed (hchild : child.Framed a) (i : Nat) (id : NodeId) (kind : CompositeKind)
    (cascade : Bool) (cursor : Nat) {remaining : List Nat} (h : a.Tiles lo remaining hi)
    (hw : w.arena.static = a.static) :
    Arena.Framed ({i} ∪ a.told lo hi (pollFrom child i id kind cascade cursor remaining w).trace)
      (Set.Ico lo hi) w.arena
      (pollFrom child i id kind cascade cursor remaining w).world.arena := by
  induction h generalizing cursor w with
  | nil => exact .refl _
  | @cons lo mid hi rest hspans hrest ih =>
      have hmid := hrest.le
      have hlo := (hspans lo).mp .refl
      have hnow := hchild lo mid hspans w hw
      have hpassed := hnow.trans_idle ((child lo w).passed_framed i cursor)
      have hbegun : Set.Ico lo mid ⊆ Set.Ico lo hi := Set.Ico_subset_Ico_right hmid
      have htold : ∀ later : Trace, a.told lo mid (child lo w).trace ∪ {i} ⊆
          {i} ∪ a.told lo hi ((child lo w).trace ++ later) := fun later =>
        Set.union_comm _ _ ▸ Set.union_subset_union_right _
          (Arena.told_mono (Nat.le_refl _) hmid (List.subset_append_left _ _))
      by_cases hs : (child lo w).status = kind.advancesOn
      · cases rest with
        | nil =>
            rw [pollFrom_ends rfl hs]
            have := hpassed.mono (htold []) hbegun
            rwa [List.append_nil] at this
        | cons d rest =>
            cases hc : cascade with
            | true =>
                subst hc
                rw [pollFrom_cascades rfl hs rfl]
                have hlater := ih (cursor + 1) (hpassed.static.trans hw)
                have hdisjoint : ∀ j ∈ Set.Ico lo mid, j ∉ Set.Ico mid hi := by
                  rintro j ⟨-, hlt⟩ ⟨hle, -⟩
                  omega
                refine (hpassed.trans hlater hdisjoint).mono ?_ ?_
                · refine Set.union_subset (htold _) (Set.union_subset_union_right _ ?_)
                  exact Arena.told_mono (by omega) (Nat.le_refl _) (List.subset_append_right _ _)
                · exact Set.union_subset hbegun (Set.Ico_subset_Ico_left (by omega))
            | false =>
                rw [pollFrom_pauses rfl hs rfl]
                exact hpassed.mono (htold _) hbegun
      · rw [pollFrom_stops rfl hs]
        refine hnow.mono ?_ hbegun
        exact (Arena.told_mono (Nat.le_refl _) hmid (List.Subset.refl _)).trans
          Set.subset_union_right

lemma pollDecorated_framed (hchild : child.Framed a) (rule : DecoratorRule) (gate : Bool)
    {cs : List Nat} (h : a.Tiles lo cs hi) (hw : w.arena.static = a.static) :
    Arena.Framed (a.told lo hi (pollDecorated child rule gate cs w).trace) (Set.Ico lo hi) w.arena
      (pollDecorated child rule gate cs w).world.arena := by
  cases hadmits : Node.admits rule gate w.scene.board with
  | true =>
      rw [pollDecorated_admitted hadmits]
      exact pollRoot_framed hchild h hw
  | false =>
      rw [pollDecorated_refused hadmits]
      exact .refl _

variable [Behavior L δ] {slot : Slot (Node L)}

/-- Beginning an activation, unless one is under way. -/
lemma World.activate_framed (h : w.arena[i]? = some slot) :
    Arena.Framed {i} {i} w.arena (w.activate i slot.label).1.arena := by
  rw [activate]
  split
  · exact .refl _
  · have hstate : (slot.label.activate w.scene).1.state = slot.label.state.activate := by
      obtain ⟨⟨id, kind, state⟩, cs⟩ := slot
      cases kind <;> rfl
    have hcount := slot.label.state.toNat_activate
    have hlt := slot.label.state.activations.toNat_lt
    have hsize : UInt32.size = 4294967296 := rfl
    show Arena.Framed {i} {i} w.arena (w.arena.relabel i fun _ => (slot.label.activate w.scene).1)
    refine Arena.framed_relabel_of_slot h ⟨slot.label.static_activate w.scene,
      fun hi => absurd rfl hi, fun hi => absurd rfl hi, ?_⟩
    rw [hstate]
    omega

/-- Running a node whose children tile a stretch. -/
lemma run_framed (hchild : child.Framed a) (hslot : w.arena[i]? = some slot)
    (h : a.Tiles (i + 1) slot.children hi) (hw : w.arena.static = a.static) :
    Arena.Framed ({i} ∪ a.told (i + 1) hi (run child i w).trace) (Set.Ico (i + 1) hi) w.arena
      (run child i w).world.arena := by
  rw [run, hslot]
  dsimp only
  cases hkind : slot.label.kind with
  | root => exact (pollRoot_framed hchild h hw).mono Set.subset_union_right Set.Subset.rfl
  | composite kind cascade cursor =>
      obtain ⟨mid, hmid, hrest⟩ := h.drop cursor
      refine (pollFrom_framed hchild i _ kind cascade cursor hrest hw).mono ?_
        (Set.Ico_subset_Ico_left hmid)
      exact Set.union_subset_union_right _
        (Arena.told_mono hmid (Nat.le_refl _) (List.Subset.refl _))
  | decorator rule gate =>
      exact (pollDecorated_framed hchild rule gate h hw).mono Set.subset_union_right Set.Subset.rfl
  | leaf l =>
      have hworked : Arena.Framed {i} ∅ w.arena (w.arena.relabel i fun n =>
          { n with kind := .leaf (Behavior.onUpdate slot.label.id l w.scene).2.1 }) :=
        Arena.framed_relabel_of_slot hslot
          (Node.framed_of_idle rfl (Node.static_worked hkind _) rfl)
      exact hworked.mono Set.subset_union_left (Set.empty_subset _)

/-- Ending a poll.  A failed reset clears what is below. -/
lemma World.conclude_framed (hslot : w.arena[i]? = some slot) (status : Status) :
    Arena.Framed ({i} ∪ {j | slot.label.kind.static = .decorator .reset false ∧
      status = .failure ∧ TransGen w.arena.Refers i j}) ∅ w.arena
      (w.conclude i status).1.arena := by
  have hconcluded := slot.label.static_conclude status w.scene
  have hrecorded : Arena.Framed {i} ∅ w.arena
      (w.arena.relabel i fun _ => (slot.label.conclude status w.scene).1) := by
    refine Arena.framed_relabel_of_slot hslot (Node.framed_of_idle rfl hconcluded ?_)
    rw [slot.label.state_conclude]
    split <;> rfl
  rw [World.conclude_of_slot hslot]
  dsimp only
  split
  · next hclears =>
      obtain ⟨hreset, hfailed⟩ := Node.clearsOn_iff.mp hclears
      rw [Node.kind_eq_of_static hconcluded] at hreset
      refine (hrecorded.trans_idle (Arena.framed_clearBelow _ i)).mono
        (Set.union_subset_union_right _ fun j hj => ⟨hreset, hfailed, ?_⟩) Set.Subset.rfl
      exact Arena.transGen_of_static hrecorded.static (Arena.below_of_mem hj)
  · exact hrecorded.mono Set.subset_union_left Set.Subset.rfl

/-- Polling a node, given that polling its children keeps to their stretches. -/
lemma pollNode_framed (ha : a.Tiled) (hchild : child.Framed a) (hspans : a.Spans i hi)
    (hw : w.arena.static = a.static) :
    Arena.Framed (a.told i hi (pollNode child i w).trace) (Set.Ico i hi) w.arena
      (pollNode child i w).world.arena := by
  cases hslot : w.arena[i]? with
  | none =>
      rw [pollNode, hslot]
      exact .refl _
  | some slot =>
      obtain ⟨origin, horigin, hstatic, hchildren⟩ := Arena.exists_slot_of_static hw hslot
      obtain ⟨hi', -, hspans', htiles⟩ := ha i origin horigin
      obtain rfl := hspans.unique hspans'
      have hself := (hspans i).mp .refl
      simp only [pollNode, hslot]
      -- the three steps of the poll, each with the slot that it finds
      have hbegun := World.activate_framed hslot
      obtain ⟨slot₁, hslot₁, hstatic₁, hchildren₁⟩ :=
        Arena.exists_slot_of_static hbegun.static.symm hslot
      generalize w.activate i slot.label = begun at hbegun hslot₁ ⊢
      have hran := run_framed hchild hslot₁ (hchildren₁ ▸ hchildren ▸ htiles)
        (hbegun.static.trans hw)
      obtain ⟨slot₂, hslot₂, hstatic₂, -⟩ := Arena.exists_slot_of_static hran.static.symm hslot₁
      generalize run child i begun.1 = ran at hran hslot₂ ⊢
      have hended := World.conclude_framed hslot₂ ran.status
      have hkind : slot₂.label.kind.static = origin.label.kind.static :=
        Node.kind_eq_of_static ((hstatic₂.trans hstatic₁).trans hstatic.symm)
      have hid : origin.label.id = slot.label.id := Node.id_eq_of_static hstatic
      set trace := Event.enter slot.label.id :: begun.2 ++ ran.trace ++
        (ran.world.conclude i ran.status).2 ++ [.leave slot.label.id ran.status] with htrace
      have hhere : {i} ⊆ a.told i hi trace :=
        Set.singleton_subset_iff.mpr (Arena.self_mem_told hspans horigin (by simp [htrace, hid]))
      have hbelow : a.told (i + 1) hi ran.trace ⊆ a.told i hi trace :=
        Arena.told_mono (Nat.le_succ i) (Nat.le_refl _) fun e he => by simp [htrace, he]
      have hcleared : {j | slot₂.label.kind.static = .decorator .reset false ∧
          ran.status = .failure ∧ TransGen ran.world.arena.Refers i j} ⊆ a.told i hi trace := by
        rintro j ⟨hreset, hfailed, hj⟩
        exact Arena.below_mem_told hspans horigin (hkind ▸ hreset) (by simp [htrace, hid, hfailed])
          (Arena.transGen_of_static ((hran.static.trans hbegun.static).trans hw) hj)
      have hdisjoint : ∀ j ∈ ({i} : Set Nat), j ∉ Set.Ico (i + 1) hi := by
        rintro _ rfl ⟨hle, -⟩
        omega
      refine ((hbegun.trans hran hdisjoint).trans_idle hended).mono ?_ ?_
      · exact Set.union_subset (Set.union_subset hhere (Set.union_subset hhere hbelow))
          (Set.union_subset hhere hcleared)
      · exact Set.union_subset (Set.singleton_subset_iff.mpr hself)
          (Set.Ico_subset_Ico_left (Nat.le_succ i))

/-- **What a poll keeps to**: the stretch of the node, and in it what the trace tells of. -/
theorem poll_framed (ha : a.Tiled) (hspans : a.Spans i hi) (hw : w.arena.static = a.static) :
    Arena.Framed (a.told i hi (poll a.length i w).trace) (Set.Ico i hi) w.arena
      (poll a.length i w).world.arena := by
  -- the references of the first arena hold throughout, so the induction is on positions alone
  induction hk : a.length - i using Nat.strongRecOn generalizing i hi w with
  | ind k ih =>
      rw [poll_eq_pollNode]
      refine pollNode_framed ha (fun c mid hmid w hw => ?_) hspans hw
      rw [pollBelow]
      split
      · next hforward =>
          have hlt := hforward.1
          have hlt' := hforward.2
          exact ih (a.length - c) (by omega) hmid hw rfl
      · exact .refl _

/-- The stretch of a position.  One that is not in the arena is a stretch of its own. -/
lemma Arena.Tiled.exists_spans (ha : a.Tiled) (i : Nat) :
    ∃ hi, a.Spans i hi ∧ (i < a.length → hi ≤ a.length) := by
  cases hslot : a[i]? with
  | none =>
      have hlen := List.getElem?_eq_none_iff.mp hslot
      refine ⟨i + 1, fun k => ⟨fun hk => ?_, fun hk => ?_⟩, fun hlt => by omega⟩
      · cases hk.cases_head with
        | inl heq => omega
        | inr hstep =>
            obtain ⟨c, ⟨slot, hsome, -⟩, -⟩ := hstep
            rw [hslot] at hsome
            cases hsome
      · obtain rfl : k = i := by omega
        exact .refl
  | some slot =>
      obtain ⟨hi, hle, hspans, -⟩ := ha i slot hslot
      exact ⟨hi, hspans, fun _ => hle⟩

/-- Every layout has such references. -/
lemma Arena.tiled_layout (b : Branch (Node L)) : Arena.Tiled (b.layout 0) := by
  intro i slot hslot
  rw [Branch.getElem?_layout, Nat.zero_add, Option.map_eq_some_iff] at hslot
  obtain ⟨s, hs, rfl⟩ := hslot
  have hholds := (holds_layout b).part hs
  rw [Nat.zero_add] at hholds
  exact ⟨i + s.size, hholds.le, spans_of_holds hholds, tiles_of_holds hholds⟩

/-- **Every tree has such references, whatever it has been through.** -/
theorem Tree.Fresh.tiled_performAll {t : Tree L} (h : t.Fresh) (calls : List (Call δ)) :
    (t.performAll calls).1.arena.Tiled := by
  obtain ⟨b, hb⟩ := h.pristine
  obtain ⟨c, hc, -⟩ := hb.toShows.performAll calls
  rw [hc.arena]
  exact Arena.tiled_layout c

/-- **The frame of a poll.**  In an arena with the references of a layout, the poll of the node at
any position changes nothing outside of the stretch of this node, and nothing static anywhere.  At
most one activation of every node begins.  What has been polled, or stands below a reset that has
failed, may change; all other slots stay as they are, with everything in them. -/
theorem poll_frame (ha : a.Tiled) (i : Nat) (scene : Scene δ) :
    ∃ hi, Arena.PollFrame i hi (poll a.length i ⟨a, scene⟩).trace a
      (poll a.length i ⟨a, scene⟩).world.arena := by
  obtain ⟨hi, hspans, hwithin⟩ := ha.exists_spans i
  have hframed := poll_framed (w := ⟨a, scene⟩) ha hspans rfl
  exact ⟨hi, hspans, hwithin, fun j hj => hframed.kept j fun htold => hj htold.1, hframed.static,
    hframed.grown, fun j hentered hcleared => hframed.kept j fun htold =>
      htold.2.elim hentered hcleared⟩

/-- A selector in mid-course polls a failing reset and the leaf behind it.  The first child of the
sequence below the reset is not polled again, but cleared; the last leaf is not reached. -/
theorem poll_frame_reset :
    let tree : Branch (Node Constant) := .node (.fresh ⟨0⟩ .root)
      [.node ⟨⟨1⟩, .composite .selector true 0, ⟨.running, true, 1⟩⟩
        [.node ⟨⟨2⟩, .decorator .reset false, ⟨.running, true, 1⟩⟩
          [.node ⟨⟨3⟩, .composite .sequence false 1, ⟨.running, true, 1⟩⟩
            [.node ⟨⟨4⟩, .leaf .succeed, ⟨.success, false, 1⟩⟩ [],
              .node (.fresh ⟨5⟩ (.leaf .fail)) []]],
          .node (.fresh ⟨6⟩ (.leaf .running)) [],
          .node ⟨⟨7⟩, .leaf .succeed, ⟨.failure, false, 3⟩⟩ []]]
    let a : Arena Constant := tree.layout 0
    let p := poll a.length 1 ⟨a, ⟨.empty, ()⟩⟩
    a.Tiled ∧ (∃ hi, Arena.PollFrame 1 hi p.trace a p.world.arena) ∧ p.status = .running ∧
      .enter ⟨4⟩ ∉ p.trace ∧ .leave ⟨2⟩ .failure ∈ p.trace ∧
      (p.world.arena.map fun slot => slot.label.state) =
        [.fresh, ⟨.running, true, 1⟩, ⟨.failure, false, 1⟩, ⟨.running, false, 1⟩,
          ⟨.running, false, 1⟩, ⟨.running, false, 1⟩, ⟨.running, true, 1⟩,
          ⟨.failure, false, 3⟩] := by
  intro tree a p
  have htiled : a.Tiled := Arena.tiled_layout tree
  exact ⟨htiled, poll_frame htiled 1 ⟨.empty, ()⟩, by decide +kernel, by decide +kernel,
    by decide +kernel, by decide +kernel⟩

end Polls

end BehaviorTree
