import BehaviorTree.Proofs.Lockstep
import BehaviorTree.Proofs.Overflow
import Mathlib.Logic.IsEmpty.Basic
import Mathlib.Logic.Relation
import Mathlib.Tactic.Choose

/-!
# Brains that do not meet in their driver

Brains that are ticked together share one thing, the context of the driver, and a tick hands it from
one brain to the next.  It reaches nothing but the hooks of leaves.  So if these neither read nor
change it, the brains do not hear of each other: in whatever order they stand, each of them comes to
what it comes to alone.

* `Behavior.Aloof` — the hooks of the leaf neither read nor change the driver's context, now and
  whatever they make of the leaf.
* **`poll_drivenBy`** — in an arena with such leaves a poll does the same under every driver, and
  leaves the context as it is.
* `tickAll` — ticks of several brains, one after the other.
* **`tickAll_independent`** — ticking brains together is ticking each of them alone.
-/

namespace BehaviorTree

open Relation Slot

variable {L δ : Type}

/-! ## The specification -/

namespace Behavior

variable [Behavior L δ]

/-- No hook of the leaf reads or changes the driver's context. -/
structure IgnoresDriver (l : L) : Prop where
  start : ∀ (id : NodeId) (first : Bool) (board : Blackboard), ∃ l' board', ∀ driver,
    onStart id first l ⟨board, driver⟩ = (l', ⟨board', driver⟩)
  update : ∀ (id : NodeId) (board : Blackboard), ∃ status l' board', ∀ driver,
    onUpdate id l ⟨board, driver⟩ = (status, l', ⟨board', driver⟩)
  stop : ∀ (id : NodeId) (board : Blackboard), ∃ l' board', ∀ driver,
    onStop id l ⟨board, driver⟩ = (l', ⟨board', driver⟩)

/-- No hook reads or changes the driver's context, as the leaf is and as its hooks may leave it
behind. -/
def Aloof (l : L) : Prop := ∀ l', ReflTransGen Hooked l l' → IgnoresDriver l'

end Behavior

section Spec

variable [Behavior L δ]

/-- If the node is a leaf, its hooks neither read nor change the driver's context. -/
def Node.Aloof (n : Node L) : Prop := ∀ l, n.kind.leaf? = some l → Behavior.Aloof l

def Arena.Aloof (a : Arena L) : Prop := ∀ slot ∈ a, slot.label.Aloof

/-- No leaf of the instance, if there is one, has to do with the driver's context. -/
def Brain.Aloof (b : Brain L) : Prop := ∀ t, b.bound = some t → t.arena.Aloof

/-- Ticks of several brains, one after the other.  An error ends them. -/
def tickAll : List UInt64 → List (Brain L) → δ → TickedAll L δ
  | [], brains, driver => ⟨brains, driver, [], none⟩
  | t :: ts, brains, driver =>
    let now := tickBrains t brains driver
    match now.error with
    | some _ => now
    | none =>
      let later := tickAll ts now.brains now.driver
      { later with trace := now.trace ++ later.trace }

/-- Ticks make one brain of another, whatever the driver's context, which stays as it is. -/
def Brain.Becomes (ticks : List UInt64) (b b' : Brain L) : Prop :=
  ∀ driver : δ, ∃ u, b.obeyAll driver (ticks.map .tick) = .ok u ∧ u.brain = b' ∧ u.driver = driver

/-- Nothing flows between the brains when they are ticked together. -/
structure Independent (ticks : List UInt64) (brains : List (Brain L))
    (alone : Brain L → Brain L) : Prop where
  /-- What becomes of each brain when it is ticked alone. -/
  single : ∀ b ∈ brains, b.Becomes ticks (alone b)
  /-- The same becomes of each when all are ticked, in whatever order they stand, and the driver's
  context stays as it is. -/
  together : ∀ brains', brains'.Perm brains → ∀ driver : δ,
    (tickAll ticks brains' driver).error = none ∧
      (tickAll ticks brains' driver).brains = brains'.map alone ∧
      (tickAll ticks brains' driver).driver = driver

end Spec

/-! ## Other drivers -/

/-- The scene under another driver. -/
def Scene.drivenBy (scene : Scene δ) (driver : δ) : Scene δ := { scene with driver }

/-- The world under another driver. -/
def World.drivenBy (w : World L δ) (driver : δ) : World L δ :=
  { w with scene := w.scene.drivenBy driver }

/-- The outcome with the context of another driver. -/
def Polled.drivenBy (p : Polled L δ) (driver : δ) : Polled L δ :=
  { p with world := p.world.drivenBy driver }

lemma Polled.passed_drivenBy (p : Polled L δ) (driver : δ) (i cursor : Nat) :
    (p.drivenBy driver).passed i cursor = (p.passed i cursor).drivenBy driver := rfl

/-! ## One node -/

section Nodes

variable [Behavior L δ]

lemma Behavior.Aloof.ignores {l : L} (h : Behavior.Aloof l) : Behavior.IgnoresDriver l := h l .refl

/-- Whatever happens to a leaf that has nothing to do with the driver, it remains so. -/
lemma Behavior.Aloof.hooked {l l' : L} (h : Behavior.Aloof l) (hl : Behavior.Hooked l l') :
    Behavior.Aloof l' := fun l'' hl'' => h l'' (.head hl hl'')

namespace Node

lemma lockstep_aloof : Lockstep (δ := δ) (fun e => e) fun n n' : Node L => n' = n ∧ n.Aloof :=
  (lasting_of_hooked (Q := fun _ => Behavior.Aloof) fun _ _ _ hl h => h.hooked hl).lockstep

variable {n : Node L}

/-- An activation begins in the same way under every driver. -/
lemma Aloof.activate (h : n.Aloof) (scene : Scene δ) (driver : δ) :
    n.activate (scene.drivenBy driver) =
      ((n.activate scene).1, (n.activate scene).2.1.drivenBy driver, (n.activate scene).2.2) := by
  obtain ⟨id, kind, state⟩ := n
  cases kind with
  | leaf l =>
      obtain ⟨l', board', hstart⟩ :=
        (h l rfl).ignores.start id (state.activations == 0) scene.board
      obtain ⟨board, driver₀⟩ := scene
      simp only [Node.activate, Scene.drivenBy, hstart]
  | _ => rfl

/-- A poll ends in the same way under every driver. -/
lemma Aloof.conclude (h : n.Aloof) (status : Status) (scene : Scene δ) (driver : δ) :
    n.conclude status (scene.drivenBy driver) =
      ((n.conclude status scene).1, (n.conclude status scene).2.1.drivenBy driver,
        (n.conclude status scene).2.2) := by
  obtain ⟨id, kind, state⟩ := n
  rw [Node.conclude, Node.conclude]
  split
  · cases kind with
    | leaf l =>
        obtain ⟨l', board', hstop⟩ := (h l rfl).ignores.stop id scene.board
        obtain ⟨board, driver₀⟩ := scene
        simp only [Scene.drivenBy, hstop]
    | _ => rfl
  · rfl

end Node

end Nodes

/-! ## Polls -/

section Polls

variable [Behavior L δ]

/-- An arena whose leaves have nothing to do with the driver, related to itself: what `Lockstep`
keeps. -/
abbrev World.Aloof (w : World L δ) : Prop := w.Related (fun n n' => n' = n ∧ n.Aloof) w

lemma World.aloof_iff {w : World L δ} : w.Aloof ↔ w.arena.Aloof := by
  constructor
  · intro h slot hslot
    obtain ⟨i, hi⟩ := List.mem_iff_getElem?.mp hslot
    exact (h.arena.nodes i slot slot hi hi).2
  · exact fun h => ⟨Arena.related_self fun slot hslot => ⟨rfl, h slot hslot⟩, rfl⟩

/-- The way to poll keeps arenas aloof. -/
abbrev Poller.Keeps (child : Poller L δ) : Prop :=
  Lockstep.Polls (fun e => e) (fun n n' : Node L => n' = n ∧ n.Aloof) child child

/-- The way to poll does the same under another driver. -/
def Poller.Ignores (driver : δ) (child : Poller L δ) : Prop :=
  ∀ c w, w.Aloof → child c (w.drivenBy driver) = (child c w).drivenBy driver

variable {child : Poller L δ} {driver : δ} {w : World L δ}

lemma pollRoot_drivenBy (hchild : child.Ignores driver) (children : List Nat) (hw : w.Aloof) :
    pollRoot child children (w.drivenBy driver) = (pollRoot child children w).drivenBy driver := by
  cases children with
  | nil => rfl
  | cons c cs => exact hchild c w hw

/-- Polling the children of a composite from the cursor on. -/
lemma pollFrom_drivenBy (hkeeps : child.Keeps) (hchild : child.Ignores driver) (i : Nat)
    (id : NodeId) (kind : CompositeKind) (cascade : Bool) (cursor : Nat) (remaining : List Nat)
    (hw : w.Aloof) :
    pollFrom child i id kind cascade cursor remaining (w.drivenBy driver) =
      (pollFrom child i id kind cascade cursor remaining w).drivenBy driver := by
  induction remaining generalizing cursor w with
  | nil => rfl
  | cons c rest ih =>
      have hp := hchild c w hw
      have hpassed := Node.lockstep_aloof.passed (hkeeps c w w hw) i cursor
      by_cases hs : (child c w).status = kind.advancesOn
      · cases rest with
        | nil =>
            rw [pollFrom_ends hp hs, pollFrom_ends rfl hs]
            rfl
        | cons d rest =>
            cases hc : cascade with
            | true =>
                subst hc
                rw [pollFrom_cascades hp hs rfl, pollFrom_cascades rfl hs rfl,
                  Polled.passed_drivenBy, ih (cursor + 1) hpassed]
                rfl
            | false =>
                rw [pollFrom_pauses hp hs rfl, pollFrom_pauses rfl hs rfl]
                rfl
      · rw [pollFrom_stops hp hs, pollFrom_stops rfl hs]

/-- A gate is evaluated on the blackboard alone. -/
lemma pollDecorated_drivenBy (hchild : child.Ignores driver) (rule : DecoratorRule) (gate : Bool)
    (children : List Nat) (hw : w.Aloof) :
    pollDecorated child rule gate children (w.drivenBy driver) =
      (pollDecorated child rule gate children w).drivenBy driver := by
  cases ha : Node.admits rule gate w.scene.board with
  | true =>
      rw [pollDecorated_admitted (w := w.drivenBy driver) ha, pollDecorated_admitted ha,
        pollRoot_drivenBy hchild children hw]
      rfl
  | false =>
      rw [pollDecorated_refused (w := w.drivenBy driver) ha, pollDecorated_refused ha]
      rfl

lemma activate_drivenBy {n : Node L} (hn : n.Aloof) (w : World L δ) (i : Nat) (driver : δ) :
    (w.drivenBy driver).activate i n =
      ((w.activate i n).1.drivenBy driver, (w.activate i n).2) := by
  rw [World.activate, World.activate]
  split
  · rfl
  · simp only [World.drivenBy, hn.activate]

/-- Running a node that has an activation under way. -/
lemma run_drivenBy (hkeeps : child.Keeps) (hchild : child.Ignores driver) (i : Nat)
    (hw : w.Aloof) :
    run child i (w.drivenBy driver) = (run child i w).drivenBy driver := by
  rw [run, run, show (w.drivenBy driver).arena = w.arena from rfl]
  cases hslot : w.arena[i]? with
  | none => rfl
  | some slot =>
      have hn := World.aloof_iff.mp hw slot (List.mem_of_getElem? hslot)
      dsimp only
      cases hkind : slot.label.kind with
      | root => exact pollRoot_drivenBy hchild _ hw
      | composite kind cascade cursor =>
          exact pollFrom_drivenBy hkeeps hchild i _ kind cascade cursor _ hw
      | decorator rule gate => exact pollDecorated_drivenBy hchild rule gate _ hw
      | leaf l =>
          obtain ⟨status, l', board', hupdate⟩ :=
            (hn l (by rw [hkind]; rfl)).ignores.update slot.label.id w.scene.board
          obtain ⟨arena, board, driver₀⟩ := w
          simp only [World.drivenBy, Scene.drivenBy, Polled.drivenBy, hupdate]

lemma conclude_drivenBy (hw : w.Aloof) (i : Nat) (status : Status) :
    (w.drivenBy driver).conclude i status =
      ((w.conclude i status).1.drivenBy driver, (w.conclude i status).2) := by
  cases hslot : w.arena[i]? with
  | none => simp only [World.conclude, World.drivenBy, hslot]
  | some slot =>
      have hn := World.aloof_iff.mp hw slot (List.mem_of_getElem? hslot)
      rw [World.conclude_of_slot (w := w.drivenBy driver) hslot, World.conclude_of_slot hslot]
      simp only [World.drivenBy, hn.conclude]

/-- Polling a node, given that polling its children does the same under another driver. -/
lemma pollNode_drivenBy (hkeeps : child.Keeps) (hchild : child.Ignores driver) (i : Nat)
    (hw : w.Aloof) :
    pollNode child i (w.drivenBy driver) = (pollNode child i w).drivenBy driver := by
  rw [pollNode, pollNode, show (w.drivenBy driver).arena = w.arena from rfl]
  cases hslot : w.arena[i]? with
  | none => rfl
  | some slot =>
      have hn := World.aloof_iff.mp hw slot (List.mem_of_getElem? hslot)
      obtain ⟨hbegun, -, m, hm, hstarted⟩ :=
        Node.lockstep_aloof.begin hw hslot ⟨rfl, hn⟩
      have hran := Node.lockstep_aloof.run hkeeps hbegun hm hstarted
      simp only [activate_drivenBy hn, run_drivenBy hkeeps hchild i hbegun]
      simp only [Polled.drivenBy, conclude_drivenBy hran.world]

/-- **A poll does the same under every driver**, if no leaf has to do with the driver, and it leaves
the driver's context as it is. -/
theorem poll_drivenBy (n i : Nat) (hw : w.Aloof) (driver : δ) :
    poll n i (w.drivenBy driver) = (poll n i w).drivenBy driver := by
  -- the induction is on how much of the arena lies ahead, as in the recursion of the poll
  induction hk : n - i using Nat.strongRecOn generalizing i w with
  | ind k ih =>
      have hkeeps : Poller.Keeps (pollBelow (L := L) n i) := by
        intro c w w' hrel
        rw [pollBelow, pollBelow]
        split
        · exact Node.lockstep_aloof.poll n c hrel
        · exact ⟨rfl, hrel, rfl⟩
      have hchild : Poller.Ignores driver (pollBelow (L := L) n i) := by
        intro c w hw
        rw [pollBelow, pollBelow]
        by_cases hc : Forward n i c
        · have hlt := hc.1
          have hlt' := hc.2
          rw [dif_pos hc, dif_pos hc]
          exact ih (n - c) (by omega) c hw rfl
        · rw [dif_neg hc, dif_neg hc]
          rfl
      rw [poll_eq_pollNode, poll_eq_pollNode, pollNode_drivenBy hkeeps hchild i hw]

end Polls

/-! ## One brain -/

section Brains

variable [Behavior L δ]

/-- An update of a started tree comes to the same under every driver. -/
lemma Tree.exists_update_aloof {t : Tree L} (hstarted : t.isStarted = true) (h : t.arena.Aloof)
    (driver₀ : δ) : ∃ status u trace, u.isStarted = true ∧ u.arena.Aloof ∧
      ∀ driver, t.update driver = .ok ⟨status, u, driver, trace⟩ := by
  obtain ⟨board, hboard⟩ := Option.isSome_iff_exists.mp hstarted
  cases hstate : t.state.isTerminal with
  | true => exact ⟨t.state, t, [], hstarted, h, Tree.update_of_terminal hboard hstate⟩
  | false =>
      have hw : World.Aloof ⟨t.arena, ⟨board, driver₀⟩⟩ := World.aloof_iff.mpr h
      have hkept := (Node.lockstep_aloof.poll t.arena.length 0 hw).world
      -- what the poll comes to under one driver tells what it comes to under every other
      set p := poll t.arena.length 0 ⟨t.arena, ⟨board, driver₀⟩⟩
      refine ⟨p.status, ⟨p.world.arena, some p.world.scene.board, p.status⟩, p.trace, rfl,
        World.aloof_iff.mp hkept, fun driver => ?_⟩
      have hpoll : poll t.arena.length 0 ⟨t.arena, ⟨board, driver⟩⟩ = p.drivenBy driver :=
        poll_drivenBy t.arena.length 0 hw driver
      simp only [Tree.update, hboard, hstate, Bool.false_eq_true, if_false, hpoll]
      rfl

namespace Brain

/-- The brain can be ticked on these ticks, and its leaves have nothing to do with the driver. -/
structure Bears (ticks : List UInt64) (b : Brain L) : Prop where
  ready : b.Ready
  aloof : b.Aloof
  fits : ∀ t ∈ ticks, b.cadence.Fits t

/-- One tick makes one brain of another, whatever the driver's context, which stays as it is. -/
def Moves (t : UInt64) (b b' : Brain L) : Prop :=
  ∀ driver : δ, ∃ now, b.tick t driver = .ok now ∧ now.brain = b' ∧ now.driver = driver

variable {b b' c : Brain L} {t : UInt64} {ticks : List UInt64}

/-- The first tick, after which the brain bears the others. -/
lemma Bears.exists_moves (h : b.Bears (t :: ticks)) (driver₀ : δ) :
    ∃ b', b.Moves t b' ∧ b'.Bears ticks := by
  obtain ⟨hfits, hlater⟩ := List.forall_mem_cons.mp h.fits
  have hrests : (∀ driver : δ, b.tick t driver = .ok (b.resting driver)) →
      ∃ b', b.Moves t b' ∧ b'.Bears ticks := fun hrest =>
    ⟨b, fun driver => ⟨_, hrest driver, rfl, rfl⟩, h.ready, h.aloof, hlater⟩
  cases hbound : b.bound with
  | none => exact hrests (tick_unbound hfits hbound)
  | some tree =>
      by_cases hpolls : b.cadence.Thinks t ∧ tree.state.isRunning = true
      · obtain ⟨status, u, trace, hstill, haloof, hupdate⟩ :=
          Tree.exists_update_aloof (h.ready tree hbound) (h.aloof tree hbound) driver₀
        refine ⟨{ b with bound := some u }, fun driver => ?_, ?_, ?_, hlater⟩
        · refine ⟨⟨some status, { b with bound := some u }, driver, trace⟩, ?_, rfl, rfl⟩
          rw [tick_bound hfits hbound driver, if_pos hpolls, hupdate driver]
        · rintro _ ⟨⟩
          exact hstill
        · rintro _ ⟨⟩
          exact haloof
      · refine hrests fun driver => ?_
        rw [tick_bound hfits hbound driver, if_neg hpolls]

/-- One more tick in front. -/
lemma Moves.becomes (hnow : b.Moves t b') (hlater : b'.Becomes ticks c) :
    b.Becomes (t :: ticks) c := by
  intro driver
  obtain ⟨now, hticked, rfl, rfl⟩ := hnow driver
  obtain ⟨u, hu, hc, hdriver⟩ := hlater now.driver
  exact ⟨_, obeyAll_cons (o := .tick t) hticked hu, hc, hdriver⟩

lemma becomes_nil (b : Brain L) : b.Becomes [] b := fun driver => ⟨b.resting driver, rfl, rfl, rfl⟩

/-- What becomes of a brain when it is ticked alone. -/
lemma Bears.exists_becomes (h : b.Bears ticks) (driver₀ : δ) : ∃ c, b.Becomes ticks c := by
  induction ticks generalizing b with
  | nil => exact ⟨b, b.becomes_nil⟩
  | cons t ticks ih =>
      obtain ⟨b', hmoves, hbears⟩ := h.exists_moves driver₀
      obtain ⟨c, hc⟩ := ih hbears
      exact ⟨c, hmoves.becomes hc⟩

lemma Becomes.unique (h : b.Becomes ticks b') (h' : b.Becomes ticks c) (driver₀ : δ) : b' = c := by
  obtain ⟨u, hu, rfl, -⟩ := h driver₀
  obtain ⟨v, hv, rfl, -⟩ := h' driver₀
  rw [hu, Except.ok.injEq] at hv
  rw [hv]

/-- Binding a template whose leaves have nothing to do with the driver. -/
lemma aloof_bind {t : Branch (Node L)} (ht : b.template.Shows t) (h : ∀ n ∈ t.labels, n.Aloof) :
    b.bind.Aloof := by
  rintro _ ⟨⟩ slot hslot l hl
  obtain ⟨i, hi⟩ := List.mem_iff_getElem?.mp hslot
  obtain ⟨n, hn, hlabel⟩ := Branch.mem_labels_map.mp (ht.instantiate.toShows.label_mem hi)
  rw [← hlabel, Node.kind_pristine, NodeKind.leaf?_rewind] at hl
  exact h n hn l hl

end Brain

/-! ## Several brains -/

variable {t : UInt64} {ticks : List UInt64} {brains : List (Brain L)}

/-- Every brain does in a tick of all what it does in a tick of its own. -/
lemma tickBrains_eq_map {next : Brain L → Brain L} (h : ∀ b ∈ brains, b.Moves t (next b))
    (driver : δ) :
    (tickBrains t brains driver).error = none ∧
      (tickBrains t brains driver).brains = brains.map next ∧
      (tickBrains t brains driver).driver = driver := by
  induction brains with
  | nil => exact ⟨rfl, rfl, rfl⟩
  | cons b bs ih =>
      rw [List.forall_mem_cons] at h
      obtain ⟨now, hnow, hbrain, hdriver⟩ := h.1 driver
      obtain ⟨herror, hbrains, hsame⟩ := ih h.2
      rw [tickBrains_cons hnow, hdriver]
      exact ⟨herror, by rw [hbrain, hbrains, List.map_cons], hsame⟩

lemma tickAll_cons {driver : δ} (h : (tickBrains t brains driver).error = none) :
    tickAll (t :: ticks) brains driver =
      { tickAll ticks (tickBrains t brains driver).brains (tickBrains t brains driver).driver with
        trace := (tickBrains t brains driver).trace ++ (tickAll ticks
          (tickBrains t brains driver).brains (tickBrains t brains driver).driver).trace } := by
  simp only [tickAll, h]

/-- **Every brain does in ticks of all what it does in ticks of its own.** -/
theorem tickAll_eq_map (h : ∀ b ∈ brains, b.Bears ticks) {alone : Brain L → Brain L}
    (halone : ∀ b ∈ brains, b.Becomes ticks (alone b)) (driver : δ) :
    (tickAll ticks brains driver).error = none ∧
      (tickAll ticks brains driver).brains = brains.map alone ∧
      (tickAll ticks brains driver).driver = driver := by
  induction ticks generalizing brains alone with
  | nil =>
      refine ⟨rfl, ?_, rfl⟩
      rw [List.map_congr_left fun b hb => (halone b hb).unique b.becomes_nil driver, List.map_id']
      rfl
  | cons t ticks ih =>
      -- the brains after the first tick bear the others, and each then comes to the same as before
      choose! next hmoves hbears using fun b hb => (h b hb).exists_moves driver
      have hmid : ∀ b ∈ brains.map next, b.Bears ticks := List.forall_mem_map.mpr hbears
      choose! later hlater using fun b hb => (hmid b hb).exists_becomes driver
      obtain ⟨hnone, hbrains, hdriver⟩ := tickBrains_eq_map hmoves driver
      have hrest := ih hmid hlater
      rw [tickAll_cons hnone, hbrains, hdriver]
      refine ⟨hrest.1, hrest.2.1.trans ?_, hrest.2.2⟩
      rw [List.map_map]
      exact List.map_congr_left fun b hb =>
        ((hmoves b hb).becomes (hlater _ (List.mem_map_of_mem hb))).unique (halone b hb) driver

/-- **Brains whose leaves have nothing to do with the driver are independent.**  Ticked together, in
whatever order, each of them comes to what it comes to alone, and the driver's context stays as it
is.  It takes that the instances have been started, which they are from being bound on, and that
tick and offset always add up to 64-bit numbers. -/
theorem tickAll_independent (hready : ∀ b ∈ brains, b.Ready) (haloof : ∀ b ∈ brains, b.Aloof)
    (hfits : ∀ b ∈ brains, ∀ t ∈ ticks, b.cadence.Fits t) :
    ∃ alone : Brain L → Brain L, Independent ticks brains alone := by
  have hbears : ∀ b ∈ brains, b.Bears ticks := fun b hb =>
    ⟨hready b hb, haloof b hb, hfits b hb⟩
  rcases isEmpty_or_nonempty δ with hempty | ⟨⟨driver₀⟩⟩
  · exact ⟨fun b => b, fun _ _ driver => isEmptyElim driver, fun _ _ driver => isEmptyElim driver⟩
  · choose! alone halone using fun b hb => (hbears b hb).exists_becomes driver₀
    refine ⟨alone, halone, fun brains' hperm driver => ?_⟩
    exact tickAll_eq_map (fun b hb => hbears b (hperm.mem_iff.mp hb))
      (fun b hb => halone b (hperm.mem_iff.mp hb)) driver

/-- An action whose step has nothing to do with the driver. -/
lemma Action.aloof {σ : Type} {l : Action σ δ}
    (h : ∀ id memory board, ∃ status memory' board', ∀ driver,
      l.run id memory ⟨board, driver⟩ = (status, memory', ⟨board', driver⟩)) :
    Behavior.Aloof l := by
  intro l' hl'
  have hrun : l'.run = l.run := by
    induction hl' with
    | refl => rfl
    | tail _ hhooked ih => cases hhooked <;> exact ih
  refine ⟨fun _ _ board => ⟨l', board, fun _ => rfl⟩, fun id board => ?_,
    fun _ board => ⟨l', board, fun _ => rfl⟩⟩
  obtain ⟨status, memory, board', hstep⟩ := h id l'.memory board
  refine ⟨status, { l' with memory }, board', fun driver => ?_⟩
  simp only [Behavior.onUpdate, hrun, hstep]

/-- Two instances of a template that counts down and notes it on its blackboard, and between them a
brain that has none.  The agents think on different ticks, and after five of them one instance has
come to its end and the other has not, in either order. -/
theorem tickAll_independent_countdown :
    let countdown : Nat → Action Nat Nat := fun n => ⟨"countdown", n, fun _ m scene =>
      (if m = 0 then .success else .running, m - 1,
        { scene with board := scene.board.set "left" (.int (.ofNat m)) })⟩
    let tree : Branch (Node (Action Nat Nat)) := .node (.fresh ⟨0⟩ .root)
      [.node (.fresh ⟨1⟩ (.composite .sequence true 0))
        [.node (.fresh ⟨2⟩ (.leaf (countdown 2))) [], .node (.fresh ⟨3⟩ (.leaf (countdown 1))) []]]
    let brains : List (Brain (Action Nat Nat)) := [(Brain.new (.ofBranch tree) ⟨1, 0⟩).bind,
      .new (.ofBranch tree) ⟨2, 1⟩, (Brain.new (.ofBranch tree) ⟨3, 2⟩).bind]
    let ticks : List UInt64 := [0, 1, 2, 3, 4]
    (∀ b ∈ brains, b.Ready) ∧ (∀ b ∈ brains, b.Aloof) ∧
      (∀ b ∈ brains, ∀ t ∈ ticks, b.cadence.Fits t) ∧
      (∃ alone, Independent ticks brains alone) ∧
      (tickAll ticks brains 7).brains.map Brain.state = [some .success, none, some .running] ∧
      (tickAll ticks brains.reverse 7).brains.map Brain.state =
        [some .running, none, some .success] := by
  intro countdown tree brains ticks
  have hshows : (Tree.ofBranch tree).Shows tree := ⟨rfl, by decide⟩
  have hleaf : ∀ id n, Node.Aloof (.fresh id (.leaf (countdown n))) := by
    rintro id n _ ⟨⟩
    exact Action.aloof fun _ m board =>
      ⟨_, m - 1, board.set "left" (.int (.ofNat m)), fun _ => rfl⟩
  have hnodes : ∀ n ∈ tree.labels, n.Aloof := by
    have hroot : Node.Aloof (L := Action Nat Nat) (.fresh ⟨0⟩ .root) := fun _ hl => by cases hl
    have hcomposite : Node.Aloof (L := Action Nat Nat)
        (.fresh ⟨1⟩ (.composite .sequence true 0)) := fun _ hl => by cases hl
    have hlabels : tree.labels = [.fresh ⟨0⟩ .root, .fresh ⟨1⟩ (.composite .sequence true 0),
      .fresh ⟨2⟩ (.leaf (countdown 2)), .fresh ⟨3⟩ (.leaf (countdown 1))] := rfl
    simp [hlabels, hroot, hcomposite, hleaf]
  have hready : ∀ b ∈ brains, b.Ready := by
    have hunbound : (Brain.new (.ofBranch tree) ⟨2, 1⟩).Ready := fun t ht => by cases ht
    simp [brains, Brain.ready_bind, hunbound]
  have haloof : ∀ b ∈ brains, b.Aloof := by
    have hbound : ∀ c, (Brain.new (.ofBranch tree) c).bind.Aloof := fun c =>
      Brain.aloof_bind hshows hnodes
    have hunbound : (Brain.new (.ofBranch tree) ⟨2, 1⟩).Aloof := fun t ht => by cases ht
    simp [brains, hbound, hunbound]
  have hfits : ∀ b ∈ brains, ∀ t ∈ ticks, b.cadence.Fits t := by
    have hticks : ∀ t ∈ ticks, t.toNat + UInt32.size ≤ UInt64.size := by
      simp [ticks, UInt32.size, UInt64.size]
    exact fun b _ t ht => (Cadence.forall_fits_iff t).mpr (hticks t ht) b.cadence
  exact ⟨hready, haloof, hfits, tickAll_independent hready haloof hfits, by decide +kernel,
    by decide +kernel⟩

end Brains

end BehaviorTree
