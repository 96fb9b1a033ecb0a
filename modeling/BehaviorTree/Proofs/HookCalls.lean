import BehaviorTree.Proofs.Brains
import BehaviorTree.Proofs.Lockstep

/-!
# Hook events are the calls of hooks

The hook events of a trace are there because the poll puts them there.  Leaves know at first hand
when their hooks are called: a **scribe** does what its leaf does, and each of its hooks writes its
own call into a log that the driver carries.  Nothing else writes there, so the log is what was
really called, and it comes out as what the trace says.

* `HookLog`, `Scribe` — the log, and a leaf that keeps it, whatever the leaf.
* `World.scribed`, `Tree.scribed` — the same with scribes in place of all leaves.
* **`poll_scribed`** — a poll in an arena of scribes is the poll in the arena, and the scribes add
  to the log the hook calls of its trace, each of them once and in order.
* **`Tree.carryOutAll_scribed`** and **`Tree.replies_scribed`** say the same of runs of a tree, and
  **`tickBrains_scribed`** of brains that are ticked together and share the log.
-/

namespace BehaviorTree

open Slot

variable {L δ : Type}

/-! ## Scribes -/

/-- Calls of hooks in order, each with the identity of the node. -/
abbrev HookLog := List (NodeId × HookCall)

/-- A leaf whose hooks write down that they are called. -/
structure Scribe (L : Type) where
  leaf : L

/-- The scene with a log beside the context of the driver. -/
def Scene.logging (scene : Scene δ) (log : HookLog) : Scene (δ × HookLog) :=
  ⟨scene.board, scene.driver, log⟩

instance [Behavior L δ] : Behavior (Scribe L) (δ × HookLog) where
  name s := Behavior.name s.leaf
  onStart id first s scene :=
    let (leaf, after) := Behavior.onStart id first s.leaf ⟨scene.board, scene.driver.1⟩
    (⟨leaf⟩, after.logging (scene.driver.2 ++ [(id, .start first)]))
  onUpdate id s scene :=
    let (status, leaf, after) := Behavior.onUpdate id s.leaf ⟨scene.board, scene.driver.1⟩
    (status, ⟨leaf⟩, after.logging (scene.driver.2 ++ [(id, .update status)]))
  onStop id s scene :=
    let (leaf, after) := Behavior.onStop id s.leaf ⟨scene.board, scene.driver.1⟩
    (⟨leaf⟩, after.logging (scene.driver.2 ++ [(id, .stop)]))

/-- The kind with a scribe in place of a leaf. -/
def NodeKind.scribed : NodeKind L → NodeKind (Scribe L)
  | root => .root
  | composite kind cascade cursor => .composite kind cascade cursor
  | decorator rule gate => .decorator rule gate
  | leaf l => .leaf ⟨l⟩

def Node.scribed (n : Node L) : Node (Scribe L) := ⟨n.id, n.kind.scribed, n.state⟩

def Arena.scribed (a : Arena L) : Arena (Scribe L) :=
  a.map fun slot => ⟨slot.label.scribed, slot.children⟩

/-- The world with scribes in place of leaves, and what they have written so far. -/
def World.scribed (w : World L δ) (log : HookLog) : World (Scribe L) (δ × HookLog) :=
  ⟨w.arena.scribed, w.scene.logging log⟩

/-- The outcome of the poll if scribes in place of leaves have written its hook calls behind what
was in the log. -/
def Polled.scribed (p : Polled L δ) (log : HookLog) : Polled (Scribe L) (δ × HookLog) :=
  ⟨p.status, p.world.scribed (log ++ p.trace.hookCalls), p.trace⟩

/-! ## One node -/

section Nodes

variable (n : Node L)

lemma NodeKind.scribed_withCursor (kind : NodeKind L) (cursor : Nat) :
    (kind.withCursor cursor).scribed = kind.scribed.withCursor cursor := by
  cases kind <;> rfl

lemma Node.scribed_clear : n.clear.scribed = n.scribed.clear := rfl

lemma Node.scribed_rearm : n.rearm.scribed = n.scribed.rearm := by
  obtain ⟨id, kind, state⟩ := n
  cases kind <;> rfl

lemma Node.clearsOn_scribed (status : Status) :
    n.scribed.clearsOn status = n.clearsOn status := by
  obtain ⟨id, kind, state⟩ := n
  cases kind <;> rfl

variable [Behavior L δ] (scene : Scene δ) (log : HookLog)

/-- Of an activation a scribe writes down the hook at its beginning. -/
lemma Node.activate_scribed :
    n.scribed.activate (scene.logging log) =
      ((n.activate scene).1.scribed,
        (n.activate scene).2.1.logging (log ++ (n.activate scene).2.2.hookCalls),
        (n.activate scene).2.2) := by
  obtain ⟨id, kind, state⟩ := n
  have hquiet : log ++ Trace.hookCalls [.start id] = log := List.append_nil log
  cases kind with
  -- the hook writes the call that the trace records
  | leaf l => rfl
  | _ => simp only [Node.activate, Node.scribed, NodeKind.scribed, Scene.logging, hquiet]

/-- Of the end of a poll a scribe writes down the hook at the end of an activation. -/
lemma Node.conclude_scribed (status : Status) :
    n.scribed.conclude status (scene.logging log) =
      ((n.conclude status scene).1.scribed,
        (n.conclude status scene).2.1.logging (log ++ (n.conclude status scene).2.2.hookCalls),
        (n.conclude status scene).2.2) := by
  obtain ⟨id, kind, state⟩ := n
  rw [Node.conclude, Node.conclude]
  split
  · cases kind with
    | leaf l => rfl
    | _ => simp only [Node.scribed, NodeKind.scribed, Trace.hookCalls_nil, List.append_nil]
  · simp only [Node.scribed, Trace.hookCalls_nil, List.append_nil]

end Nodes

/-! ## Arenas -/

namespace Arena

variable (a : Arena L) (i : Nat)

lemma length_scribed : a.scribed.length = a.length := List.length_map _

lemma getElem?_scribed :
    a.scribed[i]? = a[i]?.map fun slot => ⟨slot.label.scribed, slot.children⟩ :=
  List.getElem?_map

/-- Changing a node and putting in scribes, in either order. -/
lemma scribed_relabel {f : Node L → Node L} {g : Node (Scribe L) → Node (Scribe L)}
    (h : ∀ n, (f n).scribed = g n.scribed) : (a.relabel i f).scribed = a.scribed.relabel i g := by
  refine List.ext_getElem? fun k => ?_
  rw [getElem?_scribed, getElem?_relabel, getElem?_relabel, getElem?_scribed]
  cases a[k]? with
  | none => rfl
  | some slot => by_cases hk : i = k <;> simp [hk, h]

lemma scribed_put (n : Node L) :
    (a.relabel i fun _ => n).scribed = a.scribed.relabel i fun _ => n.scribed :=
  scribed_relabel a i fun _ => rfl

lemma scribed_clearBelow : (a.clearBelow i).scribed = a.scribed.clearBelow i := by
  have hchildren : a.scribed.map Slot.children = a.map Slot.children := by
    rw [scribed, List.map_map]
    rfl
  rw [clearBelow, clearBelow, below, below, walk_congr hchildren]
  clear hchildren
  induction (walk a i 0).tail.map Prod.fst generalizing a with
  | nil => rfl
  | cons k ks ih =>
      rw [List.foldl_cons, List.foldl_cons, ih, scribed_relabel _ _ Node.scribed_clear]

end Arena

/-! ## Polls -/

section Polls

variable {w : World L δ}

/-- Scribes write nothing in the course of a poll that calls no hook. -/
lemma Polled.scribed_quiet {status : Status} {trace : Trace} (h : trace.hookCalls = [])
    (log : HookLog) :
    ⟨status, w.scribed log, trace⟩ = (⟨status, w, trace⟩ : Polled L δ).scribed log := by
  rw [Polled.scribed, h, List.append_nil]

/-- What comes first is written first. -/
lemma Polled.scribed_after (p : Polled L δ) (earlier : Trace) (log : HookLog) :
    (p.scribed (log ++ earlier.hookCalls)).after earlier = (p.after earlier).scribed log := by
  simp only [Polled.after, Polled.scribed, Trace.hookCalls_append, List.append_assoc]

/-- Leaving a child behind is nothing to write down. -/
lemma Polled.passed_scribed (p : Polled L δ) (i cursor : Nat) (log : HookLog) :
    (p.scribed log).passed i cursor = (p.passed i cursor).scribed (log ++ p.trace.hookCalls) := by
  simp only [Polled.passed, World.relabel, Polled.scribed, World.scribed]
  rw [Arena.scribed_relabel]
  intro n
  rw [Node.scribed, NodeKind.scribed_withCursor]
  rfl

/-- The second way to poll does with scribes what the first does with their leaves. -/
def Poller.Scribes (child : Poller L δ) (child' : Poller (Scribe L) (δ × HookLog)) : Prop :=
  ∀ c w log, child' c (w.scribed log) = (child c w).scribed log

variable {child : Poller L δ} {child' : Poller (Scribe L) (δ × HookLog)} (log : HookLog)

lemma pollRoot_scribed (hchild : child.Scribes child') (children : List Nat) :
    pollRoot child' children (w.scribed log) = (pollRoot child children w).scribed log := by
  cases children with
  | nil => exact Polled.scribed_quiet rfl log
  | cons c cs => exact hchild c w log

/-- Polling the children of a composite from the cursor on. -/
lemma pollFrom_scribed (hchild : child.Scribes child') (i : Nat) (id : NodeId)
    (kind : CompositeKind) (cascade : Bool) (cursor : Nat) (remaining : List Nat) :
    pollFrom child' i id kind cascade cursor remaining (w.scribed log) =
      (pollFrom child i id kind cascade cursor remaining w).scribed log := by
  induction remaining generalizing cursor w log with
  | nil => exact Polled.scribed_quiet rfl log
  | cons c rest ih =>
      have hp := hchild c w log
      by_cases hs : (child c w).status = kind.advancesOn
      · cases rest with
        | nil =>
            rw [pollFrom_ends hp hs, pollFrom_ends rfl hs, Polled.passed_scribed]
            rfl
        | cons d rest =>
            cases hc : cascade with
            | true =>
                subst hc
                rw [pollFrom_cascades hp hs rfl, pollFrom_cascades rfl hs rfl,
                  Polled.passed_scribed, ih, ← Polled.scribed_after]
                rfl
            | false =>
                have hquiet : Trace.hookCalls [.advance id] = [] := rfl
                rw [pollFrom_pauses hp hs rfl, pollFrom_pauses rfl hs rfl, Polled.passed_scribed]
                simp only [Polled.scribed, Trace.hookCalls_append, hquiet, List.append_nil]
      · rw [pollFrom_stops hp hs, pollFrom_stops rfl hs]

/-- A gate has no hook. -/
lemma pollDecorated_scribed (hchild : child.Scribes child') (rule : DecoratorRule) (gate : Bool)
    (children : List Nat) :
    pollDecorated child' rule gate children (w.scribed log) =
      (pollDecorated child rule gate children w).scribed log := by
  cases ha : Node.admits rule gate w.scene.board with
  | true =>
      rw [pollDecorated_admitted (w := w.scribed log) ha, pollDecorated_admitted ha,
        pollRoot_scribed log hchild]
      rfl
  | false =>
      rw [pollDecorated_refused (w := w.scribed log) ha, pollDecorated_refused ha]
      exact Polled.scribed_quiet rfl log

variable [Behavior L δ]

lemma activate_scribed (w : World L δ) (i : Nat) (n : Node L) :
    (w.scribed log).activate i n.scribed =
      ((w.activate i n).1.scribed (log ++ (w.activate i n).2.hookCalls), (w.activate i n).2) := by
  rw [World.activate, World.activate, show n.scribed.state = n.state from rfl]
  split
  · rw [Trace.hookCalls_nil, List.append_nil]
  · simp only [World.scribed, n.activate_scribed, Arena.scribed_put]

/-- Running a node that has an activation under way. -/
lemma run_scribed (hchild : child.Scribes child') (i : Nat) :
    run child' i (w.scribed log) = (run child i w).scribed log := by
  rw [run, run, show (w.scribed log).arena[i]? = _ from w.arena.getElem?_scribed i]
  cases hslot : w.arena[i]? with
  | none => exact Polled.scribed_quiet rfl log
  | some slot =>
      obtain ⟨⟨id, kind, state⟩, cs⟩ := slot
      dsimp only [Option.map_some, Node.scribed]
      cases kind with
      | root => exact pollRoot_scribed log hchild _
      | composite kind cascade cursor =>
          exact pollFrom_scribed log hchild i _ kind cascade cursor _
      | decorator rule gate => exact pollDecorated_scribed log hchild rule gate _
      | leaf l =>
          have harena := w.arena.scribed_relabel i
            (f := fun n => { n with kind := .leaf (Behavior.onUpdate id l w.scene).2.1 })
            (g := fun n => { n with kind := .leaf ⟨(Behavior.onUpdate id l w.scene).2.1⟩ })
            fun _ => rfl
          simp only [Polled.scribed, World.scribed, harena]
          rfl

lemma conclude_scribed (i : Nat) (status : Status) :
    (w.scribed log).conclude i status =
      ((w.conclude i status).1.scribed (log ++ (w.conclude i status).2.hookCalls),
        (w.conclude i status).2) := by
  cases hslot : w.arena[i]? with
  | none =>
      simp only [World.conclude, World.scribed, Arena.getElem?_scribed, hslot, Option.map_none]
      exact congrArg (fun log => (w.scribed log, [Event.stray i])) (List.append_nil log).symm
  | some slot =>
      have hslot' := w.arena.getElem?_scribed i
      rw [hslot, Option.map_some] at hslot'
      have hconcluded := slot.label.conclude_scribed w.scene log status
      rw [World.conclude_of_slot (w := w.scribed log) hslot', World.conclude_of_slot hslot]
      simp only [World.scribed, hconcluded, Node.clearsOn_scribed]
      split
      · rw [Arena.scribed_clearBelow, Arena.scribed_put]
      · rw [Arena.scribed_put]

/-- Polling a node, given that its children are polled with scribes as without. -/
lemma pollNode_scribed (hchild : child.Scribes child') (i : Nat) :
    pollNode child' i (w.scribed log) = (pollNode child i w).scribed log := by
  rw [pollNode, pollNode, show (w.scribed log).arena[i]? = _ from w.arena.getElem?_scribed i]
  cases hslot : w.arena[i]? with
  | none => exact Polled.scribed_quiet rfl log
  | some slot =>
      simp only [Option.map_some, activate_scribed, run_scribed _ hchild]
      have henter : ∀ trace : Trace,
          Trace.hookCalls (.enter slot.label.id :: trace) = trace.hookCalls := fun _ => rfl
      have hleave : ∀ status, Trace.hookCalls [.leave slot.label.id status] = [] := fun _ => rfl
      simp only [Polled.scribed, conclude_scribed, Trace.hookCalls_append, henter, hleave,
        List.append_assoc, List.append_nil]
      rfl

/-- **A poll with scribes in place of leaves is the poll**, and what they write in its course is the
hook calls of its trace. -/
theorem poll_scribed (n i : Nat) (w : World L δ) (log : HookLog) :
    poll n i (w.scribed log) = (poll n i w).scribed log := by
  -- the induction is on how much of the arena lies ahead, as in the recursion of the poll
  induction hk : n - i using Nat.strongRecOn generalizing i w log with
  | ind k ih =>
      rw [poll_eq_pollNode, poll_eq_pollNode]
      refine pollNode_scribed log (fun c w log => ?_) i
      rw [pollBelow, pollBelow]
      by_cases hc : Forward n i c
      · have hlt := hc.1
        have hlt' := hc.2
        rw [dif_pos hc, dif_pos hc]
        exact ih (n - c) (by omega) c w log rfl
      · rw [dif_neg hc, dif_neg hc]
        exact Polled.scribed_quiet rfl log

end Polls

/-! ## Trees and brains -/

/-- The tree with scribes in place of leaves. -/
def Tree.scribed (t : Tree L) : Tree (Scribe L) := ⟨t.arena.scribed, t.board, t.state⟩

/-- The outcome if scribes have written the hook calls of the trace behind what was in the log. -/
def Updated.scribed (u : Updated L δ) (log : HookLog) : Updated (Scribe L) (δ × HookLog) :=
  ⟨u.status, u.tree.scribed, (u.driver, log ++ u.trace.hookCalls), u.trace⟩

/-- The deed, if it is done with a log beside the context of the driver. -/
def Deed.scribed : Deed δ → Deed (δ × HookLog)
  | update => .update
  | halt => .halt
  | rearm => .rearm
  | edit f => .edit f
  | drive f => .drive (Prod.map f id)

/-- The call with an empty log for its scribes. -/
def Call.scribed : Call δ → Call (δ × HookLog)
  | start => .start
  | update driver => .update (driver, [])
  | halt => .halt
  | rearm => .rearm
  | edit f => .edit f

/-- The reply with the hook calls of its trace as the log. -/
def Reply.scribed : Reply δ → Reply (δ × HookLog)
  | done => .done
  | updated status driver trace => .updated status (driver, trace.hookCalls) trace
  | refused misuse => .refused misuse

def Brain.scribed (b : Brain L) : Brain (Scribe L) :=
  ⟨b.template.scribed, b.cadence, b.bound.map Tree.scribed⟩

def Ticked.scribed (u : Ticked L δ) (log : HookLog) : Ticked (Scribe L) (δ × HookLog) :=
  ⟨u.status, u.brain.scribed, (u.driver, log ++ u.trace.hookCalls), u.trace⟩

def TickedAll.scribed (u : TickedAll L δ) (log : HookLog) : TickedAll (Scribe L) (δ × HookLog) :=
  ⟨u.brains.map Brain.scribed, (u.driver, log ++ u.trace.hookCalls), u.trace, u.error⟩

namespace Tree

variable (t : Tree L) (driver : δ) (log : HookLog)

lemma scribed_rearm : t.rearm.scribed = t.scribed.rearm := by
  have hnodes : t.rearm.arena.scribed = t.arena.scribed.relabelAll Node.rearm := by
    simp only [rearm, Arena.scribed, Arena.relabelAll, List.map_map, Function.comp_def,
      Node.scribed_rearm]
  rw [scribed, hnodes]
  rfl

lemma resting_scribed :
    t.scribed.resting (driver, log) = (t.resting driver).scribed log := by
  simp only [resting, Updated.scribed, Trace.hookCalls_nil, List.append_nil]
  rfl

variable [Behavior L δ]

/-- An update of a tree of scribes. -/
lemma update_scribed :
    t.scribed.update (driver, log) = (t.update driver).map fun u => u.scribed log := by
  cases hboard : t.board with
  | none =>
      rw [update, update, hboard, show t.scribed.board = none from hboard]
      rfl
  | some board =>
      have hboard' : t.scribed.board = some board := hboard
      cases hstate : t.state.isTerminal with
      | true =>
          rw [update_of_terminal hboard hstate, update_of_terminal hboard' hstate]
          exact congrArg Except.ok (t.resting_scribed driver log)
      | false =>
          have hstate' : t.scribed.state.isTerminal = false := hstate
          have hworld : (⟨t.scribed.arena, ⟨board, driver, log⟩⟩ : World (Scribe L) (δ × HookLog)) =
              World.scribed ⟨t.arena, ⟨board, driver⟩⟩ log := rfl
          have hlength : t.scribed.arena.length = t.arena.length := t.arena.length_scribed
          simp only [update, hboard, hboard', hstate, hstate', Bool.false_eq_true, if_false,
            hworld, hlength, poll_scribed]
          rfl

lemma carryOut_scribed (d : Deed δ) :
    t.scribed.carryOut (driver, log) d.scribed =
      (t.carryOut driver d).map fun u => u.scribed log := by
  cases d with
  | update => exact t.update_scribed driver log
  | halt => exact congrArg Except.ok (t.halt.resting_scribed driver log)
  | rearm =>
      rw [Deed.scribed, carryOut, carryOut, ← scribed_rearm, resting_scribed]
      rfl
  | edit f => exact congrArg Except.ok ((t.editBoard f).resting_scribed driver log)
  | drive f => exact congrArg Except.ok (t.resting_scribed (f driver) log)

/-- **A run of deeds with scribes in place of leaves is the run**, and they add to the log the hook
calls of its trace. -/
theorem carryOutAll_scribed (ds : List (Deed δ)) :
    t.scribed.carryOutAll (driver, log) (ds.map Deed.scribed) =
      (t.carryOutAll driver ds).map fun u => u.scribed log := by
  induction ds generalizing t driver log with
  | nil => exact congrArg Except.ok (t.resting_scribed driver log)
  | cons d ds ih =>
      rw [List.map_cons, carryOutAll, carryOutAll, carryOut_scribed]
      cases t.carryOut driver d with
      | error e => rfl
      | ok u =>
          have hlater := ih u.tree u.driver (log ++ u.trace.hookCalls)
          simp only [Except.map, bind, Except.bind, Updated.scribed] at hlater ⊢
          rw [hlater]
          cases u.tree.carryOutAll u.driver ds with
          | error e => rfl
          | ok v =>
              simp only [pure, Except.pure, Trace.hookCalls_append, List.append_assoc]

lemma reply_scribed (call : Call δ) :
    t.scribed.reply call.scribed = (t.reply call).scribed ∧
      t.scribed.perform call.scribed = ((t.perform call).1.scribed, (t.perform call).2) := by
  cases call with
  | start =>
      simp only [Call.scribed, reply, perform, start, show t.scribed.board = t.board from rfl]
      cases t.board <;> exact ⟨rfl, rfl⟩
  | update driver =>
      have hupdate := t.update_scribed driver []
      simp only [Call.scribed, reply, perform, hupdate]
      cases t.update driver <;> exact ⟨rfl, rfl⟩
  | halt => exact ⟨rfl, rfl⟩
  | rearm => exact ⟨rfl, congrArg (·, _) t.scribed_rearm.symm⟩
  | edit f => exact ⟨rfl, rfl⟩

/-- **A run of calls with scribes in place of leaves comes back with the same**, and each update
adds to its log the hook calls of its trace. -/
theorem replies_scribed (calls : List (Call δ)) :
    t.scribed.replies (calls.map Call.scribed) = (t.replies calls).map Reply.scribed ∧
      t.scribed.performAll (calls.map Call.scribed) =
        ((t.performAll calls).1.scribed, (t.performAll calls).2) := by
  induction calls generalizing t with
  | nil => exact ⟨rfl, rfl⟩
  | cons call calls ih =>
      obtain ⟨hreply, hnow⟩ := t.reply_scribed call
      obtain ⟨hreplies, hlater⟩ := ih (t.perform call).1
      simp only [List.map_cons, replies, performAll, hreply, hnow, hreplies, hlater]
      exact ⟨trivial, trivial⟩

end Tree

/-- A tick of a brain with a tree of scribes. -/
lemma Brain.tick_scribed [Behavior L δ] (b : Brain L) (tick : UInt64) (driver : δ)
    (log : HookLog) :
    b.scribed.tick tick (driver, log) = (b.tick tick driver).map fun u => u.scribed log := by
  obtain ⟨template, cadence, bound⟩ := b
  simp only [Brain.tick, Brain.scribed]
  cases cadence.thinksOn tick with
  | error e => rfl
  | ok thinks =>
      cases bound with
      | none =>
          simp only [Option.map_none, Except.map, Ticked.scribed, Brain.scribed,
            Trace.hookCalls_nil, List.append_nil]
      | some t =>
          simp only [Option.map_some, t.update_scribed, show t.scribed.state = t.state from rfl]
          split
          · cases t.update driver with
            | error e => rfl
            | ok u => rfl
          · simp only [Except.map, Ticked.scribed, Brain.scribed, Option.map_some,
              Trace.hookCalls_nil, List.append_nil]

/-- **Brains that are ticked together add to one log** the hook calls of everything that happens. -/
theorem tickBrains_scribed [Behavior L δ] (tick : UInt64) (brains : List (Brain L)) (driver : δ)
    (log : HookLog) :
    tickBrains tick (brains.map Brain.scribed) (driver, log) =
      (tickBrains tick brains driver).scribed log := by
  induction brains generalizing driver log with
  | nil =>
      simp only [tickBrains, List.map_nil, TickedAll.scribed, Trace.hookCalls_nil, List.append_nil]
  | cons b brains ih =>
      rw [List.map_cons, tickBrains, tickBrains, b.tick_scribed]
      cases b.tick tick driver with
      | error e =>
          simp only [Except.map, TickedAll.scribed, List.map_cons, Trace.hookCalls_nil,
            List.append_nil]
      | ok u =>
          simp only [Except.map, Ticked.scribed, ih]
          simp only [TickedAll.scribed, List.map_cons, Trace.hookCalls_append, List.append_assoc]

end BehaviorTree
