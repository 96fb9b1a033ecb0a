import BehaviorTree.Leaf.Scripted
import BehaviorTree.Proofs.Exchanging
import BehaviorTree.Proofs.Repeating
import Mathlib.Algebra.GroupWithZero.Nat
import Mathlib.Data.List.Forall2

/-!
# How long a flat composite takes

A composite whose children are leaves goes through them one after the other.  Where each leaf runs
for a known number of polls and then comes to a known end (`Task`), the run of the composite is
known as well: how many updates it takes, what it comes to, and which hooks it calls.

* `Behavior.Takes` — the leaf runs for so many polls and then ends, whatever the scenes are like.
  `Script.performs`: a script that plays such statuses does.
* `CompositeKind.reached`, `CompositeKind.result`, `CompositeKind.due` — the tasks that are come to,
  what they come to, and how many updates that takes.
* `Stage` — what one poll does of what is due.  **`Onward.pending`**: polling the leaves from the
  cursor on is a stage; so are a poll of the composite (`Branch.Faces.poll`) and an update of the
  tree (`Flat.update`).
* **`Fresh.flat_duration`** — the whole run, for any number of updates.
-/

namespace BehaviorTree

open Branch

variable {L δ : Type}

/-! ## The specification -/

/-- What a leaf does in an activation: for so many polls it is running, and then it ends. -/
structure Task where
  id : NodeId
  delay : Nat
  outcome : Status

namespace Task

/-- The hooks that are called from the first poll of the activation on. -/
def pending (task : Task) : List (NodeId × HookCall) :=
  List.replicate task.delay (task.id, .update .running) ++
    [(task.id, .update task.outcome), (task.id, .stop)]

/-- The hooks that are called in the activation, if it is the first one of the leaf. -/
def hookCalls (task : Task) : List (NodeId × HookCall) := (task.id, .start true) :: task.pending

end Task

/-- In its next polls the leaf is running so many times, and then it comes to the outcome. -/
def Behavior.Takes [Behavior L δ] (id : NodeId) (outcome : Status) : Nat → L → Prop
  | 0, l => ∀ scene : Scene δ, (onUpdate id l scene).1 = outcome
  | delay + 1, l => ∀ scene : Scene δ, (onUpdate id l scene).1 = .running ∧
      Takes id outcome delay (onUpdate id l scene).2.1

/-- Once activated, the leaf does the task. -/
structure Node.Performs [Behavior L δ] (n : Node L) (task : Task) : Prop where
  id : n.id = task.id
  outcome : task.outcome.isTerminal = true
  takes : ∃ l, n.kind = .leaf l ∧ ∀ scene : Scene δ,
    Behavior.Takes n.id task.outcome task.delay (Behavior.onStart n.id true l scene).1

namespace CompositeKind

/-- The tasks up to the first one whose outcome does not move the composite on, with that one. -/
def reached (kind : CompositeKind) : List Task → List Task
  | [] => []
  | task :: tasks => if task.outcome = kind.advancesOn then task :: kind.reached tasks else [task]

/-- The outcome of the first task that does not move the composite on, if there is one. -/
def result (kind : CompositeKind) : List Task → Status
  | [] => kind.advancesOn
  | task :: tasks => if task.outcome = kind.advancesOn then kind.result tasks else task.outcome

/-- How many updates the composite takes. -/
def due (kind : CompositeKind) (cascade : Bool) (tasks : List Task) : Nat :=
  if cascade then 1 + ((kind.reached tasks).map Task.delay).sum
  else max 1 ((kind.reached tasks).map fun task => task.delay + 1).sum

end CompositeKind

/-- The call is an update. -/
def Call.isUpdate : Call δ → Bool
  | update _ => true
  | _ => false

/-- The status that an update returned. -/
def Reply.status? : Reply δ → Option Status
  | updated status _ _ => some status
  | _ => none

/-- What the updates of a run return. -/
def Tree.statuses [Behavior L δ] (t : Tree L) (calls : List (Call δ)) : List Status :=
  (t.replies calls).filterMap Reply.status?

/-! ## What is due -/

/-- The hooks that are called for a task, the leaf of which has begun with it or has not. -/
def Task.hooks (begun : Bool) (task : Task) : List (NodeId × HookCall) :=
  if begun then task.pending else task.hookCalls

namespace CompositeKind

/-- The hooks that are called on the way through the tasks, the first of which may have begun. -/
def hooks (kind : CompositeKind) (begun : Bool) : List Task → List (NodeId × HookCall)
  | [] => []
  | task :: tasks =>
    task.hooks begun ++ if task.outcome = kind.advancesOn then kind.hooks false tasks else []

variable {kind : CompositeKind} {cascade : Bool} {task : Task} {tasks : List Task}

lemma hooks_reached (kind : CompositeKind) (tasks : List Task) :
    kind.hooks false tasks = (kind.reached tasks).flatMap Task.hookCalls := by
  induction tasks with
  | nil => rfl
  | cons task tasks ih =>
      rw [hooks, reached]
      split
      · rw [ih]
        rfl
      · rw [List.append_nil, List.flatMap_singleton]
        rfl

@[simp] lemma due_nil (kind : CompositeKind) (cascade : Bool) : kind.due cascade [] = 1 := by
  cases cascade <;> rfl

lemma one_le_due (kind : CompositeKind) (cascade : Bool) (tasks : List Task) :
    1 ≤ kind.due cascade tasks := by
  rw [due]
  split <;> omega

/-- One update more for a poll in which the first leaf is running. -/
lemma due_delayed (id : NodeId) (delay : Nat) (outcome : Status) (tasks : List Task) :
    kind.due cascade (⟨id, delay + 1, outcome⟩ :: tasks) =
      kind.due cascade (⟨id, delay, outcome⟩ :: tasks) + 1 := by
  by_cases h : outcome = kind.advancesOn <;> cases cascade <;>
    simp only [due, reached, h, if_true, if_false, Bool.false_eq_true, List.map_cons, List.map_nil,
      List.sum_cons, List.sum_nil] <;> omega

/-- A leaf that stops the composite does so in one update. -/
lemma due_stops (hdelay : task.delay = 0) (h : task.outcome ≠ kind.advancesOn) :
    kind.due cascade (task :: tasks) = 1 := by
  cases cascade <;> simp [due, reached, if_neg h, hdelay]

/-- So does the last leaf. -/
lemma due_last (hdelay : task.delay = 0) : kind.due cascade [task] = 1 := by
  cases cascade <;> simp [due, reached, hdelay]

/-- The next leaf is polled in the same update exactly if the composite cascades. -/
lemma due_advances (hdelay : task.delay = 0) (h : task.outcome = kind.advancesOn)
    (hne : tasks ≠ []) : kind.due cascade (task :: tasks) =
      kind.due cascade tasks + if cascade then 0 else 1 := by
  have hpos : 1 ≤ ((kind.reached tasks).map fun task => task.delay + 1).sum := by
    obtain ⟨next, rest, rfl⟩ := List.exists_cons_of_ne_nil hne
    rw [reached]
    split <;> simp only [List.map_cons, List.sum_cons] <;> omega
  cases cascade <;>
    simp only [due, reached, h, hdelay, if_true, if_false, Bool.false_eq_true, List.map_cons,
      List.sum_cons] <;> omega

end CompositeKind

/-! ## The children of the composite -/

/-- The leaf has begun with the task, or it does the task once it is activated, which has not
happened before. -/
structure Node.Ready [Behavior L δ] (begun : Bool) (n : Node L) (task : Task) : Prop where
  id : n.id = task.id
  outcome : task.outcome.isTerminal = true
  started : n.state.started = begun
  first : begun = false → n.state.activations = 0
  takes : ∀ scene : Scene δ, ∃ l, (n.begin scene).1.kind = .leaf l ∧
    Behavior.Takes n.id task.outcome task.delay l

/-- The leaves have the tasks before them, and the first one may have begun with its own. -/
inductive Pending [Behavior L δ] : Bool → List (Branch (Node L)) → List Task → Prop
  | none : Pending false [] []
  | next {begun : Bool} {n : Node L} {task : Task} {ts : List (Branch (Node L))}
    {tasks : List Task} : n.Ready begun task → Pending false ts tasks →
    Pending begun (node n [] :: ts) (task :: tasks)

section Ready

variable [Behavior L δ] {n : Node L} {task : Task} {begun : Bool}

/-- A leaf that has not been touched is ready for the task that it performs. -/
lemma Node.Performs.ready (h : n.Performs task) (hfresh : n.state = .fresh) :
    n.Ready false task where
  id := h.id
  outcome := h.outcome
  started := by rw [hfresh]; rfl
  first _ := by rw [hfresh]; rfl
  takes scene := by
    obtain ⟨l, hkind, htakes⟩ := h.takes
    obtain ⟨id, kind, state⟩ := n
    simp only at hkind hfresh
    subst hkind hfresh
    exact ⟨_, rfl, htakes scene⟩

/-- The hook at the beginning of the activation is called unless the leaf has begun. -/
lemma Node.Ready.hookCalls_begin (h : n.Ready begun task) (scene : Scene δ) :
    (n.begin scene).2.2.hookCalls = if begun then [] else [(task.id, .start true)] := by
  obtain ⟨l, hkind, -⟩ := h.takes scene
  obtain ⟨l, hkind⟩ := Node.exists_leaf_of_static (n.static_begin scene) ⟨l, hkind⟩
  obtain ⟨id, kind, state⟩ := n
  obtain rfl : kind = .leaf l := hkind
  have hid : id = task.id := h.id
  have hstarted : state.started = begun := h.started
  cases begun with
  | true => simp [Node.begin, hstarted, Trace.hookCalls]
  | false =>
      have hfirst : state.activations = 0 := h.first rfl
      rw [Node.begin, if_neg (by simp [hstarted]), ← hid]
      simp only [Node.activate, hfirst]
      rfl

/-- **A poll of a leaf that is ready**: it ends with the outcome of the task, or it is running and
has as much less to do. -/
lemma Node.Ready.poll (h : n.Ready begun task) (scene : Scene δ) :
    let o := (node n []).poll scene
    (task.delay = 0 ∧ o.status = task.outcome ∧ o.trace.hookCalls = task.hooks begun) ∨
    ∃ delay m, task.delay = delay + 1 ∧ o.status = .running ∧ o.part = node m [] ∧
      m.Ready true ⟨task.id, delay, task.outcome⟩ ∧
      task.hooks begun = o.trace.hookCalls ++ Task.pending ⟨task.id, delay, task.outcome⟩ := by
  obtain ⟨l, hkind, htakes⟩ := h.takes scene
  have hcalls := h.hookCalls_begin scene
  have hid := (n.id_begin scene).trans h.id
  have hstarted := n.started_begin scene
  have houtcome := h.outcome
  rw [h.id] at htakes
  rw [poll_eq_conclude]
  generalize n.begin scene = begin at hkind hcalls hid hstarted ⊢
  obtain ⟨⟨id, _, state⟩, scene', trace⟩ := begin
  obtain ⟨_, delay, outcome⟩ := task
  simp only at hkind hid hstarted htakes houtcome
  subst hkind hid
  cases delay with
  | zero =>
      have hstatus := htakes scene'
      refine .inl ⟨rfl, hstatus, ?_⟩
      rw [Outcome.calls_conclude, hcalls, runBelow, Node.run_leaf rfl]
      simp only [label_node, hstatus, Node.conclude, houtcome, if_true]
      cases begun <;> rfl
  | succ delay =>
      obtain ⟨hstatus, hlater⟩ := htakes scene'
      refine .inr ⟨delay, ⟨id, .leaf (Behavior.onUpdate id l scene').2.1, state.record .running⟩,
        rfl, hstatus, Outcome.part_conclude_running hstatus _ _, ?_, ?_⟩
      · refine ⟨rfl, houtcome, hstarted, (by simp), fun scene => ⟨_, ?_, hlater⟩⟩
        rw [Node.begin, if_pos (by exact hstarted)]
      · rw [Outcome.calls_conclude, hcalls, runBelow, Node.run_leaf rfl]
        simp only [label_node, hstatus, Node.conclude_running]
        cases begun <;> rfl

/-- A script that is running for so many polls and then comes to an outcome. -/
def Script.delayed (delay : Nat) (outcome : Status) : Script where
  label := "task"
  statuses := List.replicate delay .running ++ [outcome]
  ending := .last
  restart := true
  onStart := []
  onUpdate := []
  onStop := []
  step := 0

/-- A script takes as long as it has statuses `running` before it. -/
lemma Script.takes (id : NodeId) {leaf : Script} {delay : Nat} {outcome : Status}
    (h : leaf.statuses = List.replicate (leaf.step + delay) .running ++ [outcome]) :
    Behavior.Takes id outcome delay (ScriptedLeaf.script leaf) := by
  induction delay generalizing leaf with
  | zero =>
      intro scene
      have hpick : leaf.statuses[leaf.step]? = some outcome := by simp [h]
      simp [Behavior.onUpdate, Script.update, Ending.pick, hpick]
  | succ delay ih =>
      intro scene
      have hpick : leaf.statuses[leaf.step]? = some .running := by
        rw [h, List.getElem?_append_left (by simp), List.getElem?_replicate, if_pos (by omega)]
      have hnext : leaf.statuses =
          List.replicate (leaf.step + 1 + delay) .running ++ [outcome] := by
        rw [h, Nat.add_assoc, Nat.add_comm 1]
      exact ⟨by simp [Behavior.onUpdate, Script.update, Ending.pick, hpick], ih hnext⟩

lemma Script.performs (id : NodeId) (delay : Nat) {outcome : Status}
    (houtcome : outcome.isTerminal = true) :
    (Node.fresh id (.leaf (ScriptedLeaf.script (.delayed delay outcome)))).Performs
      ⟨id, delay, outcome⟩ where
  id := rfl
  outcome := houtcome
  takes := by
    refine ⟨_, rfl, fun scene => Script.takes id ?_⟩
    simp [Script.start, Script.delayed]

/-- A leaf that moves its composite on has done the whole task. -/
lemma Node.Ready.poll_advances {kind : CompositeKind} (h : n.Ready begun task) {scene : Scene δ}
    (hstatus : ((node n []).poll scene).status = kind.advancesOn) :
    task.delay = 0 ∧ task.outcome = kind.advancesOn ∧
      ((node n []).poll scene).trace.hookCalls = task.hooks begun := by
  rcases h.poll scene with ⟨hdelay, hresult, hcalls⟩ | ⟨_, _, _, hrunning, _⟩
  · exact ⟨hdelay, hresult.symm.trans hstatus, hcalls⟩
  · exact absurd (hstatus.symm.trans hrunning) kind.advancesOn_ne_running

end Ready

/-! ## The composite -/

/-- What one poll does of what a composite has before it: it comes to the result with the last
update that is due and calls the hooks that are left, or it brings the run an update closer. -/
inductive Stage (kind : CompositeKind) (cascade begun : Bool) (tasks : List Task) (status : Status)
    (calls : List (NodeId × HookCall)) (next : Bool → List Task → Prop) : Prop
  | ends : kind.due cascade tasks = 1 → status = kind.result tasks →
    calls = kind.hooks begun tasks → Stage kind cascade begun tasks status calls next
  | goesOn {begun' : Bool} {tasks' : List Task} : status = .running → next begun' tasks' →
    kind.due cascade tasks = kind.due cascade tasks' + 1 →
    kind.result tasks' = kind.result tasks →
    kind.hooks begun tasks = calls ++ kind.hooks begun' tasks' →
    Stage kind cascade begun tasks status calls next

namespace Stage

variable {kind : CompositeKind} {cascade begun begun' : Bool} {tasks tasks' : List Task}
  {status : Status} {calls : List (NodeId × HookCall)} {next next' : Bool → List Task → Prop}

lemma imp (h : Stage kind cascade begun tasks status calls next)
    (hnext : status = .running → ∀ begun' tasks', next begun' tasks' → next' begun' tasks') :
    Stage kind cascade begun tasks status calls next' := by
  cases h with
  | ends hdue hstatus hcalls => exact .ends hdue hstatus hcalls
  | goesOn hstatus h hdue hresult hcalls =>
      exact .goesOn hstatus (hnext hstatus _ _ h) hdue hresult hcalls

/-- Hooks that are called before it in the same poll belong to the stage. -/
lemma after (h : Stage kind cascade begun' tasks' status calls next)
    (hdue : kind.due cascade tasks = kind.due cascade tasks')
    (hresult : kind.result tasks' = kind.result tasks) {earlier : List (NodeId × HookCall)}
    (hcalls : kind.hooks begun tasks = earlier ++ kind.hooks begun' tasks') :
    Stage kind cascade begun tasks status (earlier ++ calls) next := by
  cases h with
  | ends hlast hstatus hlater =>
      exact .ends (hdue.trans hlast) (hstatus.trans hresult) (by rw [hcalls, hlater])
  | goesOn hstatus hnext hone hsame hlater =>
      refine .goesOn hstatus hnext (hdue.trans hone) (hsame.trans hresult) ?_
      rw [hcalls, hlater, List.append_assoc]

end Stage

section Pending

variable [Behavior L δ] {kind : CompositeKind} {cascade begun : Bool} {ts : List (Branch (Node L))}
  {tasks : List Task}

lemma Pending.result_isTerminal (h : Pending begun ts tasks) :
    (kind.result tasks).isTerminal = true := by
  induction h with
  | none => cases kind <;> rfl
  | next hready _ ih =>
      rw [CompositeKind.result]
      split
      · exact ih
      · exact hready.outcome

/-- A leaf that is left behind leaves the tasks of the others, and they are as many updates away as
the composite hands control back. -/
lemma Pending.leave {t u : Branch (Node L)} {us : List (Branch (Node L))} {scene : Scene δ}
    (h : Pending begun (t :: u :: us) tasks) (hstatus : (t.poll scene).status = kind.advancesOn)
    (cascade : Bool) : ∃ tasks', Pending false (u :: us) tasks' ∧
      kind.due cascade tasks = kind.due cascade tasks' + (if cascade then 0 else 1) ∧
      kind.result tasks' = kind.result tasks ∧
      kind.hooks begun tasks = (t.poll scene).trace.hookCalls ++ kind.hooks false tasks' := by
  obtain _ | @⟨_, n, task, _, tasks, hready, hrest⟩ := h
  obtain ⟨hdelay, houtcome, hcalls⟩ := hready.poll_advances hstatus
  have hne : tasks ≠ [] := by
    rintro rfl
    cases hrest
  refine ⟨tasks, hrest, CompositeKind.due_advances hdelay houtcome hne, (if_pos houtcome).symm, ?_⟩
  rw [CompositeKind.hooks, if_pos houtcome, hcalls]

/-- **Polling the leaves from the cursor on** is a stage of the tasks that they have before them. -/
theorem Onward.pending {id : NodeId} {skip : Nat} {scene : Scene δ}
    {o : Outcome (Nat × List (Branch (Node L))) δ} (h : Onward id kind cascade skip ts scene o)
    (hpending : Pending begun (ts.drop skip) tasks) :
    Stage kind cascade begun tasks o.status o.trace.hookCalls
      (Pending · (o.part.2.drop (skip + o.part.1)) ·) := by
  induction h generalizing begun tasks with
  | exhausted =>
      rw [List.drop_nil] at hpending
      cases hpending
      exact .ends (kind.due_nil cascade) rfl rfl
  | @skips skip t ts scene o _ ih =>
      rw [List.drop_succ_cons] at hpending
      refine (ih hpending).imp fun _ begun' tasks' hnext => ?_
      rwa [Outcome.part_map, Nat.add_right_comm, List.drop_succ_cons]
  | @stops t ts scene hstatus =>
      obtain _ | @⟨_, n, task, _, tasks, hready, hrest⟩ := hpending
      rcases hready.poll scene with ⟨hdelay, hresult, hcalls⟩ |
        ⟨delay, m, hdelay, hrunning, hpart, hready', hcalls⟩
      · rw [hresult] at hstatus
        refine .ends (CompositeKind.due_stops hdelay hstatus) ?_ ?_
        · rw [CompositeKind.result, if_neg hstatus]
          exact hresult
        · rw [CompositeKind.hooks, if_neg hstatus, List.append_nil]
          exact hcalls
      · obtain ⟨id, _, outcome⟩ := task
        obtain rfl : _ = delay + 1 := hdelay
        refine @Stage.goesOn _ _ _ _ _ _ _ true (⟨id, delay, outcome⟩ :: tasks) hrunning ?_
          (CompositeKind.due_delayed id delay outcome tasks) rfl ?_
        · rw [Outcome.part_map, hpart]
          exact .next hready' hrest
        · rw [CompositeKind.hooks, hcalls, List.append_assoc]
          rfl
  | @ends t scene hstatus =>
      obtain _ | @⟨_, n, task, _, tasks, hready, hrest⟩ := hpending
      cases hrest
      obtain ⟨hdelay, houtcome, hcalls⟩ := hready.poll_advances hstatus
      refine .ends (CompositeKind.due_last hdelay) ?_ ?_
      · rw [CompositeKind.result, if_pos houtcome]
        exact hstatus
      · rw [CompositeKind.hooks, if_pos houtcome, CompositeKind.hooks, List.append_nil]
        exact hcalls
  | @cascades t u us scene o hstatus hcascade _ ih =>
      obtain ⟨tasks', hpending', hdue, hresult, hhooks⟩ := hpending.leave hstatus cascade
      subst hcascade
      rw [Outcome.trace_after, Outcome.trace_map, Trace.hookCalls_append]
      refine ((ih hpending').imp fun _ begun' tasks'' hnext => ?_).after hdue hresult hhooks
      rw [Outcome.part_after, Outcome.part_map, ← Nat.add_assoc, List.drop_succ_cons]
      exact hnext
  | @pauses t u us scene hstatus hcascade =>
      obtain ⟨tasks', hpending', hdue, hresult, hhooks⟩ := hpending.leave hstatus cascade
      refine .goesOn rfl hpending' ?_ hresult ?_
      · rw [hdue, hcascade]
        rfl
      · rw [hhooks, Trace.hookCalls_append]
        exact congrArg (· ++ _) (List.append_nil _).symm

/-- The branch is a composite the leaves of which have, from the cursor on, the tasks before
them. -/
def Branch.Faces (kind : CompositeKind) (cascade : Bool) (x : Branch (Node L)) (begun : Bool)
    (tasks : List Task) : Prop :=
  ∃ id cursor state ts, x = node ⟨id, .composite kind cascade cursor, state⟩ ts ∧
    Pending begun (ts.drop (if state.started then cursor else 0)) tasks

/-- **A poll of the composite** is a stage. -/
lemma Branch.Faces.poll {x : Branch (Node L)} (h : x.Faces kind cascade begun tasks)
    (scene : Scene δ) : Stage kind cascade begun tasks (x.poll scene).status
      (x.poll scene).trace.hookCalls ((x.poll scene).part.Faces kind cascade) := by
  obtain ⟨id, cursor, state, ts, rfl, hpending⟩ := h
  obtain ⟨o, state', honward, hpoll⟩ := poll_composite id kind cascade cursor state ts scene
  have hstarted := started_poll (node ⟨id, .composite kind cascade cursor, state⟩ ts) scene
  have hcalls : ((node ⟨id, .composite kind cascade cursor, state⟩ ts).poll scene).trace.hookCalls =
      o.trace.hookCalls := by
    rw [hpoll]
    simp only [Trace.hookCalls_append]
    cases state.started <;> exact List.append_nil _
  rw [hcalls]
  rw [hpoll] at hstarted ⊢
  refine (honward.pending hpending).imp fun hrunning begun' tasks' hnext => ?_
  have hgoes : state'.started = true := by
    rw [hrunning] at hstarted
    exact hstarted
  exact ⟨id, _, state', o.part.2, rfl, by rwa [hgoes]⟩

end Pending

/-! ## Runs -/

section Root

variable [Behavior L δ] {r : Node L}

/-- A root passes the poll of its child on. -/
lemma Branch.poll_root (hroot : r.kind = .root) (x : Branch (Node L)) (scene : Scene δ) :
    (x.poll scene).Matches (fun t b => ∃ r', r'.kind = .root ∧ b = node r' [t])
      ((node r [x]).poll scene) := by
  have hkind := Node.kind_eq_root_of_static (r.static_begin scene) hroot
  have hran : runBelow (node (r.begin scene).1 [x]) (r.begin scene).2.1 =
      (x.poll scene).map fun t => node (r.begin scene).1 [t] := by
    rw [Node.begin_scene (.inl hroot), runBelow, Node.run_root hkind]
    rfl
  have ho := poll_matches_run (n := r) (by rw [hroot]; rfl)
    (fun _ => by rw [Node.clearsOn, hroot]) [x] scene
  rw [hran] at ho
  obtain ⟨hstatus, hscene, hcalls, state, -, hpart⟩ := ho
  exact ⟨hstatus, hscene, hcalls, { (r.begin scene).1 with state }, hkind, hpart⟩

end Root

namespace Tree

variable [Behavior L δ] {t : Tree L} {kind : CompositeKind} {cascade begun : Bool}
  {tasks : List Task}

/-- The tree has been started and its result is open.  Below the root is a composite that has the
tasks before it. -/
structure Flat (kind : CompositeKind) (cascade : Bool) (t : Tree L) (begun : Bool)
    (tasks : List Task) : Prop where
  started : t.isStarted = true
  running : t.state = .running
  shown : ∃ r x, t.Shows (node r [x]) ∧ r.kind = .root ∧ x.Faces kind cascade begun tasks

/-- **An update of a flat tree** is a stage. -/
lemma Flat.update (h : t.Flat kind cascade begun tasks) (driver : δ) :
    ∃ u, t.update driver = .ok u ∧ u.tree.isStarted = true ∧ u.tree.state = u.status ∧
      Stage kind cascade begun tasks u.status u.trace.hookCalls (u.tree.Flat kind cascade) := by
  obtain ⟨hstarted, hrunning, r, x, hshows, hroot, hfaces⟩ := h
  obtain ⟨board, hboard⟩ := Option.isSome_iff_exists.mp hstarted
  obtain ⟨hstatus, -, hcalls, r', hroot', hpart⟩ := poll_root hroot x (⟨board, driver⟩ : Scene δ)
  refine ⟨_, hshows.update hboard hrunning driver, rfl, rfl, ?_⟩
  simp only [hstatus, hcalls, hpart]
  refine (hfaces.poll ⟨board, driver⟩).imp fun hrunning' begun' tasks' hnext => ?_
  exact ⟨rfl, hrunning', r', _, hshows.of_static (hpart ▸ map_static_poll _ _) rfl, hroot', hnext⟩

/-- A call other than an update leaves the result open. -/
lemma Flat.edit (h : t.Flat kind cascade begun tasks) (f : Blackboard → Blackboard) :
    (t.editBoard f).Flat kind cascade begun tasks := by
  obtain ⟨hstarted, hrunning, r, x, hshows, hshown⟩ := h
  refine ⟨?_, hrunning, r, x, ⟨hshows.arena, hshows.nodup⟩, hshown⟩
  simpa only [editBoard, isStarted, Option.isSome_map] using hstarted

lemma Flat.result_isTerminal (h : t.Flat kind cascade begun tasks) :
    (kind.result tasks).isTerminal = true := by
  obtain ⟨_, _, _, _, _, _, _, _, _, _, _, hpending⟩ := h
  exact hpending.result_isTerminal

section Update

variable {driver : δ} {u : Updated L δ} {calls : List (Call δ)}

lemma statuses_update (hu : t.update driver = .ok u) (calls : List (Call δ)) :
    t.statuses (.update driver :: calls) = u.status :: u.tree.statuses calls := by
  rw [statuses, replies, reply, perform, hu]
  rfl

lemma hookCalls_update (hu : t.update driver = .ok u) (calls : List (Call δ)) :
    (t.traceAll (.update driver :: calls)).hookCalls =
      u.trace.hookCalls ++ (u.tree.traceAll calls).hookCalls := by
  rw [traceAll_cons, reply, perform, hu, Trace.hookCalls_append]
  rfl

end Update

/-- A tree that has come to its end answers with its result, and calls no hook. -/
lemma run_of_terminal (hstarted : t.isStarted = true) (hstate : t.state.isTerminal = true)
    {calls : List (Call δ)} (hcalls : ∀ call ∈ calls, call.GoesOn) :
    t.statuses calls = List.replicate (calls.countP Call.isUpdate) t.state ∧
      (t.traceAll calls).hookCalls = [] := by
  induction calls generalizing t with
  | nil => exact ⟨rfl, rfl⟩
  | cons call calls ih =>
      obtain ⟨hcall, hrest⟩ := List.forall_mem_cons.mp hcalls
      cases call with
      | update driver =>
          obtain ⟨board, hboard⟩ := Option.isSome_iff_exists.mp hstarted
          have hupdate := update_of_terminal hboard hstate driver
          obtain ⟨hstatuses, hhooks⟩ := ih hstarted hstate hrest
          rw [statuses_update hupdate, hookCalls_update hupdate, hstatuses, hhooks,
            List.countP_cons_of_pos (by rfl), List.replicate_succ]
          exact ⟨rfl, rfl⟩
      | edit f =>
          have hstarted' : (t.editBoard f).isStarted = true := by
            simpa only [editBoard, isStarted, Option.isSome_map] using hstarted
          exact ih hstarted' hstate hrest
      | start => exact hcall.elim
      | halt => exact hcall.elim
      | rearm => exact hcall.elim

/-- **A run of a flat tree.** -/
theorem Flat.run (h : t.Flat kind cascade begun tasks) {calls : List (Call δ)}
    (hcalls : ∀ call ∈ calls, call.GoesOn) :
    t.statuses calls =
        List.replicate (min (calls.countP Call.isUpdate) (kind.due cascade tasks - 1)) .running ++
          List.replicate (calls.countP Call.isUpdate - (kind.due cascade tasks - 1))
            (kind.result tasks) ∧
      (t.traceAll calls).hookCalls <+: kind.hooks begun tasks ∧
      (kind.due cascade tasks ≤ calls.countP Call.isUpdate →
        (t.traceAll calls).hookCalls = kind.hooks begun tasks) := by
  induction calls generalizing t begun tasks with
  | nil =>
      have hpos := kind.one_le_due cascade tasks
      refine ⟨by simp [statuses, replies], List.nil_prefix, fun hle => ?_⟩
      rw [List.countP_nil] at hle
      omega
  | cons call calls ih =>
      obtain ⟨hcall, hrest⟩ := List.forall_mem_cons.mp hcalls
      cases call with
      | update driver =>
          obtain ⟨u, hu, hstarted, hstate, hstage⟩ := h.update driver
          rw [statuses_update hu, hookCalls_update hu, List.countP_cons_of_pos (by rfl)]
          cases hstage with
          | ends hdue hstatus hhooks =>
              have hterminal : u.tree.state.isTerminal = true := by
                rw [hstate, hstatus]
                exact h.result_isTerminal
              obtain ⟨hlater, hquiet⟩ := run_of_terminal hstarted hterminal hrest
              rw [hlater, hquiet, hdue, hstate, hstatus, hhooks, List.append_nil]
              refine ⟨?_, List.prefix_refl _, fun _ => rfl⟩
              rw [Nat.sub_self, Nat.min_zero, Nat.sub_zero, List.replicate_succ]
              rfl
          | @goesOn begun' tasks' hstatus hnext hdue hresult hhooks =>
              obtain ⟨hlater, hprefix, hended⟩ := ih hnext hrest
              have hpos := kind.one_le_due cascade tasks'
              obtain ⟨left, hleft⟩ : ∃ left, kind.due cascade tasks' = left + 1 :=
                ⟨kind.due cascade tasks' - 1, by omega⟩
              rw [hlater, hstatus, hresult, hdue, hleft, hhooks]
              refine ⟨?_, (List.prefix_append_right_inj _).mpr hprefix, fun hle => ?_⟩
              · simp only [Nat.add_sub_cancel, Nat.add_min_add_right, Nat.add_sub_add_right,
                  List.replicate_succ, List.cons_append]
              · rw [hended (by omega)]
      | edit f => exact ih (h.edit f) hrest
      | start => exact hcall.elim
      | halt => exact hcall.elim
      | rearm => exact hcall.elim

/-- **How long a flat composite takes.**  Below the root of a fresh tree is a composite of leaves,
each of which runs for a number of polls and then comes to an outcome.  The tree is started, and its
owner goes on with it.  Then every update before the last one that is due asks for another one, and
from that one on the answer is the result: the first outcome that does not move the composite on, if
there is one.  No hook is called but in turn those of the leaves up to that one, and at the end they
all have been. -/
theorem Fresh.flat_duration (h : t.Fresh) {r c : Node L} {xs : List (Branch (Node L))}
    (hbranch : t.branch? = some (.node r [.node c xs])) {cursor : Nat}
    (hkind : c.kind = .composite kind cascade cursor)
    (htasks : List.Forall₂ (fun x task => x.children = [] ∧ x.label.Performs task) xs tasks)
    {s : Tree L} (hs : t.start = .ok s) {calls : List (Call δ)}
    (hcalls : ∀ call ∈ calls, call.GoesOn) :
    s.statuses calls =
        List.replicate (min (calls.countP Call.isUpdate) (kind.due cascade tasks - 1)) .running ++
          List.replicate (calls.countP Call.isUpdate - (kind.due cascade tasks - 1))
            (kind.result tasks) ∧
      (s.traceAll calls).hookCalls <+: (kind.reached tasks).flatMap Task.hookCalls ∧
      (kind.due cascade tasks ≤ calls.countP Call.isUpdate →
        (s.traceAll calls).hookCalls = (kind.reached tasks).flatMap Task.hookCalls) := by
  obtain ⟨b, hb⟩ := h.pristine
  rw [hb.toShows.branch?, Option.some.injEq] at hbranch
  subst hbranch
  have hfresh : ∀ n ∈ c :: labelsAll xs, n.state = .fresh := fun n hn =>
    hb.state_eq_fresh (List.mem_cons_of_mem r (by simpa [labels, labelsAll] using hn))
  have hpending : Pending false xs tasks := by
    have hleaves : ∀ x ∈ xs, x.label.state = .fresh := fun x hx =>
      hfresh _ (List.mem_cons_of_mem c (mem_labelsAll.mpr ⟨x, hx, x.label_mem_labels⟩))
    clear hb hfresh
    induction htasks with
    | nil => exact .none
    | @cons x task xs tasks hx _ ih =>
        obtain ⟨n, ts⟩ := x
        obtain ⟨rfl, hperforms⟩ := hx
        obtain ⟨hn, hrest⟩ := List.forall_mem_cons.mp hleaves
        exact .next (hperforms.ready hn) (ih hrest)
  have hstart : s = { t with board := some .empty } := by
    rw [start, hb.board] at hs
    exact (Except.ok.inj hs).symm
  subst hstart
  have hflat : Flat kind cascade { t with board := some .empty } false tasks := by
    obtain ⟨id, k, state⟩ := c
    obtain rfl : k = _ := hkind
    refine ⟨rfl, hb.state, r, _, ⟨hb.arena, hb.nodup⟩, hb.toShows.kind_root h.rooted,
      id, cursor, state, xs, rfl, ?_⟩
    have hidle : state = .fresh := hfresh _ List.mem_cons_self
    rw [hidle]
    exact hpending
  rw [← kind.hooks_reached]
  exact hflat.run hcalls

/-- A selector of three scripted leaves, the second of which succeeds. -/
theorem flat_duration_selector :
    let xs : List (Branch (Node ScriptedLeaf)) :=
      [.node (.fresh ⟨2⟩ (.leaf (.script (.delayed 1 .failure)))) [],
      .node (.fresh ⟨3⟩ (.leaf (.script (.delayed 0 .success)))) [],
      .node (.fresh ⟨4⟩ (.leaf (.script (.delayed 2 .failure)))) []]
    let tasks : List Task := [⟨⟨2⟩, 1, .failure⟩, ⟨⟨3⟩, 0, .success⟩, ⟨⟨4⟩, 2, .failure⟩]
    let tree (cascade : Bool) : Tree ScriptedLeaf := ofBranch (.node (.fresh ⟨0⟩ .root)
      [.node (.fresh ⟨1⟩ (.composite .selector cascade 0)) xs])
    let started (cascade : Bool) : Tree ScriptedLeaf := { tree cascade with board := some .empty }
    let calls : List (Call Journal) := [.update .empty, .update .empty, .edit fun _ => .empty,
      .update .empty, .update .empty]
    (∀ cascade, Tree.build .standard (some (.composite none .selector (some cascade)
        [.leaf none (ScriptedLeaf.script (.delayed 1 .failure)),
        .leaf none (.script (.delayed 0 .success)),
        .leaf none (.script (.delayed 2 .failure))])) = .ok (tree cascade)) ∧
      List.Forall₂ (fun x task => x.children = [] ∧ x.label.Performs task) xs tasks ∧
      (∀ call ∈ calls, call.GoesOn) ∧
      (started true).statuses calls = [.running, .success, .success, .success] ∧
      (started false).statuses calls = [.running, .running, .success, .success] ∧
      ∀ cascade, ((started cascade).traceAll calls).hookCalls =
        [(⟨2⟩, .start true), (⟨2⟩, .update .running), (⟨2⟩, .update .failure), (⟨2⟩, .stop),
        (⟨3⟩, .start true), (⟨3⟩, .update .success), (⟨3⟩, .stop)] := by
  intro xs tasks tree started calls
  have hbuild : ∀ cascade, Tree.build .standard (some (.composite none .selector (some cascade)
      [.leaf none (ScriptedLeaf.script (.delayed 1 .failure)),
      .leaf none (.script (.delayed 0 .success)),
      .leaf none (.script (.delayed 2 .failure))])) = .ok (tree cascade) := by
    intro cascade
    cases cascade <;> rfl
  have htasks : List.Forall₂ (fun x task => x.children = [] ∧ x.label.Performs task) xs tasks :=
    .cons ⟨rfl, Script.performs ⟨2⟩ 1 rfl⟩ (.cons ⟨rfl, Script.performs ⟨3⟩ 0 rfl⟩
      (.cons ⟨rfl, Script.performs ⟨4⟩ 2 rfl⟩ .nil))
  have hcalls : ∀ call ∈ calls, call.GoesOn := by decide
  have hrun := fun cascade => (Fresh.built .standard _ (hbuild cascade)).flat_duration
    (s := started cascade) (branch?_ofBranch _) rfl htasks rfl hcalls
  refine ⟨hbuild, htasks, hcalls, (hrun true).1.trans (by decide),
    (hrun false).1.trans (by decide), fun cascade => ((hrun cascade).2.2 ?_).trans (by decide)⟩
  cases cascade <;> decide

end Tree

end BehaviorTree
