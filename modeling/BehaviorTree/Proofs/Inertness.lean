import BehaviorTree.Proofs.Caching
import BehaviorTree.Proofs.Composites

/-!
# The cached result, and what the root has recorded

A tree keeps its result in two places: in its cached state, and in what its root has recorded of the
latest poll.  An update writes both, a halt only the first one, and a rearming wipes both, so what
they hold at the end of a run depends on what has happened since the last rearming.

* `Ledger` — what the owner of a tree notes of that, from the calls and what they come back with.
* `Ledger.Fits` — the cached state and the root are as the ledger has it.
  **`Ledger.Fits.perform`**: whatever is called next, the ledger is kept up.
* **`perform_of_terminal`** — a tree that has come to its end does nothing but wait to be rearmed.
* **`Fresh.keepsLedger`** — both for every run of a fresh tree.
-/

namespace BehaviorTree

open Branch

variable {L δ : Type}

/-! ## What the owner of a tree notes -/

/-- The status that an update has returned which polled the nodes.  In the course of any other
update nothing happens. -/
def Reply.polled? : Reply δ → Option Status
  | updated status _ (_ :: _) => some status
  | _ => none

/-- What has happened to a tree since it was last rearmed, or since it was made. -/
structure Ledger where
  halted : Bool
  /-- The statuses that the polls have returned, in order. -/
  results : List Status
  deriving DecidableEq

namespace Ledger

/-- The ledger of a tree that has just been made or rearmed. -/
def blank : Ledger := ⟨false, []⟩

/-- A call is noted with what it came back with. -/
def note (l : Ledger) : Call δ → Reply δ → Ledger
  | .halt, _ => { l with halted := true }
  | .rearm, _ => blank
  | _, reply => { l with results := l.results ++ reply.polled?.toList }

/-- The cached state and the root are as the ledger has it. -/
structure Fits (l : Ledger) (t : Tree L) (root : Node L) : Prop where
  /-- A halt is seen in the cached state only. -/
  state_eq : t.state = if l.halted then .failure else root.state.current
  /-- An activation of the root is under way if there have been polls and every one of them asked
  for another one. -/
  started_iff : root.state.started = true ↔ l.results ≠ [] ∧ ∀ s ∈ l.results, s = .running
  /-- A result that is open has never been anything else. -/
  open_results : root.state.current = .running → ∀ s ∈ l.results, s = .running

end Ledger

namespace Tree

variable [Behavior L δ]

/-- The ledger at the end of a run that begins with the ledger `l`. -/
def ledgerFrom (t : Tree L) (l : Ledger) : List (Call δ) → Ledger
  | [] => l
  | c :: cs => (t.perform c).1.ledgerFrom (l.note c (t.reply c)) cs

/-- The ledger at the end of a run. -/
def ledger (t : Tree L) (calls : List (Call δ)) : Ledger := t.ledgerFrom .blank calls

end Tree

/-! ## One call -/

/-- The first thing that happens in a poll is that the node is entered. -/
lemma Branch.trace_poll [Behavior L δ] (t : Branch (Node L)) (scene : Scene δ) :
    ∃ later, (t.poll scene).trace = .enter t.label.id :: later := by
  obtain ⟨n, ts⟩ := t
  rw [poll_eq_conclude, Outcome.conclude, Node.id_begin]
  exact ⟨_, rfl⟩

lemma Reply.polled?_poll [Behavior L δ] (t : Branch (Node L)) (scene : Scene δ) (status : Status)
    (driver : δ) : (updated status driver (t.poll scene).trace).polled? = some status := by
  obtain ⟨later, htrace⟩ := t.trace_poll scene
  rw [htrace]
  rfl

/-- A poll records its result at the node. -/
lemma Branch.current_poll [Behavior L δ] (t : Branch (Node L)) (scene : Scene δ) :
    (t.poll scene).part.label.state.current = (t.poll scene).status := by
  obtain ⟨n, ts⟩ := t
  rw [status_poll, poll_eq_conclude, Outcome.conclude]
  simp only [label_node]
  rw [Node.state_conclude]
  split <;> rfl

namespace Ledger

variable {l : Ledger} {t u : Tree L} {b : Branch (Node L)}

/-- Nothing has happened to a node that is idle and has recorded nothing. -/
lemma fits_blank {root : Node L} (hstate : t.state = .running)
    (hcurrent : root.state.current = .running) (hidle : root.state.started = false) :
    blank.Fits t root where
  state_eq := hstate.trans hcurrent.symm
  started_iff := by simp [blank, hidle]
  open_results := fun _ s hs => absurd hs List.not_mem_nil

/-- Only the cached state of a tree matters. -/
lemma Fits.of_state {root : Node L} (h : l.Fits t root) (hstate : u.state = t.state) :
    l.Fits u root where
  state_eq := hstate.trans h.state_eq
  started_iff := h.started_iff
  open_results := h.open_results

/-- While the cached state is open, the root's is too. -/
lemma Fits.current_of_running {root : Node L} (h : l.Fits t root) (hstate : t.state = .running) :
    l.halted = false ∧ root.state.current = .running := by
  have hcached := h.state_eq
  rw [hstate] at hcached
  cases hhalted : l.halted with
  | true => simp [hhalted] at hcached
  | false => exact ⟨rfl, by simpa [hhalted] using hcached.symm⟩

variable [Behavior L δ]

/-- The result of a poll is noted. -/
lemma Fits.poll (h : l.Fits t b.label) (hrunning : t.state = .running) (scene : Scene δ)
    (hstate : u.state = (b.poll scene).status) :
    ({ l with results := l.results ++ [(b.poll scene).status] } : Ledger).Fits u
      (b.poll scene).part.label := by
  obtain ⟨hhalted, hcurrent⟩ := h.current_of_running hrunning
  have hopen := h.open_results hcurrent
  have hall : (∀ s ∈ l.results ++ [(b.poll scene).status], s = .running) ↔
      (b.poll scene).status = .running := by
    rw [List.forall_mem_append, List.forall_mem_singleton]
    exact and_iff_right hopen
  refine ⟨?_, ?_, ?_⟩
  · rw [hstate, hhalted, current_poll, if_neg Bool.false_ne_true]
  · rw [started_poll, Status.isRunning_iff, hall]
    simp
  · rw [current_poll]
    exact hall.mpr

/-- **The ledger is kept up**: whatever a tree is asked for, its cached state and its root are as
the ledger has it afterwards. -/
theorem Fits.perform (h : l.Fits t b.label) (hshows : t.Shows b) (call : Call δ) :
    ∃ c, (t.perform call).1.Shows c ∧
      (l.note call (t.reply call)).Fits (t.perform call).1 c.label := by
  have hrests : ({ l with results := l.results ++ [] } : Ledger).Fits t b.label := by
    rwa [List.append_nil]
  cases call with
  | start =>
      rw [Tree.perform, Tree.reply, Tree.start]
      refine ⟨b, ?_⟩
      cases t.board with
      | none => exact ⟨⟨hshows.arena, hshows.nodup⟩, hrests.of_state rfl⟩
      | some board => exact ⟨hshows, hrests⟩
  | update driver =>
      rw [Tree.perform, Tree.reply]
      cases hupdate : t.update driver with
      | error misuse => exact ⟨b, hshows, hrests⟩
      | ok u =>
          rcases hshows.update_cases hupdate with rfl | ⟨board, -, hrunning, rfl⟩
          · exact ⟨b, hshows, hrests⟩
          · refine ⟨_, hshows.of_static (map_static_poll b ⟨board, driver⟩) rfl, ?_⟩
            simp only [note, Reply.polled?_poll]
            refine h.poll hrunning ⟨board, driver⟩ ?_
            rfl
  | halt =>
      exact ⟨b, ⟨hshows.arena, hshows.nodup⟩, rfl, h.started_iff, h.open_results⟩
  | rearm =>
      refine ⟨_, hshows.rearm, fits_blank rfl ?_ ?_⟩
      · rw [label_map]
        rfl
      · rw [label_map]
        rfl
  | edit f => exact ⟨b, ⟨hshows.arena, hshows.nodup⟩, hrests.of_state rfl⟩

end Ledger

namespace Tree

variable [Behavior L δ] {t : Tree L} {b : Branch (Node L)}

/-- **A tree that has come to its end waits to be rearmed**: any other call leaves its nodes alone,
and it does not come back from its end. -/
theorem perform_of_terminal (h : t.state.isTerminal = true) {call : Call δ}
    (hcall : call ≠ .rearm) :
    (t.perform call).2 = [] ∧ (t.perform call).1.arena = t.arena ∧
      (t.perform call).1.state.isTerminal = true ∧ (t.reply call).polled? = none := by
  cases call with
  | start =>
      rw [perform, reply, start]
      cases t.board with
      | none => exact ⟨rfl, rfl, h, rfl⟩
      | some board => exact ⟨rfl, rfl, h, rfl⟩
  | update driver =>
      cases hboard : t.board with
      | none =>
          have hupdate : t.update driver = .error .notStarted := by rw [update, hboard]
          rw [perform, reply, hupdate]
          exact ⟨rfl, rfl, h, rfl⟩
      | some board =>
          rw [perform, reply, update_of_terminal hboard h]
          exact ⟨rfl, rfl, h, rfl⟩
  | halt => exact ⟨rfl, rfl, rfl, rfl⟩
  | rearm => exact absurd rfl hcall
  | edit f => exact ⟨rfl, rfl, h, rfl⟩

/-! ## Runs -/

/-- The ledger is kept up in the course of a run. -/
lemma fits_ledgerFrom {l : Ledger} (h : l.Fits t b.label) (hshows : t.Shows b)
    (calls : List (Call δ)) :
    ∃ c, (t.performAll calls).1.Shows c ∧
      (t.ledgerFrom l calls).Fits (t.performAll calls).1 c.label := by
  induction calls generalizing t l b with
  | nil => exact ⟨b, hshows, h⟩
  | cons call calls ih =>
      obtain ⟨c, hc, hfits⟩ := h.perform hshows call
      exact ih hfits hc

/-- What has come to its end rests until it is rearmed. -/
lemma performAll_of_terminal (h : t.state.isTerminal = true) {calls : List (Call δ)}
    (hrearm : .rearm ∉ calls) :
    (t.performAll calls).2 = [] ∧ (t.performAll calls).1.arena = t.arena ∧
      (t.performAll calls).1.state.isTerminal = true ∧
        ∀ r ∈ t.replies calls, r.polled? = none := by
  induction calls generalizing t with
  | nil => exact ⟨rfl, rfl, h, fun r hr => absurd hr List.not_mem_nil⟩
  | cons call calls ih =>
      rw [List.mem_cons, not_or] at hrearm
      obtain ⟨hnow, harena, hstate, hreply⟩ := perform_of_terminal h (Ne.symm hrearm.1)
      obtain ⟨hlater, harenas, hstates, hreplies⟩ := ih hstate hrearm.2
      exact ⟨congrArg₂ (· ++ ·) hnow hlater, harenas.trans harena, hstates,
        List.forall_mem_cons.mpr ⟨hreply, hreplies⟩⟩

/-- Updates of a tree that has come to its end answer with its result. -/
lemma updates_of_terminal {board : Blackboard} (hboard : t.board = some board)
    (hstate : t.state.isTerminal = true) (drivers : List δ) :
    t.performAll (drivers.map .update) = (t, []) ∧
      t.replies (drivers.map .update) = drivers.map fun d => .updated t.state d [] := by
  have hupdate := update_of_terminal hboard hstate (δ := δ)
  induction drivers with
  | nil => exact ⟨rfl, rfl⟩
  | cons driver drivers ih =>
      rw [List.map_cons, performAll, replies, perform, reply, hupdate]
      exact ⟨congrArg (fun later => (later.1, [] ++ later.2)) ih.1, congrArg _ ih.2⟩

/-- A tree is started by a call of `start` and by nothing else. -/
lemma board_performAll_eq_none (hboard : t.board = none) {calls : List (Call δ)}
    (hstart : .start ∉ calls) : (t.performAll calls).1.board = none := by
  induction calls generalizing t with
  | nil => exact hboard
  | cons call calls ih =>
      rw [List.mem_cons, not_or] at hstart
      refine ih ?_ hstart.2
      cases call with
      | start => exact absurd rfl hstart.1
      | update driver => simp only [update, hboard]
      | edit f => simp only [editBoard, hboard, Option.map_none]
      | _ => exact hboard

lemma isStarted_of_start {calls : List (Call δ)} (hstart : .start ∈ calls) :
    (t.performAll calls).1.isStarted = true := by
  obtain ⟨before, after, rfl⟩ := List.append_of_mem hstart
  rw [performAll_append]
  refine isStarted_performAll (t := ((t.performAll before).1.perform .start).1) ?_ after
  rw [perform, start]
  cases hboard : (t.performAll before).1.board with
  | none => rfl
  | some board => simp only [isStarted, hboard, Option.isSome_some]

/-- How a tree stands after a run, and what it answers then. -/
structure KeepsLedger (t : Tree L) (calls : List (Call δ)) : Prop where
  /-- The cached state and the root are as the ledger of the run has it. -/
  root : ∃ slot, (t.performAll calls).1.arena[0]? = some slot ∧
    (t.ledger calls).Fits (t.performAll calls).1 slot.label
  /-- Updates of a tree that has come to its end change nothing at all, and no hook is called. -/
  inert {board : Blackboard} : (t.performAll calls).1.board = some board →
    (t.performAll calls).1.state.isTerminal = true → ∀ drivers : List δ,
      (t.performAll calls).1.performAll (drivers.map .update) = ((t.performAll calls).1, []) ∧
        (t.performAll calls).1.replies (drivers.map .update) =
          drivers.map fun d => .updated (t.performAll calls).1.state d []
  /-- Without a rearming its nodes are never polled again, whatever it is asked for. -/
  ended : (t.performAll calls).1.state.isTerminal = true → ∀ later : List (Call δ),
    .rearm ∉ later →
      ((t.performAll calls).1.performAll later).2 = [] ∧
      ((t.performAll calls).1.performAll later).1.arena = (t.performAll calls).1.arena ∧
      ((t.performAll calls).1.performAll later).1.state.isTerminal = true ∧
      ∀ r ∈ (t.performAll calls).1.replies later, r.polled? = none
  /-- After a rearming they are, by the next update. -/
  rearmed {board : Blackboard} : (t.performAll calls).1.board = some board → ∀ driver : δ,
    ((t.performAll calls).1.rearm.reply (.update driver)).polled?.isSome = true
  /-- A tree that has been started refuses to be started. -/
  twice : .start ∈ calls →
    (t.performAll calls).1.reply (.start : Call δ) = .refused .startedTwice ∧
      (t.performAll calls).1.perform (.start : Call δ) = ((t.performAll calls).1, [])
  /-- A tree that has not been started refuses to be updated. -/
  early : .start ∉ calls → ∀ driver : δ,
    (t.performAll calls).1.reply (.update driver) = .refused .notStarted ∧
      (t.performAll calls).1.perform (.update driver) = ((t.performAll calls).1, [])

/-- **Cached state, halt and inertness.**  In every run of a fresh tree the cached state is a
failure if the tree has been halted since it was last rearmed, and what its root has recorded
otherwise; an activation of the root is under way exactly if the tree has been polled since then
and all polls have asked for another one.  Once the cached state is terminal nothing but a rearming
makes the tree run again. -/
theorem Fresh.keepsLedger (h : t.Fresh) (calls : List (Call δ)) : t.KeepsLedger calls := by
  obtain ⟨b, hb⟩ := h.pristine
  have hroot := hb.state_eq_fresh b.label_mem_labels
  have hblank : Ledger.blank.Fits t b.label :=
    Ledger.fits_blank hb.state (congrArg NodeState.current hroot) (congrArg NodeState.started hroot)
  obtain ⟨c, hc, hfits⟩ := fits_ledgerFrom hblank hb.toShows calls
  refine ⟨?_, fun hboard hstate => updates_of_terminal hboard hstate,
    fun hstate later => performAll_of_terminal hstate, fun hboard driver => ?_, fun hstart => ?_,
    fun hstart driver => ?_⟩
  · obtain ⟨n, ts⟩ := c
    exact ⟨_, congrArg (fun a => a[0]?) hc.arena, hfits⟩
  · rw [reply, hc.rearm.update hboard rfl, Reply.polled?_poll]
    rfl
  · obtain ⟨board, hboard⟩ := Option.isSome_iff_exists.mp (isStarted_of_start hstart (t := t))
    rw [reply, perform, start, hboard]
    exact ⟨rfl, rfl⟩
  · rw [reply, perform, update, board_performAll_eq_none hb.board hstart]
    exact ⟨rfl, rfl⟩

/-- A repeat over a leaf that never ends is halted, and left as it is until it is rearmed. -/
theorem keepsLedger_halted :
    let t : Tree Constant := ofBranch (.node (.fresh ⟨0⟩ .root)
      [.node (.fresh ⟨1⟩ (.decorator .repeat false)) [.node (.fresh ⟨2⟩ (.leaf .running)) []]])
    let halted : List (Call Unit) := [.start, .update (), .update (), .halt, .update ()]
    let calls := halted ++ [.rearm, .update ()]
    Tree.build .standard (some (.decorate .repeat (.leaf none Constant.running))) = .ok t ∧
      t.ledger halted = ⟨true, [.running, .running]⟩ ∧ t.KeepsLedger halted ∧
      (t.performAll halted).1.state = .failure ∧
      (t.performAll halted).1.arena.all (·.label.state.started) = true ∧
      t.ledger calls = ⟨false, [.running]⟩ ∧ t.KeepsLedger calls ∧
      (t.performAll calls).1.state = .running := by
  intro t halted calls
  have hbuild : Tree.build .standard (some (.decorate .repeat (.leaf none Constant.running))) =
      .ok t := rfl
  have hfresh := Fresh.built .standard _ hbuild
  exact ⟨hbuild, by decide +kernel, hfresh.keepsLedger halted, by decide +kernel,
    by decide +kernel, by decide +kernel, hfresh.keepsLedger calls, by decide +kernel⟩

end Tree

end BehaviorTree
