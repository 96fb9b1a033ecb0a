import BehaviorTree.Proofs.Runs

/-!
# The life of a leaf

A leaf sees nothing of a run but the calls of its hooks.  `Lifecycle` says what they look like,
whatever the tree and whatever its owner does: they come in activations, an activation ends with
the one stop that follows a terminal update at once, and a leaf that is started again without a stop
has been put back by a rearming or by a failed reset above it.

A `Watch` follows one leaf through a run and keeps its `Phase` and the number of its starts.
`Watch.Run` lets the watch go on only in the ways that a lifecycle allows, so the proof has two
halves.

* **`Watch.Run.lifecycle`** — a run that a watch can follow is a lifecycle.
* **`Branch.poll_followed`** — a watch can follow every poll of a nested tree, and afterwards it
  agrees with what the engine has recorded at the leaf (`Watch.Agrees`).

`Tree.Fresh.leaf_lifecycle` puts them together.
-/

namespace BehaviorTree

open Branch

variable {L δ : Type}

/-! ## Lifecycles -/

/-- The hook call that a moment is, if it is one of the given leaf. -/
def Moment.hookOf? (x : NodeId) : Moment → Option HookCall
  | .event (.hook id call) => if id = x then some call else none
  | _ => none

/-- The hook calls that a leaf receives in the course of a run. -/
def hooksOf (x : NodeId) (log : List Moment) : List HookCall := log.filterMap (Moment.hookOf? x)

/-- Whether a hook call begins an activation. -/
def HookCall.isStart : HookCall → Bool
  | start _ => true
  | _ => false

/-- How many activations of a leaf begin in the course of a run. -/
def startsOf (x : NodeId) (log : List Moment) : Nat := (hooksOf x log).countP HookCall.isStart

/-- The hook calls of one activation. -/
inductive IsActivation : List HookCall → Prop
  /-- An activation that is under way, or that was broken off: the leaf goes on running. -/
  | unfinished (first : Bool) (k : Nat) :
    IsActivation (.start first :: .replicate (k + 1) (.update .running))
  /-- An activation that came to its end: a terminal update, and the stop. -/
  | finished (first : Bool) (k : Nat) {s : Status} : s.isTerminal = true →
    IsActivation (.start first :: .replicate k (.update .running) ++ [.update s, .stop])

/-- Whether a moment breaks off the activation of a leaf: a rearming, or a failure of one of the
resets above it. -/
def Interrupts (above : NodeId → Prop) : Moment → Prop
  | .rearm => True
  | .event (.leave r status) => above r ∧ status = .failure
  | _ => False

/-- What the hook calls of a leaf look like in the course of a run. -/
structure Lifecycle (x : NodeId) (above : NodeId → Prop) (log : List Moment) : Prop where
  /-- They come in activations. -/
  activations : ∃ acts : List (List HookCall),
    (∀ a ∈ acts, IsActivation a) ∧ hooksOf x log = acts.flatten
  /-- The stop follows a terminal update at once. -/
  stop_next : ∀ {pre post : List Moment} {s : Status},
    log = pre ++ .event (.hook x (.update s)) :: post → s.isTerminal = true →
    ∃ rest, post = .event (.hook x .stop) :: rest
  /-- There is no other stop. -/
  stop_only : ∀ {pre post : List Moment}, log = pre ++ .event (.hook x .stop) :: post →
    ∃ before s, s.isTerminal = true ∧ pre = before ++ [.event (.hook x (.update s))]
  /-- If the last call before a start is not a stop, something has broken off the activation
  since. -/
  restart : ∀ {before gap post : List Moment} {call : HookCall} {first : Bool},
    log = before ++ .event (.hook x call) :: gap ++ .event (.hook x (.start first)) :: post →
    hooksOf x gap = [] → call ≠ .stop → ∃ m ∈ gap, Interrupts above m
  /-- A start is announced as the first one exactly if no start came before it. -/
  first_iff : ∀ {pre post : List Moment} {first : Bool},
    log = pre ++ .event (.hook x (.start first)) :: post → (first = true ↔ startsOf x pre = 0)

lemma hooksOf_append (x : NodeId) (ms ns : List Moment) :
    hooksOf x (ms ++ ns) = hooksOf x ms ++ hooksOf x ns := List.filterMap_append

lemma startsOf_append (x : NodeId) (ms ns : List Moment) :
    startsOf x (ms ++ ns) = startsOf x ms + startsOf x ns := by
  rw [startsOf, hooksOf_append, List.countP_append]
  rfl

lemma hooksOf_cons (x : NodeId) (m : Moment) (ms : List Moment) :
    hooksOf x (m :: ms) = hooksOf x [m] ++ hooksOf x ms := hooksOf_append x [m] ms

@[simp] lemma hookOf?_hook (x : NodeId) (call : HookCall) :
    Moment.hookOf? x (.event (.hook x call)) = some call := by
  simp [Moment.hookOf?]

lemma hooksOf_hook (x : NodeId) (call : HookCall) :
    hooksOf x [.event (.hook x call)] = [call] := by
  simp [hooksOf]

lemma hooksOf_of_none {x : NodeId} {m : Moment} (h : m.hookOf? x = none) : hooksOf x [m] = [] := by
  simp [hooksOf, h]

/-! ## Watches -/

/-- How far the latest activation of a leaf has got.  When it has begun, the first update is due at
once, and when it is over, the stop is. -/
inductive Phase
  | idle
  | begun
  | running
  | over
  deriving DecidableEq

/-- What is known of a leaf in the course of a run: the phase of its latest activation, and how many
activations have begun. -/
structure Watch where
  phase : Phase
  starts : Nat

namespace Watch

def new : Watch := ⟨.idle, 0⟩

/-- No call of a hook of the leaf has to follow at once. -/
def Settled (w : Watch) : Prop := w.phase = .idle ∨ w.phase = .running

variable {x : NodeId} {above : NodeId → Prop} {w v u : Watch} {m : Moment} {ms ns : List Moment}

lemma Settled.ne_over (hw : w.Settled) : w.phase ≠ .over := by
  intro hover
  rcases hw with h | h
  · rw [h] at hover
    cases hover
  · rw [h] at hover
    cases hover

/-- The ways in which the life of a leaf can go on: an activation begins, is polled, ends and is
stopped, or it is broken off, or something happens elsewhere. -/
inductive Step (x : NodeId) (above : NodeId → Prop) : Watch → Moment → Watch → Prop
  | begins (n : Nat) : Step x above ⟨.idle, n⟩ (.event (.hook x (.start (n == 0)))) ⟨.begun, n + 1⟩
  | goesOn {p : Phase} (n : Nat) : p = .begun ∨ p = .running →
    Step x above ⟨p, n⟩ (.event (.hook x (.update .running))) ⟨.running, n⟩
  | ends {p : Phase} (n : Nat) {s : Status} : p = .begun ∨ p = .running → s.isTerminal = true →
    Step x above ⟨p, n⟩ (.event (.hook x (.update s))) ⟨.over, n⟩
  | stops (n : Nat) : Step x above ⟨.over, n⟩ (.event (.hook x .stop)) ⟨.idle, n⟩
  | breaksOff {w : Watch} {m : Moment} : w.Settled → m.hookOf? x = none → Interrupts above m →
    Step x above w m ⟨.idle, w.starts⟩
  | passes {w : Watch} {m : Moment} : w.Settled → m.hookOf? x = none → Step x above w m w

/-! ### What a step tells of the phases around it -/

namespace Step

variable {call : HookCall} {s : Status} {first : Bool}

lemma of_start (h : Step x above w (.event (.hook x (.start first))) v) :
    w.phase = .idle ∧ (first = true ↔ w.starts = 0) := by
  cases h with
  | begins n => exact ⟨rfl, beq_iff_eq⟩
  | breaksOff _ hnone => simp at hnone
  | passes _ hnone => simp at hnone

lemma over_of_terminal (h : Step x above w (.event (.hook x (.update s))) v)
    (hs : s.isTerminal = true) : v.phase = .over := by
  cases h with
  | goesOn => cases hs
  | ends => rfl
  | breaksOff _ hnone => simp at hnone
  | passes _ hnone => simp at hnone

lemma over_of_stop (h : Step x above w (.event (.hook x .stop)) v) : w.phase = .over := by
  cases h with
  | stops => rfl
  | breaksOff _ hnone => simp at hnone
  | passes _ hnone => simp at hnone

/-- Every call but the stop leaves the activation under way. -/
lemma ne_idle (h : Step x above w (.event (.hook x call)) v) (hcall : call ≠ .stop) :
    v.phase ≠ .idle := by
  cases h with
  | begins => simp
  | goesOn => simp
  | ends => simp
  | stops => exact absurd rfl hcall
  | breaksOff _ hnone => simp at hnone
  | passes _ hnone => simp at hnone

/-- Only a terminal update ends an activation. -/
lemma exists_terminal (h : Step x above w m v) (hv : v.phase = .over) :
    ∃ s, s.isTerminal = true ∧ m = .event (.hook x (.update s)) := by
  cases h with
  | begins => cases hv
  | goesOn => cases hv
  | ends _ _ hs => exact ⟨_, hs, rfl⟩
  | stops => cases hv
  | breaksOff => cases hv
  | passes hsettled => exact absurd hv hsettled.ne_over

/-- When an activation is over, the stop is the only way on. -/
lemma eq_stop (h : Step x above w m v) (hw : w.phase = .over) : m = .event (.hook x .stop) := by
  cases h with
  | begins => cases hw
  | goesOn _ hp => rcases hp with rfl | rfl <;> cases hw
  | ends _ hp => rcases hp with rfl | rfl <;> cases hw
  | stops => rfl
  | breaksOff hsettled => exact absurd hw hsettled.ne_over
  | passes hsettled => exact absurd hw hsettled.ne_over

lemma starts_eq (h : Step x above w m v) : v.starts = w.starts + startsOf x [m] := by
  cases h with
  | begins => rw [startsOf, hooksOf_hook]; rfl
  | goesOn => rw [startsOf, hooksOf_hook]; rfl
  | ends => rw [startsOf, hooksOf_hook]; rfl
  | stops => rw [startsOf, hooksOf_hook]; rfl
  | breaksOff _ hnone _ => rw [startsOf, hooksOf_of_none hnone]; rfl
  | passes _ hnone => rw [startsOf, hooksOf_of_none hnone]; rfl

end Step

/-- The ways in which the life of a leaf can go on for a while. -/
inductive Run (x : NodeId) (above : NodeId → Prop) : Watch → List Moment → Watch → Prop
  | nil (w : Watch) : Run x above w [] w
  | cons {w v u : Watch} {m : Moment} {ms : List Moment} :
    Step x above w m v → Run x above v ms u → Run x above w (m :: ms) u

namespace Run

lemma append (h : Run x above w ms v) (h' : Run x above v ns u) : Run x above w (ms ++ ns) u := by
  induction h with
  | nil => exact h'
  | cons hm _ ih => exact .cons hm (ih h')

lemma split (h : Run x above w (ms ++ ns) u) :
    ∃ v, Run x above w ms v ∧ Run x above v ns u := by
  induction ms generalizing w with
  | nil => exact ⟨w, .nil w, h⟩
  | cons m ms ih =>
      cases h with
      | cons hm hms =>
          obtain ⟨v, hv, hu⟩ := ih hms
          exact ⟨v, .cons hm hv, hu⟩

/-- A run up to a moment, the moment, and the run from there on. -/
lemma split_at (h : Run x above w (ms ++ m :: ns) u) :
    ∃ v v', Run x above w ms v ∧ Step x above v m v' ∧ Run x above v' ns u := by
  obtain ⟨v, hv, hrest⟩ := h.split
  cases hrest with
  | cons hm hns => exact ⟨v, _, hv, hm, hns⟩

lemma single (h : Step x above w m v) : Run x above w [m] v := .cons h (.nil v)

/-- What happens elsewhere leaves the leaf alone. -/
lemma elsewhere (hw : w.Settled) (h : ∀ m ∈ ms, m.hookOf? x = none) : Run x above w ms w := by
  induction ms with
  | nil => exact .nil w
  | cons m ms ih =>
      exact .cons (.passes hw (h m List.mem_cons_self))
        (ih fun n hn => h n (List.mem_cons_of_mem _ hn))

/-- The watch counts the starts. -/
lemma starts_eq (h : Run x above w ms v) : v.starts = w.starts + startsOf x ms := by
  induction h with
  | nil => rfl
  | @cons w v u m ms hm _ ih =>
      have hstarts : startsOf x (m :: ms) = startsOf x [m] + startsOf x ms :=
        startsOf_append x [m] ms
      rw [ih, hm.starts_eq, hstarts, Nat.add_assoc]

/-- An activation that is under way does not vanish unless something breaks it off. -/
lemma exists_interrupts (h : Run x above w ms v) (hhooks : hooksOf x ms = [])
    (hw : w.phase ≠ .idle) (hv : v.phase = .idle) : ∃ m ∈ ms, Interrupts above m := by
  induction h with
  | nil => exact absurd hv hw
  | @cons w v u m ms hm _ ih =>
      rw [hooksOf_cons, List.append_eq_nil_iff] at hhooks
      cases hm with
      | begins => simp [hooksOf_hook] at hhooks
      | goesOn => simp [hooksOf_hook] at hhooks
      | ends => simp [hooksOf_hook] at hhooks
      | stops => simp [hooksOf_hook] at hhooks
      | breaksOff _ _ hint => exact ⟨m, List.mem_cons_self, hint⟩
      | passes _ _ =>
          obtain ⟨m', hm', hint⟩ := ih hhooks.2 hw hv
          exact ⟨m', List.mem_cons_of_mem _ hm', hint⟩

end Run

/-- The hook calls so far, by how far the latest activation has got. -/
def History : Phase → List HookCall → Prop
  | .idle, calls => ∃ acts : List (List HookCall),
    (∀ a ∈ acts, IsActivation a) ∧ calls = acts.flatten
  | .begun, calls => ∃ (acts : List (List HookCall)) (first : Bool),
    (∀ a ∈ acts, IsActivation a) ∧ calls = acts.flatten ++ [.start first]
  | .running, calls => ∃ (acts : List (List HookCall)) (first : Bool) (k : Nat),
    (∀ a ∈ acts, IsActivation a) ∧
      calls = acts.flatten ++ (.start first :: .replicate (k + 1) (.update .running))
  | .over, calls => ∃ (acts : List (List HookCall)) (first : Bool) (k : Nat) (s : Status),
    (∀ a ∈ acts, IsActivation a) ∧ s.isTerminal = true ∧
      calls = acts.flatten ++ (.start first :: .replicate k (.update .running) ++ [.update s])

/-- A list of activations with one more behind it. -/
lemma isActivation_snoc {acts : List (List HookCall)} {a : List HookCall}
    (hacts : ∀ a ∈ acts, IsActivation a) (ha : IsActivation a) :
    ∀ a' ∈ acts ++ [a], IsActivation a' := by
  intro a' ha'
  rcases List.mem_append.mp ha' with h | h
  · exact hacts a' h
  · rw [List.mem_singleton.mp h]
    exact ha

/-- An activation under way is an activation. -/
lemma History.idle_of_running {calls : List HookCall} (h : History .running calls) :
    History .idle calls := by
  obtain ⟨acts, first, k, hacts, rfl⟩ := h
  exact ⟨acts ++ [_], isActivation_snoc hacts (.unfinished first k), by simp⟩

lemma History.idle_of_settled {calls : List HookCall} (hw : w.Settled)
    (h : History w.phase calls) : History .idle calls := by
  rcases hw with hp | hp
  · rwa [hp] at h
  · rw [hp] at h
    exact h.idle_of_running

/-- A step of the watch is a step of the history. -/
lemma Step.history {calls : List HookCall} (h : Step x above w m v)
    (hw : History w.phase calls) : History v.phase (calls ++ hooksOf x [m]) := by
  cases h with
  | begins n =>
      obtain ⟨acts, hacts, rfl⟩ := hw
      exact ⟨acts, _, hacts, by rw [hooksOf_hook]⟩
  | @goesOn p n hp =>
      rw [hooksOf_hook]
      rcases hp with rfl | rfl
      · obtain ⟨acts, first, hacts, rfl⟩ := hw
        exact ⟨acts, first, 0, hacts, by simp⟩
      · obtain ⟨acts, first, k, hacts, rfl⟩ := hw
        refine ⟨acts, first, k + 1, hacts, ?_⟩
        rw [List.replicate_succ' (n := k + 1)]
        simp
  | @ends p n s hp hs =>
      rw [hooksOf_hook]
      rcases hp with rfl | rfl
      · obtain ⟨acts, first, hacts, rfl⟩ := hw
        exact ⟨acts, first, 0, s, hacts, hs, by simp⟩
      · obtain ⟨acts, first, k, hacts, rfl⟩ := hw
        exact ⟨acts, first, k + 1, s, hacts, hs, by simp⟩
  | stops n =>
      obtain ⟨acts, first, k, s, hacts, hs, rfl⟩ := hw
      refine ⟨acts ++ [_], isActivation_snoc hacts (.finished first k hs), ?_⟩
      rw [hooksOf_hook]
      simp
  | breaksOff hsettled hnone _ =>
      rw [hooksOf_of_none hnone, List.append_nil]
      exact History.idle_of_settled hsettled hw
  | passes _ hnone =>
      rw [hooksOf_of_none hnone, List.append_nil]
      exact hw

lemma Run.history {calls : List HookCall} (h : Run x above w ms v)
    (hw : History w.phase calls) : History v.phase (calls ++ hooksOf x ms) := by
  induction h generalizing calls with
  | nil => simpa [hooksOf] using hw
  | @cons w v u m ms hm _ ih =>
      rw [hooksOf_cons, ← List.append_assoc]
      exact ih (hm.history hw)

/-- A leaf is about to be stopped only right after a terminal update. -/
lemma Run.terminal_of_over (h : Run x above w ms v) (hw : w.phase = .idle) (hv : v.phase = .over) :
    ∃ before s, s.isTerminal = true ∧ ms = before ++ [.event (.hook x (.update s))] := by
  rcases List.eq_nil_or_concat ms with rfl | ⟨before, m, rfl⟩
  · cases h
    rw [hw] at hv
    cases hv
  · rw [List.concat_eq_append] at h ⊢
    obtain ⟨v₁, v₂, _, hm, hend⟩ := h.split_at
    cases hend
    obtain ⟨s, hs, rfl⟩ := hm.exists_terminal hv
    exact ⟨before, s, hs, rfl⟩

/-- **A run that a watch can follow is a lifecycle.** -/
theorem Run.lifecycle (h : Run x above new ms v) (hv : v.Settled) : Lifecycle x above ms where
  activations := by
    have hend : History v.phase ([] ++ hooksOf x ms) := h.history ⟨[], by simp, rfl⟩
    exact History.idle_of_settled hv hend
  stop_next := by
    rintro pre post s rfl hs
    obtain ⟨u₁, u₂, _, hm, hrest⟩ := h.split_at
    have hover := hm.over_of_terminal hs
    -- the run cannot end here, and only a stop leads on
    cases hrest with
    | nil => exact absurd hover hv.ne_over
    | cons hnext _ =>
        rw [hnext.eq_stop hover]
        exact ⟨_, rfl⟩
  stop_only := by
    rintro pre post rfl
    obtain ⟨u₁, u₂, hpre, hm, _⟩ := h.split_at
    exact hpre.terminal_of_over rfl hm.over_of_stop
  restart := by
    rintro before gap post call first rfl hgap hcall
    obtain ⟨u₁, u₂, hpre, hm, _⟩ := h.split_at
    obtain ⟨v₁, v₂, _, hlast, hbetween⟩ := hpre.split_at
    exact hbetween.exists_interrupts hgap (hlast.ne_idle hcall) hm.of_start.1
  first_iff := by
    rintro pre post first rfl
    obtain ⟨u₁, u₂, hpre, hm, _⟩ := h.split_at
    have hstarts := hpre.starts_eq
    rw [show (new).starts = 0 from rfl, Nat.zero_add] at hstarts
    rw [hm.of_start.2, hstarts]

end Watch

end BehaviorTree
