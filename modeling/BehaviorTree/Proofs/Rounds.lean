import BehaviorTree.Composite
import BehaviorTree.Trace
import Mathlib.Data.List.Chain
import Mathlib.Data.List.Range

/-!
# The account of a composite's activation

An activation of a composite goes through its children over any number of its own polls, which are
counted as **rounds**.  What is to be seen of it are the polls of children (`ChildPoll`), and
between two rounds the end of one poll of the composite and the beginning of the next (`told`).

* `Course` and `Course.Possible` — an activation under way, and the steps by which it can go on: a
  new round begins, the child in turn asks for another poll, or it is left behind.
* `Concluded` — the steps by which it can come to its end.
* `CompositeActivation` — what a whole activation has to be.  **`Concluded.activation`**: it is
  that.
* `Accounted` — every activation that a trace shows from its start to its end is one.
  **`Accounted.extend`** and **`Accounted.conclude`** carry this over a longer trace.
-/

namespace BehaviorTree

/-- The terminal outcome of a child that ends a composite at once. -/
def CompositeKind.opposite (kind : CompositeKind) : Status := kind.advancesOn.invert

/-- A poll of a child in the course of an activation of a composite. -/
structure ChildPoll where
  /-- The poll of the composite to which it belongs, counted from the start of the activation. -/
  round : Nat
  /-- The place of the child. -/
  index : Nat
  id : NodeId
  /-- Whether the child begins an activation. -/
  begins : Bool
  status : Status

/-- The child is entered, it may begin an activation, and its poll ends. -/
def ChildPoll.events (p : ChildPoll) : Trace :=
  .enter p.id :: (if p.begins then [.start p.id] else []) ++ [.leave p.id p.status]

/-- What polls of children look like from a round on.  Where the round changes, one poll of the
composite `x` ends and the next one begins. -/
def told (x : NodeId) : Nat → List ChildPoll → Trace
  | _, [] => []
  | round, p :: ps =>
    (if p.round = round then [] else [.leave x .running, .enter x]) ++ p.events ++ told x p.round ps

/-- Which poll of a child may come next: of the same child in the next round if it was running, and
of the next child if it was left behind, in the same round exactly if the composite cascades. -/
inductive Follows (kind : CompositeKind) (cascade : Bool) : ChildPoll → ChildPoll → Prop
  | resumes {p q : ChildPoll} : p.status = .running → q.round = p.round + 1 → q.index = p.index →
    q.begins = false → Follows kind cascade p q
  | advances {p q : ChildPoll} : p.status = kind.advancesOn →
    q.round = (if cascade then p.round else p.round + 1) → q.index = p.index + 1 →
    q.begins = true → Follows kind cascade p q

/-- What an activation of a composite with the given children is, from its start to its result. -/
structure CompositeActivation (kind : CompositeKind) (cascade : Bool) (children : List NodeId)
    (polls : List ChildPoll) (result : Status) : Prop where
  child {p : ChildPoll} : p ∈ polls → children[p.index]? = some p.id
  /-- The first child comes first, and it starts. -/
  first {p : ChildPoll} : polls.head? = some p → p.round = 0 ∧ p.index = 0 ∧ p.begins = true
  /-- No child is skipped, and each of them comes when it may. -/
  order : polls.IsChain (Follows kind cascade)
  /-- The children that are polled are the first so many.  Each of them starts once and ends once,
  one after the other. -/
  once : ∃ count, (∀ p ∈ polls, p.index < count) ∧
    (polls.filter ChildPoll.begins).map ChildPoll.index = List.range count ∧
    (polls.filter fun p => p.status.isTerminal).map ChildPoll.index = List.range count
  opposite_iff : result = kind.opposite ↔
    ∃ p, polls.getLast? = some p ∧ p.status = kind.opposite
  advancesOn_iff : result = kind.advancesOn ↔
    ∀ j < children.length, ∃ p ∈ polls, p.index = j ∧ p.status = kind.advancesOn

/-! ## Activations under way -/

/-- An activation of a composite under way. -/
structure Course where
  /-- What has been seen since the start. -/
  trace : Trace
  polls : List ChildPoll
  round : Nat
  /-- The place of the child in turn. -/
  next : Nat
  /-- Whether the child in turn has begun an activation. -/
  begun : Bool
  /-- Whether the poll of the composite has ended, and the next round has not begun. -/
  paused : Bool

namespace Course

/-- The activation has just begun. -/
def new : Course := ⟨[], [], 0, 0, false, false⟩

/-- The poll of the child in turn. -/
def poll (c : Course) (id : NodeId) (status : Status) : ChildPoll :=
  ⟨c.round, c.next, id, !c.begun, status⟩

/-- The next round begins. -/
def resume (x : NodeId) (c : Course) : Course :=
  { c with trace := c.trace ++ [.enter x], round := c.round + 1, paused := false }

/-- The child in turn asks for another poll. -/
def wait (x id : NodeId) (c : Course) : Course :=
  { c with
    trace := c.trace ++ (c.poll id .running).events ++ [.leave x .running]
    polls := c.polls ++ [c.poll id .running]
    begun := true
    paused := true }

/-- The child in turn is left behind, and further children remain. -/
def pass (x id : NodeId) (kind : CompositeKind) (cascade : Bool) (c : Course) : Course :=
  { trace := c.trace ++ (c.poll id kind.advancesOn).events ++
      if cascade then [] else [.leave x .running]
    polls := c.polls ++ [c.poll id kind.advancesOn]
    round := c.round
    next := c.next + 1
    begun := false
    paused := !cascade }

/-- How an activation can come about. -/
inductive Possible (x : NodeId) (kind : CompositeKind) (cascade : Bool) (children : List NodeId) :
    Course → Prop
  | begins : Possible x kind cascade children new
  | resumes {c : Course} : Possible x kind cascade children c → c.paused = true →
    Possible x kind cascade children (c.resume x)
  | waits {c : Course} {id : NodeId} : Possible x kind cascade children c → c.paused = false →
    children[c.next]? = some id → Possible x kind cascade children (c.wait x id)
  | passes {c : Course} {id : NodeId} : Possible x kind cascade children c → c.paused = false →
    children[c.next]? = some id → c.next + 1 < children.length →
    Possible x kind cascade children (c.pass x id kind cascade)

end Course

/-- How an activation can come to its end, with what has been seen of it. -/
inductive Concluded (x : NodeId) (kind : CompositeKind) (cascade : Bool) (children : List NodeId) :
    Trace → List ChildPoll → Status → Prop
  /-- A child gives the result. -/
  | stops {c : Course} {id : NodeId} : c.Possible x kind cascade children → c.paused = false →
    children[c.next]? = some id →
    Concluded x kind cascade children (c.trace ++ (c.poll id kind.opposite).events)
      (c.polls ++ [c.poll id kind.opposite]) kind.opposite
  /-- The last child has been left behind. -/
  | ends {c : Course} {id : NodeId} : c.Possible x kind cascade children → c.paused = false →
    children[c.next]? = some id → c.next + 1 = children.length →
    Concluded x kind cascade children (c.trace ++ (c.poll id kind.advancesOn).events)
      (c.polls ++ [c.poll id kind.advancesOn]) kind.advancesOn
  /-- There are no children. -/
  | empty : children = [] → Concluded x kind cascade children [] [] kind.advancesOn

/-! ## What holds of an activation under way -/

/-- Where a poll follows another one, it is told behind it, in the same round or in a new one. -/
lemma told_snoc (x : NodeId) (p q : ChildPoll) (round : Nat) (ps : List ChildPoll) :
    told x round (ps ++ [p] ++ [q]) = told x round (ps ++ [p]) ++
      (if q.round = p.round then [] else [.leave x .running, .enter x]) ++ q.events := by
  induction ps generalizing round with
  | nil => simp [told]
  | cons p' ps ih =>
      simp only [List.cons_append] at ih ⊢
      rw [told, told, ih]
      simp only [List.append_assoc]

/-- The part of an activation that polls of the first so many children make up. -/
structure Recorded (x : NodeId) (kind : CompositeKind) (cascade : Bool) (children : List NodeId)
    (count : Nat) (polls : List ChildPoll) : Prop where
  child : ∀ p ∈ polls, children[p.index]? = some p.id
  first : ∀ p, polls.head? = some p → p.round = 0 ∧ p.index = 0 ∧ p.begins = true
  order : polls.IsChain (Follows kind cascade)
  below : ∀ p ∈ polls, p.index < count
  starts : (polls.filter ChildPoll.begins).map ChildPoll.index = List.range count

namespace Course

/-- The round of the next poll. -/
def upcoming (c : Course) : Nat := if c.paused then c.round + 1 else c.round

/-- What holds of an activation under way. -/
structure Sound (x : NodeId) (kind : CompositeKind) (cascade : Bool) (children : List NodeId)
    (c : Course) : Prop where
  recorded : Recorded x kind cascade children (c.next + c.begun.toNat) c.polls
  /-- The child in turn comes next. -/
  due : ∀ p, c.polls.getLast? = some p → ∀ id status,
    Follows kind cascade p ⟨c.upcoming, c.next, id, !c.begun, status⟩
  fresh : c.polls = [] → c.upcoming = 0 ∧ c.next = 0 ∧ c.begun = false
  tells : ∀ p, p.round = c.upcoming →
    told x 0 (c.polls ++ [p]) = c.trace ++ (if c.paused then [.enter x] else []) ++ p.events
  ends : (c.polls.filter fun p => p.status.isTerminal).map ChildPoll.index = List.range c.next
  advanced : ∀ p ∈ c.polls, p.status = .running ∨ p.status = kind.advancesOn
  passed : ∀ j < c.next, ∃ p ∈ c.polls, p.index = j ∧ p.status = kind.advancesOn
  within : c = new ∨ c.next < children.length

variable {x : NodeId} {kind : CompositeKind} {cascade : Bool} {children : List NodeId} {c : Course}

/-- The poll of the child in turn makes up the part of one more child. -/
lemma Sound.record (h : c.Sound x kind cascade children) (hopen : c.paused = false) {id : NodeId}
    (hid : children[c.next]? = some id) (status : Status) :
    Recorded x kind cascade children (c.next + 1) (c.polls ++ [c.poll id status]) := by
  obtain ⟨⟨hchild, hfirst, horder, hbelow, hstarts⟩, hdue, hfresh, -, -, -, -, -⟩ := h
  have hround : c.upcoming = c.round := by rw [upcoming, hopen, if_neg Bool.false_ne_true]
  have hbegun := c.begun.toNat_le
  constructor
  case child =>
    rintro p hp
    rcases List.mem_append.mp hp with hp | hp
    · exact hchild p hp
    · rw [List.mem_singleton.mp hp]
      exact hid
  case first =>
    intro p hp
    cases hpolls : c.polls with
    | nil =>
        obtain ⟨hzero, hnext, hidle⟩ := hfresh hpolls
        rw [hpolls] at hp
        obtain rfl : c.poll id status = p := by simpa using hp
        exact ⟨hround.symm.trans hzero, hnext, by rw [poll, hidle]; rfl⟩
    | cons q qs =>
        rw [hpolls] at hp hfirst
        exact hfirst p (by simpa using hp)
  case order =>
    refine List.isChain_append.mpr ⟨horder, List.isChain_singleton _, ?_⟩
    intro p hp q hq
    obtain rfl : c.poll id status = q := by simpa using hq
    rw [poll, ← hround]
    exact hdue p hp id status
  case below =>
    intro p hp
    rcases List.mem_append.mp hp with hp | hp
    · have := hbelow p hp
      omega
    · rw [List.mem_singleton.mp hp]
      exact Nat.lt_succ_self c.next
  case starts =>
    rw [List.filter_append, List.map_append, hstarts]
    cases hb : c.begun with
    | true => simp [poll, hb]
    | false => simp [poll, hb, List.range_succ]

/-- What has been told once the child in turn has been polled. -/
lemma Sound.told_poll (h : c.Sound x kind cascade children) (hopen : c.paused = false)
    (id : NodeId) (status : Status) :
    told x 0 (c.polls ++ [c.poll id status]) =
      c.trace ++ (c.poll id status).events := by
  have htold := h.tells (c.poll id status) (by rw [upcoming, hopen]; rfl)
  rwa [hopen, if_neg Bool.false_ne_true, List.append_nil] at htold

lemma isTerminal_advancesOn (kind : CompositeKind) : kind.advancesOn.isTerminal = true := by
  cases kind <;> rfl

/-- **What holds of every activation under way.** -/
theorem Possible.sound (h : c.Possible x kind cascade children) :
    c.Sound x kind cascade children := by
  induction h with
  | begins =>
      exact ⟨⟨by simp [new], by simp [new], by simp [new], by simp [new], rfl⟩, by simp [new],
        fun _ => ⟨rfl, rfl, rfl⟩, fun p hp => by simp [new, told, hp, upcoming], rfl,
        by simp [new], by simp [new], .inl rfl⟩
  | @resumes c _ hpaused ih =>
      have hround : (c.resume x).upcoming = c.upcoming := by
        simp [resume, upcoming, hpaused]
      obtain ⟨hrecorded, hdue, hfresh, htold, hends, hadvanced, hpassed, hwithin⟩ := ih
      have hlt := hwithin.resolve_left fun heq => by rw [heq] at hpaused; cases hpaused
      refine ⟨hrecorded, ?_, ?_, fun p hp => ?_, hends, hadvanced, hpassed, .inr hlt⟩
      · rw [hround]
        exact hdue
      · rw [hround]
        exact hfresh
      · have hp' := htold p (hround ▸ hp)
        simpa [resume, hpaused] using hp'
  | @waits c id _ hopen hid ih =>
      have hrecorded := ih.record hopen hid .running
      have htold := ih.told_poll hopen id .running
      obtain ⟨-, -, -, -, hends, hadvanced, hpassed, -⟩ := ih
      constructor
      case recorded => exact hrecorded
      case due =>
        intro p hp id' status
        obtain rfl : c.poll id .running = p := by simpa [wait] using hp
        exact .resumes rfl rfl rfl rfl
      case fresh => simp [wait]
      case tells =>
        intro p hp
        have hne : p.round ≠ (c.poll id .running).round := by
          rw [hp]
          simp [wait, upcoming, poll]
        simp only [wait]
        rw [told_snoc, if_neg hne, htold]
        simp
      case ends => simpa [wait, poll, Status.isTerminal, Status.isRunning] using hends
      case advanced =>
        intro p hp
        rcases List.mem_append.mp hp with hp | hp
        · exact hadvanced p hp
        · rw [List.mem_singleton.mp hp]
          exact .inl rfl
      case passed =>
        intro j hj
        obtain ⟨p, hp, hindex⟩ := hpassed j hj
        exact ⟨p, List.mem_append_left _ hp, hindex⟩
      case within => exact .inr (List.getElem?_eq_some_iff.mp hid).1
  | @passes c id _ hopen hid hlt ih =>
      have hrecorded := ih.record hopen hid kind.advancesOn
      have htold := ih.told_poll hopen id kind.advancesOn
      obtain ⟨-, -, -, -, hends, hadvanced, hpassed, -⟩ := ih
      constructor
      case recorded => exact hrecorded
      case due =>
        intro p hp id' status
        obtain rfl : c.poll id kind.advancesOn = p := by simpa [pass] using hp
        refine .advances rfl ?_ rfl rfl
        cases cascade <;> rfl
      case fresh => simp [pass]
      case tells =>
        intro p hp
        simp only [pass] at hp ⊢
        rw [told_snoc, htold]
        cases cascade with
        | true => simp [hp, poll, upcoming]
        | false => simp [hp, poll, upcoming]
      case ends =>
        simp only [pass]
        rw [List.filter_append, List.map_append, hends, List.range_succ]
        simp [poll, isTerminal_advancesOn]
      case advanced =>
        intro p hp
        rcases List.mem_append.mp hp with hp | hp
        · exact hadvanced p hp
        · rw [List.mem_singleton.mp hp]
          exact .inr rfl
      case passed =>
        intro j hj
        simp only [pass] at hj ⊢
        rcases Nat.lt_succ_iff_lt_or_eq.mp hj with hj | rfl
        · obtain ⟨p, hp, hindex⟩ := hpassed j hj
          exact ⟨p, List.mem_append_left _ hp, hindex⟩
        · exact ⟨c.poll id kind.advancesOn, by simp, rfl, rfl⟩
      case within => exact .inr hlt

end Course

/-! ## Whole activations -/

section Concluded

variable {x : NodeId} {kind : CompositeKind} {cascade : Bool} {children : List NodeId}
  {trace : Trace} {polls : List ChildPoll} {result : Status}

lemma opposite_ne_advancesOn (kind : CompositeKind) : kind.opposite ≠ kind.advancesOn := by
  cases kind <;> simp [CompositeKind.opposite, CompositeKind.advancesOn, Status.invert]

lemma isTerminal_opposite (kind : CompositeKind) : kind.opposite.isTerminal = true := by
  cases kind <;> rfl

/-- The child in turn comes to its end, and so do the children before it. -/
lemma Course.Sound.ends_poll {c : Course} (h : c.Sound x kind cascade children) (id : NodeId)
    {status : Status} (hstatus : status.isTerminal = true) :
    ((c.polls ++ [c.poll id status]).filter fun p => p.status.isTerminal).map ChildPoll.index =
      List.range (c.next + 1) := by
  rw [List.filter_append, List.map_append, h.ends, List.range_succ]
  simp [Course.poll, hstatus]

/-- The child in turn gives the result. -/
lemma Course.Sound.activation {c : Course} (h : c.Sound x kind cascade children)
    (hopen : c.paused = false) {id : NodeId} (hid : children[c.next]? = some id)
    (hterminal : result.isTerminal = true)
    (hadvances : result = kind.advancesOn ↔ ∀ j < children.length,
      ∃ p ∈ c.polls ++ [c.poll id result], p.index = j ∧ p.status = kind.advancesOn) :
    c.trace ++ (c.poll id result).events = told x 0 (c.polls ++ [c.poll id result]) ∧
      CompositeActivation kind cascade children (c.polls ++ [c.poll id result]) result := by
  have hrecord := h.record hopen hid result
  refine ⟨(h.told_poll hopen id result).symm, ?_⟩
  constructor
  case child => exact fun hp => hrecord.child _ hp
  case first => exact fun hp => hrecord.first _ hp
  case order => exact hrecord.order
  case once => exact ⟨c.next + 1, hrecord.below, hrecord.starts, h.ends_poll id hterminal⟩
  case opposite_iff => simp [Course.poll]
  case advancesOn_iff => exact hadvances

/-- **An activation that has come to its end is what an activation has to be.** -/
theorem Concluded.activation (h : Concluded x kind cascade children trace polls result) :
    trace = told x 0 polls ∧ CompositeActivation kind cascade children polls result := by
  cases h with
  | @stops c id hc hopen hid =>
      have hsound := hc.sound
      refine hsound.activation hopen hid (isTerminal_opposite kind)
        (iff_of_false (opposite_ne_advancesOn kind) fun hall => ?_)
      obtain ⟨p, hp, hindex, hstatus⟩ := hall c.next (List.getElem?_eq_some_iff.mp hid).1
      rcases List.mem_append.mp hp with hp | hp
      · -- a child that has been left behind comes before the child in turn
        have hended : p.index ∈ (c.polls.filter fun p => p.status.isTerminal).map
            ChildPoll.index := by
          refine List.mem_map_of_mem (List.mem_filter.mpr ⟨hp, ?_⟩)
          rw [hstatus, Course.isTerminal_advancesOn]
        rw [hsound.ends, List.mem_range] at hended
        omega
      · rw [List.mem_singleton.mp hp] at hstatus
        exact opposite_ne_advancesOn kind hstatus
  | @ends c id hc hopen hid hlast =>
      have hsound := hc.sound
      refine hsound.activation hopen hid (Course.isTerminal_advancesOn kind)
        (iff_of_true rfl fun j hj => ?_)
      rw [← hlast] at hj
      rcases Nat.lt_succ_iff_lt_or_eq.mp hj with hj | rfl
      · obtain ⟨p, hp, hpassed⟩ := hsound.passed j hj
        exact ⟨p, List.mem_append_left _ hp, hpassed⟩
      · exact ⟨c.poll id kind.advancesOn, by simp, rfl, rfl⟩
  | empty hnone =>
      subst hnone
      refine ⟨rfl, ?_⟩
      constructor
      case child => exact fun hp => by cases hp
      case first => exact fun hp => by cases hp
      case order => exact .nil
      case once => exact ⟨0, by simp, rfl, rfl⟩
      case opposite_iff =>
        exact iff_of_false (opposite_ne_advancesOn kind).symm (by simp)
      case advancesOn_iff => exact iff_of_true rfl (by simp)

lemma Concluded.isTerminal (h : Concluded x kind cascade children trace polls result) :
    result.isTerminal = true := by
  cases h with
  | stops => exact isTerminal_opposite kind
  | ends | empty => exact Course.isTerminal_advancesOn kind

/-- The composite itself does not start again, and its polls end as running. -/
def Calm (x : NodeId) (trace : Trace) : Prop :=
  ∀ e ∈ trace, e ≠ .start x ∧ ∀ status, e = .leave x status → status = .running

lemma calm_append {s t : Trace} : Calm x (s ++ t) ↔ Calm x s ∧ Calm x t :=
  List.forall_mem_append

lemma Calm.leave {trace : Trace} (h : Calm x trace) (status : Status)
    (hmem : .leave x status ∈ trace) : status = .running := (h _ hmem).2 status rfl

lemma ChildPoll.calm_events {p : ChildPoll} (hp : p.id ≠ x) : Calm x p.events := by
  intro e he
  have hmem : e = .enter p.id ∨ e = .start p.id ∨ e = .leave p.id p.status := by
    rw [events] at he
    cases hb : p.begins <;> simp [hb] at he <;> tauto
  rcases hmem with rfl | rfl | rfl <;> simp [hp]

lemma ne_of_child (hx : x ∉ children) {id : NodeId} {k : Nat} (hid : children[k]? = some id) :
    id ≠ x := fun heq => hx (heq ▸ List.mem_of_getElem? hid)

lemma Course.Possible.calm {c : Course} (h : c.Possible x kind cascade children)
    (hx : x ∉ children) : Calm x c.trace := by
  induction h with
  | begins => exact fun e he => by cases he
  | resumes _ _ ih => exact calm_append.mpr ⟨ih, by simp [Calm]⟩
  | waits _ _ hid ih =>
      exact calm_append.mpr
        ⟨calm_append.mpr ⟨ih, ChildPoll.calm_events (ne_of_child hx hid)⟩, by simp [Calm]⟩
  | passes _ _ hid _ ih =>
      refine calm_append.mpr
        ⟨calm_append.mpr ⟨ih, ChildPoll.calm_events (ne_of_child hx hid)⟩, ?_⟩
      cases cascade <;> simp [Calm]

lemma Concluded.calm (h : Concluded x kind cascade children trace polls result)
    (hx : x ∉ children) : Calm x trace := by
  cases h with
  | stops hc _ hid =>
      exact calm_append.mpr ⟨hc.calm hx, ChildPoll.calm_events (ne_of_child hx hid)⟩
  | ends hc _ hid =>
      exact calm_append.mpr ⟨hc.calm hx, ChildPoll.calm_events (ne_of_child hx hid)⟩
  | empty => exact fun e he => by cases he

end Concluded

/-! ## Traces with several activations -/

/-- Every activation of the composite that a trace shows from its start to its end is what an
activation has to be. -/
def Accounted (x : NodeId) (kind : CompositeKind) (cascade : Bool) (children : List NodeId)
    (trace : Trace) : Prop :=
  ∀ (pre seen post : Trace) (result : Status),
    trace = pre ++ .start x :: seen ++ .leave x result :: post → result.isTerminal = true →
    .start x ∉ seen →
    ∃ polls, seen = told x 0 polls ∧ CompositeActivation kind cascade children polls result

namespace Accounted

variable {x : NodeId} {kind : CompositeKind} {cascade : Bool} {children : List NodeId}
  {s t : Trace}

lemma nil : Accounted x kind cascade children [] := by
  intro pre seen post result h
  simp at h

/-- The account stays as it is for as long as no poll of the composite ends with a result. -/
lemma extend (h : Accounted x kind cascade children s)
    (ht : ∀ status, .leave x status ∈ t → status = .running) :
    Accounted x kind cascade children (s ++ t) := by
  intro pre seen post result heq hterminal hseen
  rcases List.append_eq_append_iff.mp heq with ⟨mid, hpre, hrest⟩ | ⟨mid, hs, hrest⟩
  · -- the result lies in the later events
    have hmem : .leave x result ∈ t := by
      rw [hrest]
      simp
    rw [ht result hmem] at hterminal
    cases hterminal
  · cases mid with
    | nil =>
        have hmem : .leave x result ∈ t := by
          rw [← List.nil_append t, ← hrest]
          exact List.mem_cons_self
        rw [ht result hmem] at hterminal
        cases hterminal
    | cons e mid =>
        obtain ⟨rfl, rfl⟩ := List.cons.inj hrest
        exact h pre seen mid result hs hterminal hseen

/-- There is one last start. -/
lemma eq_of_last_start {pre s seen trace : Trace}
    (h : s ++ .start x :: trace = pre ++ .start x :: seen) (htrace : .start x ∉ trace)
    (hseen : .start x ∉ seen) : seen = trace := by
  rcases List.append_eq_append_iff.mp h with ⟨mid, -, hrest⟩ | ⟨mid, -, hrest⟩
  · cases mid with
    | nil => exact (List.cons.inj hrest).2.symm
    | cons e mid =>
        refine absurd ?_ htrace
        rw [(List.cons.inj hrest).2]
        simp
  · cases mid with
    | nil => exact (List.cons.inj hrest).2
    | cons e mid =>
        refine absurd ?_ hseen
        rw [(List.cons.inj hrest).2]
        simp

/-- **An activation that comes to its end is accounted for.** -/
lemma conclude {trace : Trace} {polls : List ChildPoll} {result : Status}
    (h : Accounted x kind cascade children (s ++ .start x :: trace))
    (hx : x ∉ children)
    (hconcluded : Concluded x kind cascade children trace polls result) :
    Accounted x kind cascade children (s ++ .start x :: trace ++ [.leave x result]) := by
  have hcalm : .start x ∉ trace := fun hmem => (hconcluded.calm hx _ hmem).1 rfl
  intro pre seen post status heq hterminal hseen
  rcases List.eq_nil_or_concat post with rfl | ⟨post, e, rfl⟩
  · obtain ⟨hstart, hleave⟩ := List.append_inj' heq rfl
    obtain rfl : status = result := by
      simp only [List.cons.injEq, Event.leave.injEq, true_and, and_true] at hleave
      exact hleave.symm
    rw [eq_of_last_start hstart hcalm hseen]
    exact ⟨polls, hconcluded.activation⟩
  · rw [List.concat_eq_append, ← List.cons_append, ← List.append_assoc] at heq
    obtain ⟨heq, -⟩ := List.append_inj' heq rfl
    exact h pre seen post status heq hterminal hseen

end Accounted

end BehaviorTree
