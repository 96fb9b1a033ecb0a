import BehaviorTree.Proofs.Lockstep
import BehaviorTree.Proofs.Marks
import Mathlib.Algebra.GroupWithZero.Nat

/-!
# What polls can be charged for

Every poll that asks for another one has one reason: a leaf is still running, or a composite that
does not cascade leaves its next child to the next poll.  Where nothing repeats, no node is
activated twice before the tree comes to an end, so that the second reason can be given only so
often.

* `Event.isPause` — the two reasons.  **`Branch.pauses_poll`**: a poll holds one of them if it asks
  for another poll, and none if it does not.
* `Branch.budget` — the most that a branch can still be charged for, at prices for the activation of
  a node and for leaving a child to the next poll (`Tariff`).  **`Branch.cost_poll`**: a poll pays
  out of it.
* `Branch.fullBudget` — the budget of a branch that nothing has happened to, which no other exceeds.
-/

namespace BehaviorTree

open Branch

variable {L δ : Type}

/-! ## Reasons to ask for another poll -/

namespace Event

/-- A leaf is still running. -/
def isWait : Event → Bool
  | hook _ (.update .running) => true
  | _ => false

/-- A composite leaves its next child to the next poll. -/
def isAdvance : Event → Bool
  | advance _ => true
  | _ => false

def isPause (e : Event) : Bool := e.isWait || e.isAdvance

@[simp] lemma isPause_enter (id : NodeId) : isPause (enter id) = false := rfl

@[simp] lemma isPause_start (id : NodeId) : isPause (start id) = false := rfl

@[simp] lemma isPause_leave (id : NodeId) (s : Status) : isPause (leave id s) = false := rfl

@[simp] lemma isPause_advance (id : NodeId) : isPause (advance id) = true := rfl

@[simp] lemma isPause_hook_start (id : NodeId) (first : Bool) :
    isPause (hook id (.start first)) = false := rfl

@[simp] lemma isPause_hook_stop (id : NodeId) : isPause (hook id .stop) = false := rfl

lemma isPause_hook_update (id : NodeId) (s : Status) :
    isPause (hook id (.update s)) = s.isRunning := by
  cases s <;> rfl

end Event

namespace Trace

/-- How many reasons to ask for another poll there are in a trace. -/
def pauses (t : Trace) : Nat := t.countP Event.isPause

/-- No event is both reasons. -/
lemma pauses_eq (t : Trace) : t.pauses = t.countP Event.isWait + t.countP Event.isAdvance := by
  induction t with
  | nil => rfl
  | cons e t ih =>
      rw [pauses, List.countP_cons, List.countP_cons, List.countP_cons, ← pauses, ih]
      cases e with
      | hook id call =>
          cases call with
          | update s => cases s <;> simp [Event.isPause, Event.isWait, Event.isAdvance]; omega
          | _ => simp [Event.isPause, Event.isWait, Event.isAdvance]
      | advance => simp [Event.isPause, Event.isWait, Event.isAdvance]; omega
      | _ => simp [Event.isPause, Event.isWait, Event.isAdvance]

@[simp] lemma pauses_nil : pauses [] = 0 := rfl

@[simp] lemma pauses_append (s t : Trace) : (s ++ t).pauses = s.pauses + t.pauses :=
  List.countP_append

@[simp] lemma pauses_cons (e : Event) (t : Trace) :
    pauses (e :: t) = t.pauses + if e.isPause then 1 else 0 :=
  List.countP_cons

end Trace

/-- The node drops the results of its child and goes on running. -/
def Node.Repeats (n : Node L) : Prop := ∃ gate, n.kind = .decorator .repeat gate

lemma Node.repeats_of_static {n m : Node L} (h : m.static = n.static) (hm : m.Repeats) :
    n.Repeats := by
  obtain ⟨gate, hkind⟩ := hm
  have hstatic := kind_eq_of_static h
  rw [hkind] at hstatic
  cases hk : n.kind with
  | decorator rule gate' =>
      rw [hk] at hstatic
      simp only [NodeKind.static, NodeKind.decorator.injEq, and_true] at hstatic
      exact ⟨gate', hstatic ▸ hk⟩
  | _ => rw [hk] at hstatic; simp [NodeKind.static] at hstatic

/-- A rule that does not repeat asks for another poll exactly if its child does. -/
lemma DecoratorRule.isRunning_map {rule : DecoratorRule} (h : rule ≠ .repeat) (s : Status) :
    (rule.map s).isRunning = s.isRunning := by
  cases rule with
  | «repeat» => exact absurd rfl h
  | _ => cases s <;> rfl

section Pauses

variable [Behavior L δ]

/-- The events of an outcome hold one reason to ask for another poll if it does, and none if it does
not. -/
def Outcome.Reasoned {τ : Type} (o : Outcome τ δ) : Prop :=
  o.trace.pauses = o.status.isRunning.toNat

section Children

variable {ts : List (Branch (Node L))}

lemma pollFirst_reasoned (ih : ∀ t ∈ ts, ∀ scene : Scene δ, (t.poll scene).Reasoned)
    (scene : Scene δ) : (pollFirst ts scene).Reasoned := by
  cases ts with
  | nil => rfl
  | cons t ts => exact ih t List.mem_cons_self scene

/-- A child that is left behind gave no reason to ask for another poll. -/
lemma Onward.reasoned {id : NodeId} {kind : CompositeKind} {cascade : Bool} {skip : Nat}
    {scene : Scene δ} {o : Outcome (Nat × List (Branch (Node L))) δ}
    (h : Onward id kind cascade skip ts scene o)
    (ih : ∀ t ∈ ts, ∀ scene : Scene δ, (t.poll scene).Reasoned) : o.Reasoned := by
  have hleft : kind.advancesOn.isRunning = false := by cases kind <;> rfl
  induction h with
  | exhausted => simp [Outcome.Reasoned, hleft]
  | skips _ ihs => exact ihs fun t ht => ih t (List.mem_cons_of_mem _ ht)
  | stops => exact ih _ List.mem_cons_self _
  | ends => exact ih _ List.mem_cons_self _
  | @cascades t u us scene o hs _ _ ihs =>
      have hhead := ih t List.mem_cons_self scene
      have htail := ihs fun v hv => ih v (List.mem_cons_of_mem _ hv)
      rw [Outcome.Reasoned, hs, hleft] at hhead
      rw [Outcome.Reasoned] at htail ⊢
      simp [hhead, htail]
  | @pauses t u us scene hs _ =>
      have hhead := ih t List.mem_cons_self scene
      rw [Outcome.Reasoned, hs, hleft] at hhead
      simp [Outcome.Reasoned, hhead, Status.isRunning]

end Children

namespace Node

variable {n : Node L}

lemma pauses_begin (n : Node L) (scene : Scene δ) : (n.begin scene).2.2.pauses = 0 := by
  rcases n.trace_begin scene with h | h | ⟨-, first, h⟩ <;> simp [h]

lemma pauses_conclude (n : Node L) (status : Status) (scene : Scene δ) :
    (n.conclude status scene).2.2.pauses = 0 := by
  rcases n.trace_conclude status scene with h | ⟨-, h⟩ <;> simp [h]

/-- Running a node that does not repeat. -/
lemma run_reasoned {ts : List (Branch (Node L))} (hrepeats : ¬ n.Repeats)
    (ih : ∀ t ∈ ts, ∀ scene : Scene δ, (t.poll scene).Reasoned) (scene : Scene δ) :
    (n.run ts (pollFirst ts) (fun kind cascade cursor =>
      Branch.pollFrom n.id kind cascade cursor ts) scene).Reasoned := by
  cases hk : n.kind with
  | root =>
      rw [run_root hk]
      exact pollFirst_reasoned ih scene
  | composite kind cascade cursor =>
      rw [run_composite hk]
      exact (pollFrom_onward n.id kind cascade cursor ts scene).reasoned ih
  | decorator rule gate =>
      cases ha : admits rule gate scene.board with
      | true =>
          have hrule : rule ≠ .repeat := by
            rintro rfl
            exact hrepeats ⟨gate, hk⟩
          have hfirst := pollFirst_reasoned ih scene
          rw [Outcome.Reasoned] at hfirst
          rw [run_admitted hk ha, Outcome.Reasoned, rule.isRunning_map hrule]
          exact hfirst
      | false =>
          rw [run_refused hk ha]
          rfl
  | leaf l =>
      rw [run_leaf hk, Outcome.Reasoned]
      simp only [Trace.pauses_cons, Event.isPause_hook_update, Trace.pauses_nil]
      cases (Behavior.onUpdate n.id l scene).1 <;> rfl

end Node

/-- The beginning and the end of a poll give no reason to ask for another one. -/
lemma Outcome.pauses_conclude (o : Outcome (Branch (Node L)) δ) (id : NodeId) (begun : Trace) :
    (o.conclude id begun).trace.pauses = begun.pauses + o.trace.pauses := by
  rw [Outcome.conclude]
  simp [Node.pauses_conclude]

/-- **A poll that asks for another one has one reason to do so**, and one that does not has none:
where nothing repeats, a child that asks for another poll makes its parent ask for one, at once and
for no other reason. -/
theorem Branch.pauses_poll (t : Branch (Node L)) (h : ∀ n ∈ t.labels, ¬ n.Repeats)
    (scene : Scene δ) : (t.poll scene).Reasoned := by
  induction t generalizing scene with
  | node n ts ih =>
      rw [labels, List.forall_mem_cons] at h
      have hbelow : ∀ t ∈ ts, ∀ scene : Scene δ, (t.poll scene).Reasoned := by
        intro t ht scene
        exact ih t ht (fun m hm => h.2 m (mem_labelsAll.mpr ⟨t, ht, hm⟩)) scene
      have hbegun : ¬ (n.begin scene).1.Repeats := fun hn =>
        h.1 (Node.repeats_of_static (n.static_begin scene) hn)
      rw [poll_node, Outcome.Reasoned, Outcome.pauses_conclude, Node.pauses_begin, Nat.zero_add]
      exact Node.run_reasoned hbegun hbelow (n.begin scene).2.1

end Pauses

/-! ## What polls can be charged for -/

/-- Prices for what happens in the course of polls: for the activation of a node, and for a
composite that leaves its next child to the next poll. -/
structure Tariff where
  start : NodeId → Nat
  advance : NodeId → Nat

/-- The price of an event. -/
def Tariff.fee (c : Tariff) : Event → Nat
  | .start id => c.start id
  | .advance id => c.advance id
  | _ => 0

/-- What a trace costs. -/
def Trace.cost (c : Tariff) (t : Trace) : Nat := (t.map c.fee).sum

/-- How often a composite with this many children can leave one of them to the next poll. -/
def NodeKind.breaks : NodeKind L → Nat → Nat
  | .composite _ false _, count => count - 1
  | _, _ => 0

/-- How many children have been left behind.  An idle composite begins with the first one. -/
def Node.passed (n : Node L) : Nat :=
  if n.state.started then n.kind.cursor?.getD 0 else 0

mutual

/-- The most that a branch can be charged for before it comes to an end: for the activation of its
root, unless one is under way, and for what is still to come of the children. -/
def Branch.budget (c : Tariff) : Branch (Node L) → Nat
  | .node n ts =>
    (if n.state.started then 0 else c.start n.id) +
      c.advance n.id * n.kind.breaks (ts.length - n.passed) + budgetFrom c n.passed ts

/-- The most that branches can be charged for, but the first `skip` of them, which have been left
behind. -/
def Branch.budgetFrom (c : Tariff) : (skip : Nat) → List (Branch (Node L)) → Nat
  | _, [] => 0
  | skip + 1, _ :: ts => budgetFrom c skip ts
  | 0, t :: ts => budget c t + budgetFrom c 0 ts

end

/-- The most that a branch can be charged for in a run that begins with all of it idle. -/
def Branch.fullBudget (c : Tariff) (t : Branch (Node L)) : Nat :=
  (t.parts.map fun s => c.start s.label.id +
    c.advance s.label.id * s.label.kind.breaks s.children.length).sum

section Cost

variable {c : Tariff}

namespace Trace

@[simp] lemma cost_nil : cost c [] = 0 := rfl

@[simp] lemma cost_cons (e : Event) (t : Trace) : cost c (e :: t) = c.fee e + cost c t := by
  simp [cost]

@[simp] lemma cost_append (s t : Trace) : cost c (s ++ t) = cost c s + cost c t := by
  simp [cost]

/-- What costs one each is counted. -/
lemma cost_eq_countP {p : Event → Bool} (h : ∀ e, c.fee e = if p e then 1 else 0) (t : Trace) :
    cost c t = t.countP p := by
  induction t with
  | nil => rfl
  | cons e t ih => rw [cost_cons, List.countP_cons, ih, h, Nat.add_comm]

end Trace

lemma NodeKind.breaks_composite (kind : CompositeKind) (cascade : Bool) (cursor count : Nat) :
    (composite kind cascade cursor : NodeKind L).breaks count =
      if cascade then 0 else count - 1 := by
  cases cascade <;> rfl

lemma NodeKind.breaks_of_cursor? {kind : NodeKind L} (h : kind.cursor? = none) (count : Nat) :
    kind.breaks count = 0 := by
  cases kind with
  | composite => simp [cursor?] at h
  | _ => rfl

lemma NodeKind.breaks_le (kind : NodeKind L) {m n : Nat} (h : m ≤ n) :
    kind.breaks m ≤ kind.breaks n := by
  cases kind with
  | composite kind cascade cursor =>
      rw [breaks_composite, breaks_composite]
      split <;> omega
  | _ => exact Nat.le_refl 0

mutual

/-- Whatever has happened to a branch, it can be charged for no more than if nothing had. -/
lemma Branch.budget_le_full : ∀ t : Branch (Node L), t.budget c ≤ t.fullBudget c
  | .node n ts => by
      have hbelow := budgetFrom_le_full n.passed ts
      have hbreaks := Nat.mul_le_mul_left (c.advance n.id)
        (n.kind.breaks_le (Nat.sub_le ts.length n.passed))
      have hstart : (if n.state.started then 0 else c.start n.id) ≤ c.start n.id := by
        split <;> simp
      rw [budget, fullBudget, parts, List.map_cons, List.sum_cons, label_node, children_node]
      omega

lemma Branch.budgetFrom_le_full : ∀ (skip : Nat) (ts : List (Branch (Node L))),
    budgetFrom c skip ts ≤ ((partsAll ts).map fun s => c.start s.label.id +
      c.advance s.label.id * s.label.kind.breaks s.children.length).sum
  | _, [] => by simp [budgetFrom]
  | skip + 1, t :: ts => by
      have hrest := budgetFrom_le_full skip ts
      rw [budgetFrom, partsAll, List.map_append, List.sum_append]
      omega
  | 0, t :: ts => by
      have hhead := budget_le_full t
      have hrest := budgetFrom_le_full 0 ts
      rw [fullBudget] at hhead
      rw [budgetFrom, partsAll, List.map_append, List.sum_append]
      omega

end

/-- The outcome paid for what happened, and what is left covers what is still to come: nothing, if
it asks for no other poll. -/
def Outcome.Pays {τ : Type} (c : Tariff) (ahead : τ → Nat) (o : Outcome τ δ) (budget : Nat) :
    Prop :=
  o.trace.cost c ≤ budget ∧ (o.status = .running → o.trace.cost c + ahead o.part ≤ budget)

/-- Where no other poll is asked for, it is enough to have paid. -/
lemma Outcome.Pays.of_terminal {τ : Type} {ahead : τ → Nat} {o : Outcome τ δ} {budget : Nat}
    (hne : o.status ≠ .running) (h : o.trace.cost c ≤ budget) : o.Pays c ahead budget :=
  ⟨h, fun hrunning => absurd hrunning hne⟩

lemma Outcome.Pays.of_le {τ : Type} {ahead : τ → Nat} {o : Outcome τ δ} {budget : Nat}
    (h : o.trace.cost c + ahead o.part ≤ budget) : o.Pays c ahead budget :=
  ⟨by omega, fun _ => h⟩

section Children

variable [Behavior L δ] {ts : List (Branch (Node L))}

lemma pollFirst_pays
    (ih : ∀ t ∈ ts, ∀ scene : Scene δ, (t.poll scene).Pays c (budget c) (t.budget c))
    (scene : Scene δ) : (pollFirst ts scene).Pays c (budgetFrom c 0) (budgetFrom c 0 ts) := by
  cases ts with
  | nil => exact .of_le (Nat.le_refl 0)
  | cons t ts =>
      obtain ⟨hpaid, hahead⟩ := ih t List.mem_cons_self scene
      rw [budgetFrom]
      refine ⟨?_, fun hrunning => ?_⟩
      · rw [pollFirst, Outcome.trace_map]
        omega
      · have hleft := hahead hrunning
        rw [pollFirst, Outcome.trace_map, Outcome.part_map, budgetFrom]
        omega

/-- What a composite can still be charged for that polls its children from the one at `pos` on. -/
def budgetPast (c : Tariff) (id : NodeId) (cascade : Bool) (pos : Nat)
    (ts : List (Branch (Node L))) : Nat :=
  c.advance id * (if cascade then 0 else ts.length - pos - 1) + budgetFrom c pos ts

/-- A child that has been left behind counts for nothing. -/
lemma budgetPast_succ (id : NodeId) (cascade : Bool) (pos : Nat) (t : Branch (Node L))
    (ts : List (Branch (Node L))) :
    budgetPast c id cascade (pos + 1) (t :: ts) = budgetPast c id cascade pos ts := by
  rw [budgetPast, budgetPast, budgetFrom, List.length_cons, Nat.add_sub_add_right]

lemma budgetPast_zero (id : NodeId) (cascade : Bool) (t : Branch (Node L))
    (ts : List (Branch (Node L))) :
    budgetPast c id cascade 0 (t :: ts) =
      c.advance id * (if cascade then 0 else ts.length) + (t.budget c + budgetFrom c 0 ts) := by
  rw [budgetPast, budgetFrom, List.length_cons, Nat.sub_zero, Nat.add_sub_cancel]

/-- Polling the children of a composite from the cursor on pays for the pauses behind the children
that it leaves behind. -/
lemma Onward.pays {id : NodeId} {kind : CompositeKind} {cascade : Bool} {skip : Nat}
    {scene : Scene δ} {o : Outcome (Nat × List (Branch (Node L))) δ}
    (h : Onward id kind cascade skip ts scene o)
    (ih : ∀ t ∈ ts, ∀ scene : Scene δ, (t.poll scene).Pays c (budget c) (t.budget c)) :
    o.Pays c (fun p => budgetPast c id cascade (skip + p.1) p.2)
      (budgetPast c id cascade skip ts) := by
  induction h with
  | exhausted =>
      exact .of_terminal kind.advancesOn_ne_running (Nat.zero_le _)
  | @skips skip t ts scene o _ ihs =>
      obtain ⟨hpaid, hahead⟩ := ihs fun u hu => ih u (List.mem_cons_of_mem _ hu)
      rw [budgetPast_succ]
      refine ⟨hpaid, fun hrunning => ?_⟩
      simp only [Outcome.part_map, Nat.add_right_comm skip 1, budgetPast_succ]
      exact hahead hrunning
  | @stops t ts scene _ =>
      obtain ⟨hpaid, hahead⟩ := ih t List.mem_cons_self scene
      rw [budgetPast_zero]
      refine ⟨?_, fun hrunning => ?_⟩
      · rw [Outcome.trace_map]
        omega
      · have hleft := hahead hrunning
        simp only [Outcome.trace_map, Outcome.part_map, Nat.add_zero, budgetPast_zero]
        omega
  | @ends t scene hs =>
      obtain ⟨hpaid, -⟩ := ih t List.mem_cons_self scene
      refine .of_terminal (hs ▸ kind.advancesOn_ne_running) ?_
      rw [Outcome.trace_map, budgetPast_zero]
      omega
  | @cascades t u us scene o hs hc _ ihs =>
      obtain ⟨hpaid, -⟩ := ih t List.mem_cons_self scene
      obtain ⟨hpaids, haheads⟩ := ihs fun v hv => ih v (List.mem_cons_of_mem _ hv)
      subst hc
      have htail : budgetPast c id true 0 (u :: us) = budgetFrom c 0 (u :: us) := by
        simp [budgetPast]
      rw [htail] at hpaids haheads
      rw [budgetPast_zero]
      refine ⟨?_, fun hrunning => ?_⟩
      · rw [Outcome.trace_after, Outcome.trace_map, Trace.cost_append]
        omega
      · have hleft := haheads hrunning
        simp only [Nat.zero_add] at hleft
        simp only [Outcome.trace_after, Outcome.trace_map, Outcome.part_after, Outcome.part_map,
          Trace.cost_append, Nat.zero_add, budgetPast_succ]
        omega
  | @pauses t u us scene hs hc =>
      obtain ⟨hpaid, -⟩ := ih t List.mem_cons_self scene
      have hbreak : c.advance id * (us.length + 1) = c.advance id * us.length + c.advance id :=
        Nat.mul_succ _ _
      subst hc
      refine .of_le ?_
      simp only [Nat.zero_add, budgetPast_zero, budgetPast_succ, budgetFrom, List.length_cons,
        Trace.cost_append, Trace.cost_cons, Trace.cost_nil, Tariff.fee, Bool.false_eq_true,
        if_false]
      omega

end Children

/-! ## What a poll can be charged for -/

namespace Node

variable {n : Node L} {ts : List (Branch (Node L))}

/-- A started node other than a composite can be charged for what is below it. -/
lemma budget_of_started (hstarted : n.state.started = true) (hcursor : n.kind.cursor? = none) :
    (node n ts).budget c = budgetFrom c 0 ts := by
  simp [Branch.budget, hstarted, passed, hcursor, n.kind.breaks_of_cursor? hcursor]

/-- A started composite can be charged for what is ahead of the cursor. -/
lemma budget_composite (hstarted : n.state.started = true) {kind : CompositeKind} {cascade : Bool}
    {cursor : Nat} (hk : n.kind = .composite kind cascade cursor) :
    (node n ts).budget c = budgetPast c n.id cascade cursor ts := by
  simp [Branch.budget, hstarted, passed, hk, NodeKind.cursor?, NodeKind.breaks_composite,
    budgetPast]

variable [Behavior L δ]

/-- The beginning of an activation is paid for. -/
lemma budget_begin (n : Node L) (ts : List (Branch (Node L))) (scene : Scene δ) :
    (n.begin scene).2.2.cost c + (node (n.begin scene).1 ts).budget c = (node n ts).budget c := by
  obtain ⟨id, kind, state⟩ := n
  rw [begin]
  split
  · exact Nat.zero_add _
  · next hidle =>
      replace hidle : state.started = false := by simpa using hidle
      cases kind with
      | composite kind cascade cursor =>
          simp [activate, Branch.budget, passed, Tariff.fee, NodeState.activate, hidle,
            NodeKind.cursor?, NodeKind.breaks_composite, Nat.add_assoc]
      | _ =>
          simp [activate, Branch.budget, passed, Tariff.fee, NodeState.activate, hidle,
            NodeKind.cursor?, NodeKind.breaks]

/-- Running a started node pays for what happens below it. -/
lemma run_pays (hstarted : n.state.started = true) (hrepeats : ¬ n.Repeats)
    (ih : ∀ t ∈ ts, ∀ scene : Scene δ, (t.poll scene).Pays c (budget c) (t.budget c))
    (scene : Scene δ) :
    (n.run ts (pollFirst ts) (fun kind cascade cursor =>
      Branch.pollFrom n.id kind cascade cursor ts) scene).Pays c (budget c)
        ((node n ts).budget c) := by
  cases hk : n.kind with
  | root =>
      have hcursor : n.kind.cursor? = none := by rw [hk]; rfl
      have hfirst := pollFirst_pays ih scene
      rw [run_root hk, budget_of_started hstarted hcursor]
      refine ⟨hfirst.1, fun hrunning => ?_⟩
      rw [Outcome.part_map, budget_of_started hstarted hcursor]
      exact hfirst.2 hrunning
  | composite kind cascade cursor =>
      have honward := (pollFrom_onward n.id kind cascade cursor ts scene).pays ih
      rw [run_composite hk, budget_composite hstarted hk]
      refine ⟨honward.1, fun hrunning => ?_⟩
      rw [Outcome.part_map, Outcome.trace_map]
      have hmoved : ∀ (cursor : Nat) (us : List (Branch (Node L))),
          (node { n with kind := .composite kind cascade cursor } us).budget c =
            budgetPast c n.id cascade cursor us :=
        fun cursor _ => budget_composite (n := { n with kind := .composite kind cascade cursor })
          hstarted rfl
      rw [hmoved]
      exact honward.2 hrunning
  | decorator rule gate =>
      have hcursor : n.kind.cursor? = none := by rw [hk]; rfl
      cases ha : admits rule gate scene.board with
      | true =>
          have hrule : rule ≠ .repeat := by
            rintro rfl
            exact hrepeats ⟨gate, hk⟩
          have hfirst := pollFirst_pays ih scene
          rw [run_admitted hk ha, budget_of_started hstarted hcursor]
          refine ⟨hfirst.1, fun hrunning => ?_⟩
          -- the result is running only if that of the child is
          rw [← Status.isRunning_iff, rule.isRunning_map hrule, Status.isRunning_iff] at hrunning
          rw [Outcome.part_map, budget_of_started hstarted hcursor]
          exact hfirst.2 hrunning
      | false =>
          rw [run_refused hk ha]
          exact .of_terminal (by simp) (Nat.zero_le _)
  | leaf l =>
      have hcursor : n.kind.cursor? = none := by rw [hk]; rfl
      rw [run_leaf hk, budget_of_started hstarted hcursor]
      refine .of_le ?_
      show Trace.cost c [_] + (node { n with kind := .leaf _ } ts).budget c ≤ _
      rw [budget_of_started (by exact hstarted) (by rfl)]
      simp [Tariff.fee]

lemma cost_conclude (n : Node L) (status : Status) (scene : Scene δ) :
    (n.conclude status scene).2.2.cost c = 0 := by
  rcases n.trace_conclude status scene with h | ⟨-, h⟩ <;> simp [h, Tariff.fee]

end Node

/-- The end of a poll costs nothing. -/
lemma Outcome.cost_conclude [Behavior L δ] (o : Outcome (Branch (Node L)) δ) (id : NodeId)
    (begun : Trace) : (o.conclude id begun).trace.cost c = begun.cost c + o.trace.cost c := by
  rw [Outcome.conclude]
  simp [Node.cost_conclude, Tariff.fee]

lemma Outcome.budget_conclude [Behavior L δ] {o : Outcome (Branch (Node L)) δ} {id : NodeId}
    {begun : Trace} (h : (o.conclude id begun).status = .running) :
    (o.conclude id begun).part.budget c = o.part.budget c := by
  obtain ⟨status, ⟨n, ts⟩, scene, trace⟩ := o
  obtain rfl : status = .running := h
  rw [Outcome.conclude, label_node, Node.conclude_running, Node.settle_running]
  rfl

/-- **A poll pays out of the budget of the branch**: where nothing repeats, a node that has ended
its activation is not polled again before the branch has come to an end. -/
theorem Branch.cost_poll [Behavior L δ] (t : Branch (Node L)) (h : ∀ n ∈ t.labels, ¬ n.Repeats)
    (scene : Scene δ) : (t.poll scene).Pays c (budget c) (t.budget c) := by
  induction t generalizing scene with
  | node n ts ih =>
      rw [labels, List.forall_mem_cons] at h
      have hbelow : ∀ t ∈ ts, ∀ scene : Scene δ, (t.poll scene).Pays c (budget c) (t.budget c) := by
        intro t ht scene
        exact ih t ht (fun m hm => h.2 m (mem_labelsAll.mpr ⟨t, ht, hm⟩)) scene
      have hbegun : ¬ (n.begin scene).1.Repeats := fun hn =>
        h.1 (Node.repeats_of_static (n.static_begin scene) hn)
      obtain ⟨hpaid, hahead⟩ :=
        Node.run_pays (n.started_begin scene) hbegun hbelow (n.begin scene).2.1
      have hbudget := Node.budget_begin (c := c) n ts scene
      rw [poll_node]
      refine ⟨?_, fun hrunning => ?_⟩
      · rw [Outcome.cost_conclude]
        omega
      · have hleft := hahead hrunning
        rw [Outcome.cost_conclude, Outcome.budget_conclude hrunning]
        omega

end Cost

end BehaviorTree
