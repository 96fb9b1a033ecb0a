import BehaviorTree.Brain
import BehaviorTree.Proofs.Runs

/-!
# Brains and the trees they drive

A brain adds nothing to the tree that it drives: binding it, ticking it and reaching through it to
its instance come to the same as starting a copy of the template, polling it on the ticks on which
the agent thinks, and handling it directly.

* `Order` and `Brain.obeyAll` — what is asked of a brain, and a run of it.
* `Deed` and `Tree.carryOutAll` — what is done to an instance directly, and a run of that.  The
  context of the driver is handed on from one to the next in both.
* `Order.deed?` — what an order comes to for an instance that is bound.
* **`Brain.obeyAll_of_bound`** — while an instance is bound, the brain does to it what the orders
  come to.  The two differ in what they do about an instance that has come to its end: the brain
  leaves it alone, and an update of it does nothing.
* **`Brain.accounts_new`** — the account of a run of a new brain.
-/

namespace BehaviorTree

variable {L δ : Type}

/-! ## Orders and deeds -/

/-- What is asked of a brain, and what happens to the context of its driver meanwhile. -/
inductive Order (δ : Type)
  | bind
  | unbind
  | tick (t : UInt64)
  /-- The instance is halted through the brain, if there is one; so it is rearmed and edited. -/
  | halt
  | rearm
  | edit (f : Blackboard → Blackboard)
  | drive (f : δ → δ)

/-- What is done to an instance, and what happens to the context of its driver meanwhile. -/
inductive Deed (δ : Type)
  | update
  | halt
  | rearm
  | edit (f : Blackboard → Blackboard)
  | drive (f : δ → δ)

/-- The agent thinks on the tick. -/
def Cadence.Thinks (c : Cadence) (t : UInt64) : Prop :=
  (t.toNat + c.offset.toNat) % max c.every.toNat 1 = 0

instance (c : Cadence) (t : UInt64) : Decidable (c.Thinks t) :=
  inferInstanceAs (Decidable (_ = _))

namespace Order

/-- What an order comes to for an instance that is bound. -/
def deed? (c : Cadence) : Order δ → Option (Deed δ)
  | tick t => if c.Thinks t then some .update else none
  | halt => some .halt
  | rearm => some .rearm
  | edit f => some (.edit f)
  | drive f => some (.drive f)
  | bind => none
  | unbind => none

/-- Tick and offset add up to a 64-bit number. -/
def Fits (c : Cadence) : Order δ → Prop
  | tick t => t.toNat + c.offset.toNat < UInt64.size
  | _ => True

end Order

/-- The tree with nothing done to it. -/
def Tree.resting (t : Tree L) (driver : δ) : Updated L δ := ⟨t.state, t, driver, []⟩

/-- The brain with nothing done to it. -/
def Brain.resting (b : Brain L) (driver : δ) : Ticked L δ := ⟨b.state, b, driver, []⟩

/-- The brain with an instance that something has been done to. -/
def Brain.holding (b : Brain L) (u : Updated L δ) : Ticked L δ :=
  ⟨some u.status, { b with bound := some u.tree }, u.driver, u.trace⟩

section Run

variable [Behavior L δ]

namespace Tree

def carryOut (t : Tree L) (driver : δ) : Deed δ → Except Misuse (Updated L δ)
  | .update => t.update driver
  | .halt => .ok (t.halt.resting driver)
  | .rearm => .ok (t.rearm.resting driver)
  | .edit f => .ok ((t.editBoard f).resting driver)
  | .drive f => .ok (t.resting (f driver))

/-- The tree after a run of deeds, the context that it leaves the driver with, and everything that
happened. -/
def carryOutAll (t : Tree L) (driver : δ) : List (Deed δ) → Except Misuse (Updated L δ)
  | [] => .ok (t.resting driver)
  | d :: ds => do
    let u ← t.carryOut driver d
    let v ← u.tree.carryOutAll u.driver ds
    return { v with trace := u.trace ++ v.trace }

end Tree

namespace Brain

def obey (b : Brain L) (driver : δ) : Order δ → Except TickError (Ticked L δ)
  | .bind => .ok (b.bind.resting driver)
  | .unbind => .ok (b.unbind.resting driver)
  | .tick t => b.tick t driver
  | .halt => .ok ((b.edit Tree.halt).resting driver)
  | .rearm => .ok ((b.edit Tree.rearm).resting driver)
  | .edit f => .ok ((b.edit fun t => t.editBoard f).resting driver)
  | .drive f => .ok (b.resting (f driver))

/-- The brain after a run of orders, the context that it leaves the driver with, and everything that
happened. -/
def obeyAll (b : Brain L) (driver : δ) : List (Order δ) → Except TickError (Ticked L δ)
  | [] => .ok (b.resting driver)
  | o :: os => do
    let u ← b.obey driver o
    let v ← u.brain.obeyAll u.driver os
    return { v with trace := u.trace ++ v.trace }

end Brain

/-! ## Runs one after the other -/

namespace Tree

variable {t : Tree L} {driver : δ} {u v : Updated L δ}

lemma carryOutAll_single {d : Deed δ} (h : t.carryOut driver d = .ok u)
    (hstatus : u.status = u.tree.state) : t.carryOutAll driver [d] = .ok u := by
  obtain ⟨status, tree, driver', trace⟩ := u
  obtain rfl : status = tree.state := hstatus
  simp [carryOutAll, h, resting, Bind.bind, Except.bind, pure, Except.pure]

lemma status_carryOutAll {ds : List (Deed δ)} (h : t.carryOutAll driver ds = .ok u) :
    u.status = u.tree.state := by
  induction ds generalizing t driver u with
  | nil => cases h; rfl
  | cons d ds ih =>
      rw [carryOutAll] at h
      cases hd : t.carryOut driver d with
      | error e => simp [hd, Bind.bind, Except.bind] at h
      | ok w =>
          simp only [hd, Bind.bind, Except.bind] at h
          cases hrest : w.tree.carryOutAll w.driver ds with
          | error e => simp [hrest] at h
          | ok x =>
              simp only [hrest, pure, Except.pure, Except.ok.injEq] at h
              subst h
              have hstatus := ih hrest
              exact hstatus

lemma carryOutAll_append {ds es : List (Deed δ)} (hds : t.carryOutAll driver ds = .ok u)
    (hes : u.tree.carryOutAll u.driver es = .ok v) :
    t.carryOutAll driver (ds ++ es) = .ok { v with trace := u.trace ++ v.trace } := by
  induction ds generalizing t driver u with
  | nil =>
      cases hds
      exact hes
  | cons d ds ih =>
      rw [List.cons_append, carryOutAll]
      rw [carryOutAll] at hds
      cases hd : t.carryOut driver d with
      | error e => simp [hd, Bind.bind, Except.bind] at hds
      | ok w =>
          simp only [hd, Bind.bind, Except.bind] at hds ⊢
          cases hrest : w.tree.carryOutAll w.driver ds with
          | error e => simp [hrest] at hds
          | ok x =>
              simp only [hrest, pure, Except.pure, Except.ok.injEq] at hds
              subst hds
              rw [ih hrest hes]
              simp [pure, Except.pure, List.append_assoc]

end Tree

namespace Brain

variable {b : Brain L} {driver : δ} {u v : Ticked L δ}

lemma obeyAll_cons {o : Order δ} {os : List (Order δ)} (ho : b.obey driver o = .ok u)
    (hos : u.brain.obeyAll u.driver os = .ok v) :
    b.obeyAll driver (o :: os) = .ok { v with trace := u.trace ++ v.trace } := by
  rw [obeyAll, ho]
  simp only [Bind.bind, Except.bind, hos, pure, Except.pure]

lemma obeyAll_append {os ps : List (Order δ)} (hos : b.obeyAll driver os = .ok u)
    (hps : u.brain.obeyAll u.driver ps = .ok v) :
    b.obeyAll driver (os ++ ps) = .ok { v with trace := u.trace ++ v.trace } := by
  induction os generalizing b driver u with
  | nil =>
      cases hos
      exact hps
  | cons o os ih =>
      rw [obeyAll] at hos
      cases ho : b.obey driver o with
      | error e => simp [ho, Bind.bind, Except.bind] at hos
      | ok w =>
          simp only [ho, Bind.bind, Except.bind] at hos
          cases hrest : w.brain.obeyAll w.driver os with
          | error e => simp [hrest] at hos
          | ok x =>
              simp only [hrest, pure, Except.pure, Except.ok.injEq] at hos
              subst hos
              rw [List.cons_append, obeyAll_cons ho (ih hrest hps), List.append_assoc]

end Brain

/-! ## Single orders -/

namespace Tree

lemma exists_update_of_started {t : Tree L} (h : t.isStarted = true) (driver : δ) :
    ∃ u, t.update driver = .ok u ∧ u.status = u.tree.state ∧ u.tree.isStarted = true := by
  obtain ⟨board, hboard⟩ := Option.isSome_iff_exists.mp h
  rw [update, hboard]
  dsimp only
  split
  · exact ⟨_, rfl, rfl, h⟩
  · exact ⟨_, rfl, rfl, rfl⟩

/-- An instance has not been started. -/
lemma start_instantiate (t : Tree L) :
    t.instantiate.start = .ok { t.instantiate with board := some .empty } := by
  rw [start]
  have hboard : t.instantiate.board = none := by
    rw [instantiate]
    split <;> rfl
  rw [hboard]

end Tree

namespace Brain

variable {b : Brain L} {t : Tree L} {c : Cadence}

lemma thinksOn_of_fits {n : UInt64} (h : n.toNat + c.offset.toNat < UInt64.size) :
    c.thinksOn n = .ok (decide (c.Thinks n)) :=
  (if_pos h).trans rfl

lemma tick_unbound {n : UInt64} (hfits : n.toNat + b.cadence.offset.toNat < UInt64.size)
    (h : b.bound = none) (driver : δ) : b.tick n driver = .ok (b.resting driver) := by
  rw [tick, thinksOn_of_fits hfits, h, resting, state, h]
  rfl

lemma tick_bound {n : UInt64} (hfits : n.toNat + b.cadence.offset.toNat < UInt64.size)
    (h : b.bound = some t) (driver : δ) : b.tick n driver =
      if b.cadence.Thinks n ∧ t.state.isRunning = true then
        match t.update driver with
        | .error e => .error (.misuse e)
        | .ok u => .ok ⟨some u.status, { b with bound := some u.tree }, u.driver, u.trace⟩
      else .ok (b.resting driver) := by
  rw [tick, thinksOn_of_fits hfits, h]
  simp only [Bool.and_eq_true, decide_eq_true_eq]
  split
  · rfl
  · rw [resting, state, h]
    rfl

omit [Behavior L δ] in
lemma resting_of_bound (h : b.bound = some t) (driver : δ) :
    b.resting driver = b.holding (t.resting driver) := by
  obtain ⟨template, cadence, bound⟩ := b
  obtain rfl : bound = some t := h
  rfl

/-- **An order to a brain does to its instance what it comes to.** -/
lemma obey_of_bound (h : b.bound = some t) (hstarted : t.isStarted = true) {o : Order δ}
    (hbind : o ≠ .bind) (hunbind : o ≠ .unbind) (hfits : o.Fits b.cadence) (driver : δ) :
    ∃ u, t.carryOutAll driver (o.deed? b.cadence).toList = .ok u ∧
      b.obey driver o = .ok (b.holding u) ∧ u.tree.isStarted = true := by
  have hedit : ∀ f : Tree L → Tree L, (b.edit f).resting driver =
      b.holding ((f t).resting driver) := by
    intro f
    rw [edit, h]
    rfl
  cases o with
  | bind => exact absurd rfl hbind
  | unbind => exact absurd rfl hunbind
  | tick n =>
      rw [obey, tick_bound hfits h driver, Order.deed?]
      by_cases hthinks : b.cadence.Thinks n
      · obtain ⟨u, hu, hstatus, hstill⟩ := Tree.exists_update_of_started hstarted driver
        rw [if_pos hthinks]
        refine ⟨u, Tree.carryOutAll_single hu hstatus, ?_, hstill⟩
        cases hrunning : t.state.isRunning with
        | true => rw [if_pos ⟨hthinks, rfl⟩, hu]; rfl
        | false =>
            -- an update of a tree that has come to its end does nothing
            obtain ⟨board, hboard⟩ := Option.isSome_iff_exists.mp hstarted
            have hterminal : t.state.isTerminal = true := by rw [Status.isTerminal, hrunning]; rfl
            rw [Tree.update_of_terminal hboard hterminal, Except.ok.injEq] at hu
            subst hu
            rw [if_neg (by simp), resting_of_bound h]
            rfl
      · rw [if_neg hthinks, if_neg fun hboth => hthinks hboth.1]
        exact ⟨t.resting driver, rfl, congrArg Except.ok (resting_of_bound h driver), hstarted⟩
  | halt =>
      exact ⟨_, Tree.carryOutAll_single rfl rfl, congrArg Except.ok (hedit Tree.halt), hstarted⟩
  | rearm =>
      exact ⟨_, Tree.carryOutAll_single rfl rfl, congrArg Except.ok (hedit Tree.rearm), hstarted⟩
  | edit f =>
      have hkept : (t.editBoard f).isStarted = true := by
        rw [Tree.isStarted, Tree.editBoard, Option.isSome_map]
        exact hstarted
      exact ⟨_, Tree.carryOutAll_single rfl rfl,
        congrArg Except.ok (hedit fun t => t.editBoard f), hkept⟩
  | drive f =>
      exact ⟨_, Tree.carryOutAll_single rfl rfl,
        congrArg Except.ok (resting_of_bound h (f driver)), hstarted⟩

end Brain

/-! ## Runs of a brain -/

namespace Brain

variable {b : Brain L} {t : Tree L}

/-- **While an instance is bound, the brain does to it what the orders come to**, and nothing
else. -/
theorem obeyAll_of_bound (h : b.bound = some t) (hstarted : t.isStarted = true)
    {orders : List (Order δ)} (hbind : .bind ∉ orders) (hunbind : .unbind ∉ orders)
    (hfits : ∀ o ∈ orders, o.Fits b.cadence) (driver : δ) :
    ∃ u, t.carryOutAll driver (orders.filterMap (Order.deed? b.cadence)) = .ok u ∧
      b.obeyAll driver orders = .ok (b.holding u) := by
  induction orders generalizing b t driver with
  | nil => exact ⟨t.resting driver, rfl, congrArg Except.ok (resting_of_bound h driver)⟩
  | cons o os ih =>
      rw [List.mem_cons, not_or] at hbind hunbind
      rw [List.forall_mem_cons] at hfits
      obtain ⟨u, hu, hobey, hstill⟩ := obey_of_bound h hstarted (Ne.symm hbind.1)
        (Ne.symm hunbind.1) hfits.1 driver
      obtain ⟨v, hv, hrest⟩ := ih (b := { b with bound := some u.tree }) rfl hstill hbind.2
        hunbind.2 hfits.2 u.driver
      have hsplit : (o :: os).filterMap (Order.deed? b.cadence) =
          (o.deed? b.cadence).toList ++ os.filterMap (Order.deed? b.cadence) := by
        rw [List.filterMap_cons]
        cases o.deed? b.cadence <;> rfl
      rw [hsplit]
      exact ⟨_, Tree.carryOutAll_append hu hv, obeyAll_cons hobey hrest⟩

/-- The instance of the brain, if there is one, has been started. -/
def Ready (b : Brain L) : Prop := ∀ t, b.bound = some t → t.isStarted = true

/-- What a single order leaves behind. -/
structure Obeyed (b : Brain L) (o : Order δ) (u : Ticked L δ) : Prop where
  template : u.brain.template = b.template
  cadence : u.brain.cadence = b.cadence
  ready : u.brain.Ready
  status : u.status = u.brain.state
  bound : u.brain.bound.isSome = true ↔ o = .bind ∨ b.bound.isSome = true ∧ o ≠ .unbind

lemma ready_bind (b : Brain L) : b.bind.Ready := by
  rintro t ⟨⟩
  rfl

/-- Every order is obeyed, and what it comes to for a brain without an instance is nothing. -/
lemma exists_obeyed (hready : b.Ready) {o : Order δ} (hfits : o.Fits b.cadence) (driver : δ) :
    ∃ u, b.obey driver o = .ok u ∧ b.Obeyed o u := by
  by_cases hbind : o = .bind
  · subst hbind
    exact ⟨_, rfl, rfl, rfl, b.ready_bind, rfl, iff_of_true rfl (.inl rfl)⟩
  by_cases hunbind : o = .unbind
  · subst hunbind
    exact ⟨_, rfl, rfl, rfl, (fun t ht => by cases ht), rfl, by simp [unbind, resting]⟩
  cases hbound : b.bound with
  | none =>
      have hrests : ∃ driver', b.obey driver o = .ok (b.resting driver') := by
        have hedit : ∀ f : Tree L → Tree L, b.edit f = b := by
          intro f
          rw [edit, hbound]
          exact congrArg (Brain.mk b.template b.cadence) hbound.symm
        cases o with
        | bind => exact absurd rfl hbind
        | unbind => exact absurd rfl hunbind
        | tick n => exact ⟨driver, tick_unbound hfits hbound driver⟩
        | drive f => exact ⟨f driver, rfl⟩
        | _ => exact ⟨driver, by rw [obey, hedit]⟩
      obtain ⟨driver', hrests⟩ := hrests
      exact ⟨_, hrests, rfl, rfl, hready, rfl, by simp [resting, hbound, hbind]⟩
  | some t =>
      obtain ⟨u, hu, hobey, hstill⟩ := obey_of_bound hbound (hready t hbound) hbind hunbind hfits
        driver
      refine ⟨_, hobey, rfl, rfl, ?_, ?_, by simp [holding, hbound, hunbind]⟩
      · rintro s ⟨⟩
        exact hstill
      · exact congrArg some (Tree.status_carryOutAll hu)

/-- The last binding came after the last unbinding. -/
def BoundBy (orders : List (Order δ)) : Prop :=
  ∃ pre post, orders = pre ++ .bind :: post ∧ .unbind ∉ post

omit [Behavior L δ] in
lemma boundBy_cons {o : Order δ} {os : List (Order δ)} :
    BoundBy (o :: os) ↔ BoundBy os ∨ o = .bind ∧ .unbind ∉ os := by
  constructor
  · rintro ⟨pre, post, heq, hpost⟩
    cases pre with
    | nil =>
        obtain ⟨rfl, rfl⟩ := List.cons.inj heq
        exact .inr ⟨rfl, hpost⟩
    | cons p pre =>
        obtain ⟨rfl, rfl⟩ := List.cons.inj heq
        exact .inl ⟨pre, post, rfl, hpost⟩
  · rintro (⟨pre, post, rfl, hpost⟩ | ⟨rfl, hos⟩)
    · exact ⟨o :: pre, post, rfl, hpost⟩
    · exact ⟨[], os, rfl, hos⟩

/-- Every run of orders is obeyed, and it leaves the brain with an instance if the last binding came
after the last unbinding. -/
lemma exists_obeyAll (hready : b.Ready) {orders : List (Order δ)}
    (hfits : ∀ o ∈ orders, o.Fits b.cadence) (driver : δ) :
    ∃ u, b.obeyAll driver orders = .ok u ∧ u.brain.template = b.template ∧
      u.brain.cadence = b.cadence ∧ u.brain.Ready ∧
      (u.brain.bound.isSome = true ↔
        BoundBy orders ∨ b.bound.isSome = true ∧ .unbind ∉ orders) := by
  induction orders generalizing b driver with
  | nil => exact ⟨b.resting driver, rfl, rfl, rfl, hready, by simp [resting, BoundBy]⟩
  | cons o os ih =>
      rw [List.forall_mem_cons] at hfits
      obtain ⟨u, hu, hobeyed⟩ := exists_obeyed hready hfits.1 driver
      rw [← hobeyed.cadence] at hfits
      obtain ⟨v, hv, htemplate, hcadence, hstill, hbound⟩ := ih hobeyed.ready hfits.2 u.driver
      refine ⟨_, obeyAll_cons hu hv, htemplate.trans hobeyed.template,
        hcadence.trans hobeyed.cadence, hstill, ?_⟩
      rw [hbound, hobeyed.bound, boundBy_cons, List.mem_cons, not_or]
      by_cases hbind : o = .bind
      · subst hbind
        simp only [true_or, true_and, ne_eq, reduceCtorEq, not_false_eq_true]
        tauto
      · simp only [hbind, false_or, false_and, or_false, ne_comm]
        tauto

/-- What a tick does for a brain. -/
structure Answers (b : Brain L) (driver : δ) (n : UInt64) (now : Ticked L δ) : Prop where
  /-- The answer is the cached result of the instance after the tick, if there is one. -/
  status : now.status = now.brain.state
  /-- No hook runs, and nothing changes, if the agent does not think on the tick, if there is no
  instance, and if the instance has come to its end. -/
  silent : (¬ b.cadence.Thinks n ∨ b.bound = none ∨ b.isFinished = true) →
    now.brain = b ∧ now.driver = driver ∧ now.trace = []

lemma tick_answers {n : UInt64} (hready : b.Ready)
    (hfits : n.toNat + b.cadence.offset.toNat < UInt64.size) (driver : δ) :
    ∃ now, b.tick n driver = .ok now ∧ b.Answers driver n now := by
  obtain ⟨now, hnow, hobeyed⟩ := exists_obeyed (o := .tick n) hready hfits driver
  have hticked : b.tick n driver = .ok now := hnow
  refine ⟨now, hticked, hobeyed.status, fun hquiet => ?_⟩
  have hrests : b.tick n driver = .ok (b.resting driver) := by
    cases hbound : b.bound with
    | none => exact tick_unbound hfits hbound driver
    | some t =>
        rw [tick_bound hfits hbound driver, if_neg]
        rintro ⟨hthinks, hrunning⟩
        rcases hquiet with hnot | hnone | hfinished
        · exact hnot hthinks
        · rw [hbound] at hnone
          cases hnone
        · rw [isFinished, state, hbound] at hfinished
          simp [Status.isTerminal, hrunning] at hfinished
  rw [hticked, Except.ok.injEq] at hrests
  subst hrests
  exact ⟨rfl, rfl, rfl⟩

/-- The account of a run of orders to a new brain. -/
structure Accounts (template : Tree L) (c : Cadence) (driver : δ) (orders : List (Order δ))
    (u : Ticked L δ) : Prop where
  /-- There is an instance if the last binding came after the last unbinding. -/
  bound : u.brain.bound.isSome = true ↔ BoundBy orders
  /-- It is a started copy of the template to which was done directly what the orders since the last
  binding come to, and the context of the driver is the same. -/
  direct {pre post : List (Order δ)} : orders = pre ++ .bind :: post → .bind ∉ post →
    .unbind ∉ post → ∃ started before after, template.instantiate.start = .ok started ∧
      (new template c).obeyAll driver pre = .ok before ∧
      started.carryOutAll before.driver (post.filterMap (Order.deed? c)) = .ok after ∧
      u.brain.bound = some after.tree ∧ u.driver = after.driver ∧
      u.trace = before.trace ++ after.trace
  ticks {pre post : List (Order δ)} {n : UInt64} : orders = pre ++ .tick n :: post →
    ∃ before now, (new template c).obeyAll driver pre = .ok before ∧
      before.brain.tick n before.driver = .ok now ∧ before.brain.Answers before.driver n now

/-- **A brain refines the direct handling of its instance.** -/
theorem accounts_new (template : Tree L) (c : Cadence) (driver : δ) {orders : List (Order δ)}
    (hfits : ∀ o ∈ orders, o.Fits c) :
    ∃ u, (new template c).obeyAll driver orders = .ok u ∧
      Accounts template c driver orders u := by
  have hready : (new template c).Ready := fun t ht => by cases ht
  obtain ⟨u, hu, -, -, -, hbound⟩ := exists_obeyAll hready hfits driver
  refine ⟨u, hu, by simpa [new] using hbound, ?_, ?_⟩
  · rintro pre post rfl hbind hunbind
    rw [List.forall_mem_append, List.forall_mem_cons] at hfits
    obtain ⟨before, hbefore, htemplate, hcadence, -, -⟩ :=
      exists_obeyAll hready hfits.1 driver
    have hpost : ∀ o ∈ post, o.Fits before.brain.bind.cadence := by
      intro o ho
      rw [bind, hcadence]
      exact hfits.2.2 o ho
    obtain ⟨after, hafter, hobeyed⟩ := obeyAll_of_bound (b := before.brain.bind) rfl rfl hbind
      hunbind hpost before.driver
    have hrun := obeyAll_append hbefore
      (obeyAll_cons (b := before.brain) (o := .bind) rfl hobeyed)
    rw [hu, Except.ok.injEq] at hrun
    subst hrun
    have hstart := template.start_instantiate
    simp only [bind, htemplate, hcadence, new] at hafter
    exact ⟨_, before, after, hstart, hbefore, hafter, rfl, rfl, rfl⟩
  · rintro pre post n rfl
    rw [List.forall_mem_append, List.forall_mem_cons] at hfits
    obtain ⟨before, hbefore, -, hcadence, hstill, -⟩ := exists_obeyAll hready hfits.1 driver
    have hn : n.toNat + before.brain.cadence.offset.toNat < UInt64.size := by
      rw [hcadence]
      exact hfits.2.1
    obtain ⟨now, hnow, hanswers⟩ := tick_answers hstill hn before.driver
    exact ⟨before, now, hbefore, hnow, hanswers⟩

/-- A brain that is bound anew in mid-course, and whose instance is halted and rearmed. -/
theorem accounts_new_rebound :
    let template : Tree Constant := .ofBranch (.node (.fresh ⟨0⟩ .root)
      [.node (.fresh ⟨1⟩ (.composite .sequence false 0))
        [.node (.fresh ⟨2⟩ (.leaf .succeed)) [], .node (.fresh ⟨3⟩ (.leaf .succeed)) []]])
    let c : Cadence := ⟨2, 1⟩
    let orders : List (Order Unit) := [.tick 1, .bind, .tick 1, .unbind, .tick 3, .bind, .tick 3,
      .halt, .tick 5, .rearm, .tick 6, .tick 7]
    (∀ o ∈ orders, o.Fits c) ∧
      ∃ u, (new template c).obeyAll () orders = .ok u ∧ u.status = some .running ∧
        u.trace.countP (fun e => e = .advance ⟨1⟩) = 3 ∧ Accounts template c () orders u := by
  intro template c orders
  have hfits : ∀ o ∈ orders, o.Fits c := by simp [orders, c, Order.Fits, UInt64.size]
  obtain ⟨u, hu, haccounts⟩ := accounts_new template c () hfits
  have hend : ((new template c).obeyAll () orders).toOption.map
      (fun u => (u.status, u.trace.countP fun e => e = .advance ⟨1⟩)) =
        some (some .running, 3) := by decide +kernel
  rw [hu] at hend
  obtain ⟨hstatus, hcount⟩ := Prod.mk.inj (Option.some.inj hend)
  exact ⟨hfits, u, hu, hstatus, hcount, haccounts⟩

end Brain

end Run

end BehaviorTree
