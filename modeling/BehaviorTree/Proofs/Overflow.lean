import BehaviorTree.Proofs.Brains

/-!
# Ticks out of range

An agent thinks on the ticks at which tick and offset add up to a multiple of its interval, and the
sum is taken in 64 bits.  Where it does not fit, nothing about the agent is asked any more: the tick
fails for a brain that has no instance, for one whose instance has come to its end and for one that
would not think anyway, and the brains behind it are not reached.

* `Cadence.Fits` — tick and offset add up to a 64-bit number.
  **`Cadence.forall_fits_iff`**: it is so for every cadence up to the tick `2 ^ 64 - 2 ^ 32`.
* **`Brain.exists_obeyAll_iff`** — a run of orders to a brain comes back exactly if all of its ticks
  fit, and otherwise fails for this reason.
* `tickBrains_append` — a tick of several brains is a tick of the first and one of the others.
  **`tickBrains_reaches`**: how far a tick gets.
-/

namespace BehaviorTree

variable {L δ : Type}

namespace Cadence

/-! ## One cadence -/

/-- Tick and offset add up to a 64-bit number. -/
def Fits (c : Cadence) (t : UInt64) : Prop := t.toNat + c.offset.toNat < UInt64.size

instance (c : Cadence) (t : UInt64) : Decidable (c.Fits t) := inferInstanceAs (Decidable (_ < _))

variable {c : Cadence} {t : UInt64}

lemma thinksOn_of_not_fits (h : ¬ c.Fits t) : c.thinksOn t = .error .overflow := if_neg h

/-- A cadence answers with its rule where the sum fits, and nowhere else. -/
lemma thinksOn_eq (c : Cadence) (t : UInt64) : c.thinksOn t =
    if c.Fits t then .ok (decide (max c.every.toNat 1 ∣ t.toNat + c.offset.toNat))
    else .error .overflow := by
  by_cases h : c.Fits t
  · rw [if_pos h, Brain.thinksOn_of_fits h]
    exact congrArg Except.ok (decide_eq_decide.mpr Nat.dvd_iff_mod_eq_zero.symm)
  · rw [if_neg h, thinksOn_of_not_fits h]

/-- **Up to `2 ^ 64 - 2 ^ 32` a tick fits every cadence**, and none behind it does. -/
theorem forall_fits_iff (t : UInt64) :
    (∀ c : Cadence, c.Fits t) ↔ t.toNat + UInt32.size ≤ UInt64.size := by
  constructor
  · intro h
    have hlast : t.toNat + 4294967295 < UInt64.size := h ⟨1, 4294967295⟩
    exact hlast
  · intro h c
    have hoffset : c.offset.toNat < UInt32.size := c.offset.toNat_lt
    rw [Fits]
    omega

end Cadence

/-! ## One brain -/

namespace Brain

variable [Behavior L δ] {b : Brain L} {t : UInt64} {driver : δ}

/-- Whatever the brain, a tick that does not fit fails. -/
lemma tick_of_not_fits (h : ¬ b.cadence.Fits t) (driver : δ) :
    b.tick t driver = .error (.cadence .overflow) := by
  rw [tick, Cadence.thinksOn_of_not_fits h]

lemma obey_of_not_fits {o : Order δ} (h : ¬ o.Fits b.cadence) (driver : δ) :
    b.obey driver o = .error (.cadence .overflow) := by
  cases o with
  | tick t => exact tick_of_not_fits h driver
  | _ => exact absurd trivial h

/-- **A run of orders comes back exactly if all of its ticks fit**, and otherwise it fails at the
first of them that does not. -/
theorem exists_obeyAll_iff (h : b.Ready) (orders : List (Order δ)) (driver : δ) :
    ((∃ u, b.obeyAll driver orders = .ok u) ↔ ∀ o ∈ orders, o.Fits b.cadence) ∧
      ∀ e, b.obeyAll driver orders = .error e → e = .cadence .overflow := by
  induction orders generalizing b driver with
  | nil => exact ⟨by simp [obeyAll], fun e he => by cases he⟩
  | cons o os ih =>
      by_cases hfits : o.Fits b.cadence
      · obtain ⟨now, hnow, hobeyed⟩ := exists_obeyed h hfits driver
        obtain ⟨hlater, herror⟩ := ih hobeyed.ready now.driver
        rw [hobeyed.cadence] at hlater
        simp only [List.forall_mem_cons, hfits, true_and, ← hlater]
        rw [obeyAll, hnow]
        cases hrest : now.brain.obeyAll now.driver os with
        | error e =>
            refine ⟨by simp [Bind.bind, Except.bind, hrest], fun e' he' => ?_⟩
            simp only [Bind.bind, Except.bind, hrest, Except.error.injEq] at he'
            exact he' ▸ herror e hrest
        | ok u => simp [Bind.bind, Except.bind, hrest, pure, Except.pure]
      · rw [obeyAll, obey_of_not_fits hfits]
        simp [Bind.bind, Except.bind, hfits]

end Brain

/-! ## Several brains -/

section Several

variable [Behavior L δ] {t : UInt64}

lemma tickBrains_cons {b : Brain L} {driver : δ} {now : Ticked L δ}
    (h : b.tick t driver = .ok now) (bs : List (Brain L)) :
    tickBrains t (b :: bs) driver =
      { tickBrains t bs now.driver with
        brains := now.brain :: (tickBrains t bs now.driver).brains
        trace := now.trace ++ (tickBrains t bs now.driver).trace } := by
  rw [tickBrains, h]

/-- **A tick of several brains is a tick of the first of them and then one of the others**, if the
first ones can be ticked. -/
theorem tickBrains_append {pre : List (Brain L)} {driver : δ}
    (h : (tickBrains t pre driver).error = none) (post : List (Brain L)) :
    tickBrains t (pre ++ post) driver =
      { tickBrains t post (tickBrains t pre driver).driver with
        brains := (tickBrains t pre driver).brains ++
          (tickBrains t post (tickBrains t pre driver).driver).brains
        trace := (tickBrains t pre driver).trace ++
          (tickBrains t post (tickBrains t pre driver).driver).trace } := by
  induction pre generalizing driver with
  | nil => rfl
  | cons b bs ih =>
      cases hnow : b.tick t driver with
      | error e =>
          rw [tickBrains, hnow] at h
          cases h
      | ok now =>
          rw [tickBrains_cons hnow] at h ⊢
          rw [List.cons_append, tickBrains_cons hnow, ih h]
          simp

/-- All the brains are ticked exactly if each of them can be. -/
lemma error_tickBrains_iff {brains : List (Brain L)} (hready : ∀ b ∈ brains, b.Ready) (driver : δ) :
    (tickBrains t brains driver).error = none ↔ ∀ b ∈ brains, b.cadence.Fits t := by
  induction brains generalizing driver with
  | nil => simp [tickBrains]
  | cons b bs ih =>
      rw [List.forall_mem_cons] at hready ⊢
      by_cases hfits : b.cadence.Fits t
      · obtain ⟨now, hnow, -⟩ := Brain.tick_answers hready.1 hfits driver
        rw [tickBrains_cons hnow]
        simpa [hfits] using ih hready.2 now.driver
      · rw [tickBrains, Brain.tick_of_not_fits hfits]
        simp [hfits]

/-- The first brain that cannot be ticked stops the tick. -/
lemma tickBrains_stops {pre : List (Brain L)} {b : Brain L}
    (hready : ∀ c ∈ pre, c.Ready) (hfits : ∀ c ∈ pre, c.cadence.Fits t)
    (hb : ¬ b.cadence.Fits t) (post : List (Brain L)) (driver : δ) :
    tickBrains t (pre ++ b :: post) driver =
      { tickBrains t pre driver with
        brains := (tickBrains t pre driver).brains ++ b :: post
        error := some (.cadence .overflow) } := by
  rw [tickBrains_append ((error_tickBrains_iff hready driver).mpr hfits), tickBrains,
    Brain.tick_of_not_fits hb]
  simp

/-- How far a tick of the driver gets. -/
structure Reaches (t : UInt64) (brains : List (Brain L)) (driver : δ) : Prop where
  /-- A cadence answers with its rule, unless the sum of tick and offset is out of range. -/
  thinks : ∀ c : Cadence, c.thinksOn t =
    if t.toNat + c.offset.toNat < UInt64.size then
      .ok (decide (max c.every.toNat 1 ∣ t.toNat + c.offset.toNat))
    else .error .overflow
  /-- A single brain can be ticked exactly if its sum is in range, whether or not it is bound. -/
  tick : ∀ b ∈ brains, ∀ driver : δ,
    (b.cadence.Fits t → ∃ now, b.tick t driver = .ok now ∧ b.Answers driver t now) ∧
      (¬ b.cadence.Fits t → b.tick t driver = .error (.cadence .overflow))
  /-- All the brains are reached exactly if all the sums are in range. -/
  reached : (tickBrains t brains driver).error = none ↔ ∀ b ∈ brains, b.cadence.Fits t
  /-- Otherwise the brains before the first one whose sum is not are ticked, and it and those behind
  it are left as they are. -/
  stops : ∀ pre b post, brains = pre ++ b :: post → (∀ c ∈ pre, c.cadence.Fits t) →
    ¬ b.cadence.Fits t → tickBrains t brains driver =
      { tickBrains t pre driver with
        brains := (tickBrains t pre driver).brains ++ b :: post
        error := some (.cadence .overflow) }

/-- **How far a tick gets** with brains whose instances have been started: as far as tick and offset
add up to 64-bit numbers. -/
theorem tickBrains_reaches {brains : List (Brain L)} (h : ∀ b ∈ brains, b.Ready) (t : UInt64)
    (driver : δ) : Reaches t brains driver where
  thinks c := c.thinksOn_eq t
  tick b hb driver :=
    ⟨fun hfits => Brain.tick_answers (h b hb) hfits driver,
      fun hnot => Brain.tick_of_not_fits hnot driver⟩
  reached := error_tickBrains_iff h driver
  stops pre b post heq hpre hb := by
    subst heq
    exact tickBrains_stops (fun c hc => h c (List.mem_append_left _ hc)) hpre hb post driver

/-- At the last tick of all, a brain with no offset thinks and comes to the end of its tree; the
brain behind it has an offset of one and stops the tick, although it has no instance; and the third
one, which has no offset either, is not reached. -/
theorem tickBrains_reaches_last :
    let template : Tree Constant := .ofBranch (.node (.fresh ⟨0⟩ .root)
      [.node (.fresh ⟨1⟩ (.leaf .succeed)) []])
    let bound : Brain Constant := (Brain.new template ⟨1, 0⟩).bind
    let unbound : Brain Constant := .new template ⟨1, 1⟩
    (∀ b ∈ [bound, unbound, bound], b.Ready) ∧
      Reaches 18446744073709551615 [bound, unbound, bound] () ∧
      (tickBrains 18446744073709551615 [bound, unbound, bound] ()).error =
        some (.cadence .overflow) ∧
      (tickBrains 18446744073709551615 [bound, unbound, bound] ()).brains.map Brain.state =
        [some .success, none, some .running] := by
  intro template bound unbound
  have hready : ∀ b ∈ [bound, unbound, bound], b.Ready := by
    have hbound : bound.Ready := Brain.ready_bind _
    have hunbound : unbound.Ready := fun t ht => by cases ht
    simp [hbound, hunbound]
  exact ⟨hready, tickBrains_reaches hready _ (), by decide +kernel, by decide +kernel⟩

/-- An agent that thinks on every tick and has an offset of one should think at the last tick of
all, where the sum is `2 ^ 64`; but asking its cadence fails, and so does ticking its brain. -/
theorem overflow_last_tick :
    let c : Cadence := ⟨1, 1⟩
    let last : UInt64 := 18446744073709551615
    let brain : Brain Constant := .new (.ofBranch (.node (.fresh ⟨0⟩ .root) [])) c
    max c.every.toNat 1 ∣ last.toNat + c.offset.toNat ∧ c.thinksOn last = .error .overflow ∧
      brain.tick last () = .error (.cadence .overflow) :=
  ⟨by decide, by decide, rfl⟩

end Several

end BehaviorTree
