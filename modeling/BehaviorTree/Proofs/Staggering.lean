import BehaviorTree.Proofs.Overflow
import Mathlib.Data.Int.CardIntervalMod
import Mathlib.Data.Nat.Periodic

/-!
# Agents that share out an interval

Agents with consecutive numbers are given consecutive offsets within one interval.  An agent then
thinks on the ticks that its number makes up to a multiple of the interval, so tick and number play
the same part: at a tick one agent out of as many as the interval has ticks thinks, and an agent
thinks on one tick out of as many.  Both come down to one count (`card_dvd_add`).

* `Cadence.thinksOn_staggered` — when an agent thinks; its offset is its number's remainder, but
  the remainder is not seen in the answer.
* **`Cadence.staggered_spreads`** — how the agents share out the ticks.  The offset is at most one
  less than the interval, so a tick is answered if an interval that begins at it fits in 64 bits.
-/

namespace BehaviorTree

open Finset

/-- Out of as many numbers as make up `k` rounds of `e`, each number behind the one before, exactly
`k` are made up to a multiple of `e`. -/
lemma card_dvd_add {e : ℕ} (he : 0 < e) (k first m : ℕ) :
    #{n ∈ Ico first (first + k * e) | e ∣ n + m} = k := by
  have hperiodic : Function.Periodic (fun n => e ∣ n + m) (k * e) := by
    intro n
    dsimp only
    rw [Nat.add_right_comm, Nat.dvd_add_left (Nat.dvd_mul_left e k)]
  -- in the rounds that begin at zero, the numbers are those congruent to the complement of `m`
  have hcongr : ∀ n, e ∣ n + m ↔ n ≡ e - m % e [MOD e] := by
    intro n
    have hm : m % e ≤ e := (Nat.mod_lt m he).le
    have hround : e - m % e + m ≡ 0 [MOD e] := by
      have hsum := (Nat.ModEq.refl (e - m % e)).add (Nat.mod_modEq m e).symm
      rw [Nat.sub_add_cancel hm] at hsum
      exact hsum.trans (Nat.modEq_zero_iff_dvd.mpr dvd_rfl)
    rw [← Nat.modEq_zero_iff_dvd]
    exact ⟨fun h => Nat.ModEq.add_right_cancel' m (h.trans hround.symm),
      fun h => (h.add_right m).trans hround⟩
  rw [Nat.filter_Ico_card_eq_of_periodic first (k * e) _ hperiodic]
  simp only [hcongr]
  rw [Nat.count_modEq_card _ he, Nat.mul_div_cancel k he, Nat.mul_mod_left,
    if_neg (Nat.not_lt_zero _), Nat.add_zero]

/-- One out of as many consecutive numbers as the interval has ticks is made up to a multiple of
it. -/
lemma existsUnique_dvd_add {e : ℕ} (he : 0 < e) (first m : ℕ) :
    ∃! n, n ∈ Ico first (first + e) ∧ e ∣ n + m := by
  have hone := card_dvd_add he 1 first m
  rw [Nat.one_mul, card_eq_one] at hone
  obtain ⟨n, hn⟩ := hone
  have hmem : ∀ y, y ∈ Ico first (first + e) ∧ e ∣ y + m ↔ y = n := by
    intro y
    rw [← mem_singleton, ← hn, mem_filter]
  exact ⟨n, (hmem n).mpr rfl, fun y hy => (hmem y).mp hy⟩

namespace Cadence

/-! ## One agent -/

variable {id t : UInt64} {every : UInt32}

lemma toNat_every_staggered (id : UInt64) (every : UInt32) :
    (staggered id every).every.toNat = max every.toNat 1 := by
  have hmax : (staggered id every).every = if every ≤ 1 then 1 else every := rfl
  have hone : (1 : UInt32).toNat = 1 := rfl
  rw [hmax, apply_ite UInt32.toNat, hone, max_def]
  exact if_congr (UInt32.le_iff_toNat_le.trans (by rw [hone])) rfl rfl

lemma toNat_offset_staggered (id : UInt64) (every : UInt32) :
    (staggered id every).offset.toNat = id.toNat % max every.toNat 1 := by
  have hevery : (max every 1).toNat = max every.toNat 1 := toNat_every_staggered id every
  have hlt : id.toNat % (max every 1).toNat < 4294967296 :=
    (Nat.mod_lt _ (by omega)).trans (max every 1).toNat_lt
  rw [staggered, ← hevery]
  dsimp only
  rw [UInt64.toNat_toUInt32, UInt64.toNat_mod, UInt32.toNat_toUInt64, Nat.mod_eq_of_lt hlt]

/-- **An agent thinks on the ticks that its number makes up to a multiple of the interval.** -/
theorem thinksOn_staggered (h : t.toNat + max every.toNat 1 ≤ UInt64.size) :
    (staggered id every).thinksOn t =
      .ok (decide (max every.toNat 1 ∣ t.toNat + id.toNat)) := by
  have hoffset := toNat_offset_staggered id every
  have hlt : id.toNat % max every.toNat 1 < max every.toNat 1 := Nat.mod_lt _ (by omega)
  have hfits : (staggered id every).Fits t := by
    rw [Fits, hoffset]
    omega
  rw [thinksOn_eq, if_pos hfits, toNat_every_staggered, hoffset, max_eq_left (le_max_right _ _)]
  have hmod : t.toNat + id.toNat % max every.toNat 1 ≡ t.toNat + id.toNat
      [MOD max every.toNat 1] := (Nat.mod_modEq _ _).add_left _
  exact congrArg Except.ok (decide_eq_decide.mpr (hmod.dvd_iff dvd_rfl))

/-! ## Agents with consecutive numbers -/

/-- How agents that are staggered over an interval of `e` ticks share it out. -/
structure Spreads (every : UInt32) (e : ℕ) : Prop where
  /-- An agent is answered on every tick with which an interval can begin, and it thinks on those
  that are congruent to minus its number. -/
  thinksOn : ∀ id t : UInt64, t.toNat + e ≤ UInt64.size →
    (staggered id every).thinksOn t = .ok (decide ((t.toNat : ℤ) ≡ -id.toNat [ZMOD e]))
  /-- At every such tick, out of `k * e` agents with consecutive numbers `k` think. -/
  agents : ∀ (k first : ℕ) (t : UInt64), first + k * e ≤ UInt64.size →
    t.toNat + e ≤ UInt64.size →
    #{id ∈ Ico first (first + k * e) |
      (staggered id.toUInt64 every).thinksOn t = .ok true} = k
  /-- An agent thinks on exactly one out of `e` consecutive such ticks. -/
  ticks : ∀ (id : UInt64) (first : ℕ), (∀ t ∈ Ico first (first + e), t + e ≤ UInt64.size) →
    ∃! t, t ∈ Ico first (first + e) ∧ (staggered id every).thinksOn t.toUInt64 = .ok true

/-- **Staggered agents spread evenly over their interval**, which is one tick if it is given as
zero. -/
theorem staggered_spreads (every : UInt32) : Spreads every (max every.toNat 1) := by
  have hpos : 0 < max every.toNat 1 := by omega
  have hthinks : ∀ id t : UInt64, t.toNat + max every.toNat 1 ≤ UInt64.size →
      ((staggered id every).thinksOn t = .ok true ↔ max every.toNat 1 ∣ t.toNat + id.toNat) := by
    intro id t ht
    rw [thinksOn_staggered ht, Except.ok.injEq, decide_eq_true_iff]
  constructor
  case thinksOn =>
    intro id t ht
    rw [thinksOn_staggered ht]
    refine congrArg Except.ok (decide_eq_decide.mpr ?_)
    rw [Int.modEq_comm, Int.modEq_iff_dvd, sub_neg_eq_add, ← Nat.cast_add, Int.natCast_dvd_natCast]
  case agents =>
    intro k first t hblock ht
    refine (congrArg card (filter_congr fun id hmem => ?_)).trans
      (card_dvd_add hpos k first t.toNat)
    have hid : id < UInt64.size := (mem_Ico.mp hmem).2.trans_le hblock
    rw [hthinks _ t ht, UInt64.toNat_ofNat_of_lt' hid, Nat.add_comm]
  case ticks =>
    intro id first hwindow
    refine (existsUnique_congr fun t => and_congr_right fun ht => ?_).mpr
      (existsUnique_dvd_add hpos first id.toNat)
    have htick : t.toUInt64.toNat = t :=
      UInt64.toNat_ofNat_of_lt' ((Nat.lt_add_of_pos_right hpos).trans_le (hwindow t ht))
    rw [hthinks id _ (htick.symm ▸ hwindow t ht), htick]

/-- The six agents with the last numbers of all, at the last tick with which their interval of three
can begin; the last one of them on the last three such ticks; and two agents whose interval is given
as zero. -/
theorem staggered_spreads_last :
    Spreads 3 3 ∧ Spreads 0 1 ∧
      #{id ∈ Ico 18446744073709551610 18446744073709551616 |
        (staggered id.toUInt64 3).thinksOn 18446744073709551613 = .ok true} = 2 ∧
      (∃! t, t ∈ Ico 18446744073709551611 18446744073709551614 ∧
        (staggered 18446744073709551615 3).thinksOn t.toUInt64 = .ok true) ∧
      #{id ∈ Ico 7 9 | (staggered id.toUInt64 0).thinksOn 18446744073709551615 = .ok true} = 2 := by
  have hthree : Spreads 3 3 := staggered_spreads 3
  have hzero : Spreads 0 1 := staggered_spreads 0
  refine ⟨hthree, hzero, hthree.agents 2 18446744073709551610 18446744073709551613 le_rfl le_rfl,
    hthree.ticks 18446744073709551615 18446744073709551611 fun t ht => ?_,
    hzero.agents 2 7 18446744073709551615 (by decide) le_rfl⟩
  have hsize : UInt64.size = 18446744073709551616 := rfl
  have hlt := (mem_Ico.mp ht).2
  omega

end Cadence

end BehaviorTree
