import BehaviorTree.Blueprint
import BehaviorTree.Proofs.Validity
import Mathlib.Data.List.Perm.Subperm

/-!
# Handing out identities

`assignIds` takes the identities of nodes that have none pinned from the numbers that are free,
counted out in advance.  An allocator does not count in advance: it keeps the pinned identities in
order and a counter, and whenever it is asked it moves the counter on until it stands at a number
that it does not find among them by halving.  `Breakdown` is what can go wrong on the way.

* **`Allocator.halving_iff`** — halving finds what there is, also where it stands more than once.
* **`Supplies.draw`** — the search ends, the counter stays in range, and what is drawn is the next
  free number, as long as fewer than `2 ^ 64` numbers are to be looked at.
* `Smallest` — a list is the smallest numbers that are not pinned, in increasing order.
  **`allocated_assignIds`**: pinned identities stay, and the others are these.
* **`firstRepeat_assignIds`** — so what repeats first is what is pinned twice first.
-/

namespace BehaviorTree

/-- What can go wrong while a tree is laid out, whatever it is a tree of. -/
inductive Breakdown
  /-- A counter is to go past the largest number. -/
  | overflow
  | outOfTime
  /-- A walk leaves the arena, or does not end in time. -/
  | lost
  deriving DecidableEq

/-! ## The allocator -/

/-- Hands out identities, except for those that are reserved. -/
structure Allocator where
  /-- In increasing order; what is reserved twice stands there twice. -/
  reserved : List NodeId
  /-- The next number to look at. -/
  next : UInt64

namespace Allocator

/-- An allocator that has handed nothing out. -/
def make (pinned : List NodeId) : Allocator := ⟨pinned.mergeSort fun a b => a.val ≤ b.val, 0⟩

/-- Whether an identity stands at one of `size` places from `base` on.  Of two places or more one
half is looked at, the upper one unless what stands first in it is too large. -/
def halving (ids : List NodeId) (id : NodeId) (base size : Nat) : Bool :=
  if 1 < size then
    let middle := base + size / 2
    let above := ids[middle]?.any fun pivot => id.val < pivot.val
    halving ids id (if above then base else middle) (size - size / 2)
  else ids[base]? = some id
termination_by size
decreasing_by omega

def reserves (a : Allocator) (id : NodeId) : Bool := halving a.reserved id 0 a.reserved.length

/-- The next number, if there is one. -/
def increment (n : UInt64) : Except Breakdown UInt64 :=
  if n.toNat + 1 < UInt64.size then .ok (n + 1) else .error .overflow

/-- The first number from `n` on that is not reserved. -/
def skip (a : Allocator) : (time : Nat) → (n : UInt64) → Except Breakdown UInt64
  | 0, _ => .error .outOfTime
  | time + 1, n => do
    if a.reserves ⟨n⟩ then
      let n ← increment n
      a.skip time n
    else return n

/-- Hands out an identity. -/
def draw (time : Nat) (a : Allocator) : Except Breakdown (NodeId × Allocator) := do
  let free ← a.skip time a.next
  let next ← increment free
  return (⟨free⟩, ⟨a.reserved, next⟩)

/-- The identity of a node: the pinned one, or else one that is handed out. -/
def name (time : Nat) (a : Allocator) : Option NodeId → Except Breakdown (NodeId × Allocator)
  | some id => .ok (id, a)
  | none => a.draw time

/-! ### Halving -/

/-- The identities stand in increasing order, with repetitions. -/
def Ascending (ids : List NodeId) : Prop := ids.Pairwise fun a b => a.val ≤ b.val

lemma ascending_make (pinned : List NodeId) : Ascending (make pinned).reserved := by
  have hsorted : (make pinned).reserved.Pairwise fun a b => decide (a.val ≤ b.val) = true := by
    refine List.pairwise_mergeSort (fun a b c hab hbc => ?_) (fun a b => ?_) pinned
    · simp only [decide_eq_true_eq] at hab hbc ⊢
      exact UInt64.le_trans hab hbc
    · simpa using UInt64.le_total a.val b.val
  exact hsorted.imp fun h => of_decide_eq_true h

lemma Ascending.le {ids : List NodeId} (h : Ascending ids) {i j : Nat} {a b : NodeId} (hij : i ≤ j)
    (ha : ids[i]? = some a) (hb : ids[j]? = some b) : a.val ≤ b.val := by
  obtain ⟨hi, rfl⟩ := List.getElem?_eq_some_iff.mp ha
  obtain ⟨hj, rfl⟩ := List.getElem?_eq_some_iff.mp hb
  rcases Nat.eq_or_lt_of_le hij with rfl | hlt
  · exact UInt64.le_refl _
  · exact List.pairwise_iff_getElem.mp h i j hi hj hlt

section Halves

variable {ids : List NodeId} {id pivot : NodeId} {base middle top stop : Nat}

/-- Nothing is lost by leaving out places from a pivot on that is too large. -/
lemma Ascending.exists_lower (h : Ascending ids) (hpivot : ids[middle]? = some pivot)
    (hlt : id.val < pivot.val) (htop : middle ≤ top) (hstop : top ≤ stop) :
    (∃ i, base ≤ i ∧ i < top ∧ ids[i]? = some id) ↔
      ∃ i, base ≤ i ∧ i < stop ∧ ids[i]? = some id := by
  refine exists_congr fun i => ?_
  constructor
  · rintro ⟨hi, hi', hid⟩
    exact ⟨hi, Nat.lt_of_lt_of_le hi' hstop, hid⟩
  · rintro ⟨hi, -, hid⟩
    refine ⟨hi, ?_, hid⟩
    by_contra hge
    have hle := h.le (Nat.le_trans htop (Nat.not_lt.mp hge)) hpivot hid
    exact UInt64.lt_irrefl _ (UInt64.lt_of_lt_of_le hlt hle)

/-- Nothing is lost by leaving out places in front of a pivot that is not too large: what stands
there and at none of the others is the pivot itself. -/
lemma Ascending.exists_upper (h : Ascending ids) (hpivot : ids[middle]? = some pivot)
    (hle : pivot.val ≤ id.val) (hbase : base ≤ middle) (hstop : middle < stop) :
    (∃ i, middle ≤ i ∧ i < stop ∧ ids[i]? = some id) ↔
      ∃ i, base ≤ i ∧ i < stop ∧ ids[i]? = some id := by
  constructor
  · rintro ⟨i, hi, hi', hid⟩
    exact ⟨i, Nat.le_trans hbase hi, hi', hid⟩
  · rintro ⟨i, hi, hi', hid⟩
    rcases Nat.lt_or_ge i middle with hbelow | habove
    · have hge := h.le (Nat.le_of_lt hbelow) hid hpivot
      have heq : pivot = id := congrArg NodeId.mk (UInt64.le_antisymm hle hge)
      exact ⟨middle, Nat.le_refl _, hstop, heq ▸ hpivot⟩
    · exact ⟨i, habove, hi', hid⟩

end Halves

/-- **Halving finds an identity exactly if it is there.**  If it stands more than once, the half
that is left has one of the places. -/
theorem halving_iff {ids : List NodeId} (h : Ascending ids) (id : NodeId) {base size : Nat}
    (hpos : 0 < size) (hsize : base + size ≤ ids.length) :
    halving ids id base size = true ↔ ∃ i, base ≤ i ∧ i < base + size ∧ ids[i]? = some id := by
  fun_induction halving ids id base size with
  | case1 base size hlt middle above ih =>
      have hmiddle : middle < ids.length := by omega
      have hpivot := List.getElem?_eq_getElem hmiddle
      simp only [dite_eq_ite] at ih
      rw [ih (by omega) (by split <;> omega)]
      cases habove : above with
      | true =>
          have hless : id.val < ids[middle].val := by
            simpa [above, hpivot] using habove
          simp only [if_true]
          exact h.exists_lower hpivot hless (by omega) (by omega)
      | false =>
          have hleast : ids[middle].val ≤ id.val := by
            rw [← UInt64.not_lt]
            simpa [above, hpivot] using habove
          have hstop : middle + (size - size / 2) = base + size := by omega
          simp only [Bool.false_eq_true, if_false, hstop]
          exact h.exists_upper hpivot hleast (by omega) (by omega)
  | case2 base size hle =>
      obtain rfl : size = 1 := by omega
      rw [decide_eq_true_iff]
      constructor
      · exact fun hid => ⟨base, Nat.le_refl _, Nat.lt_succ_self _, hid⟩
      · rintro ⟨i, hi, hi', hid⟩
        obtain rfl : i = base := by omega
        exact hid

lemma reserves_iff {a : Allocator} (h : Ascending a.reserved) (id : NodeId) :
    a.reserves id = true ↔ id ∈ a.reserved := by
  rw [reserves]
  cases hids : a.reserved with
  | nil => simp [halving]
  | cons x xs =>
      rw [← hids, halving_iff h id (by simp [hids]) (by simp), List.mem_iff_getElem?]
      simp only [Nat.zero_le, Nat.zero_add, true_and]
      refine exists_congr fun i => ⟨fun h => h.2, fun h => ⟨?_, h⟩⟩
      exact (List.getElem?_eq_some_iff.mp h).1

/-! ### Drawing -/

/-- The numbers from `n` on and below `limit`, as identities, that are not among the pinned ones. -/
def freeBetween (pinned : List NodeId) (n limit : Nat) : List NodeId :=
  ((List.range' n (limit - n)).map fun k => NodeId.mk k.toUInt64).filter fun id =>
    !pinned.contains id

/-- The allocator looks at numbers below `limit` only until the supply is used up, and the supply is
what it hands out. -/
structure Supplies (a : Allocator) (pinned : List NodeId) (limit : Nat) (supply : List NodeId) :
    Prop where
  ascending : Ascending a.reserved
  reserved : ∀ id, id ∈ a.reserved ↔ id ∈ pinned
  supply : freeBetween pinned a.next.toNat limit = supply

section Draw

variable {a : Allocator} {pinned : List NodeId} {limit time : Nat} {supply : List NodeId}

lemma freeIds_eq (limit : Nat) (pinned : List NodeId) :
    freeIds limit pinned = freeBetween pinned 0 limit := by
  rw [freeIds, freeBetween, List.range_eq_range', Nat.sub_zero]

lemma freeBetween_of_le {n : Nat} (h : limit ≤ n) : freeBetween pinned n limit = [] := by
  simp [freeBetween, Nat.sub_eq_zero_of_le h]

lemma freeBetween_step {n : Nat} (h : n < limit) :
    freeBetween pinned n limit =
      if ⟨n.toUInt64⟩ ∈ pinned then freeBetween pinned (n + 1) limit
      else ⟨n.toUInt64⟩ :: freeBetween pinned (n + 1) limit := by
  obtain ⟨k, hk⟩ : ∃ k, limit - n = k + 1 := ⟨limit - n - 1, by omega⟩
  have hk' : limit - (n + 1) = k := by omega
  rw [freeBetween, freeBetween, hk, hk', List.range'_succ, List.map_cons, List.filter_cons]
  simp

lemma increment_of_lt {n : UInt64} (h : n.toNat + 1 < UInt64.size) :
    ∃ m : UInt64, increment n = .ok m ∧ m.toNat = n.toNat + 1 := by
  refine ⟨n + 1, if_pos h, ?_⟩
  rw [UInt64.toNat_add]
  exact Nat.mod_eq_of_lt h

/-- The search for a free number ends as long as there is one below the limit. -/
lemma skip_of_free (h : a.Supplies pinned limit supply) (hlimit : limit < UInt64.size)
    {n : UInt64} {id : NodeId} {rest : List NodeId} (htime : limit - n.toNat ≤ time)
    (hfree : freeBetween pinned n.toNat limit = id :: rest) :
    a.skip time n = .ok id.val ∧ id.val.toNat < limit ∧
      freeBetween pinned (id.val.toNat + 1) limit = rest := by
  have hbelow : n.toNat < limit := by
    by_contra hge
    rw [freeBetween_of_le (Nat.not_lt.mp hge)] at hfree
    cases hfree
  induction time generalizing n with
  | zero => omega
  | succ time ih =>
      have hself : (⟨n.toNat.toUInt64⟩ : NodeId) = ⟨n⟩ := by simp
      rw [freeBetween_step hbelow, hself] at hfree
      rw [skip]
      by_cases hn : (⟨n⟩ : NodeId) ∈ pinned
      · -- there is a free number further on, so the counter has not come to the limit
        obtain ⟨m, hm, hval⟩ := increment_of_lt (Nat.lt_of_le_of_lt hbelow hlimit)
        rw [if_pos hn, ← hval] at hfree
        have hreserved : a.reserves ⟨n⟩ = true :=
          (reserves_iff h.ascending _).mpr ((h.reserved _).mpr hn)
        have hbelow' : m.toNat < limit := by
          by_contra hge
          rw [freeBetween_of_le (Nat.not_lt.mp hge)] at hfree
          cases hfree
        rw [if_pos hreserved, hm]
        exact ih (by omega) hfree hbelow'
      · rw [if_neg hn, List.cons.injEq] at hfree
        obtain ⟨rfl, hrest⟩ := hfree
        have hreserved : ¬ a.reserves ⟨n⟩ = true := fun hr =>
          hn ((h.reserved _).mp ((reserves_iff h.ascending _).mp hr))
        rw [if_neg hreserved]
        exact ⟨rfl, hbelow, hrest⟩

/-- **Drawing from a supply** comes back in time with the first of it, and leaves the rest.  The
counter stays in range. -/
theorem Supplies.draw {id : NodeId} (h : a.Supplies pinned limit (id :: supply))
    (hlimit : limit < UInt64.size) (htime : limit ≤ time) :
    ∃ a', a.draw time = .ok (id, a') ∧ a'.Supplies pinned limit supply := by
  obtain ⟨hskip, hbelow, hrest⟩ :=
    skip_of_free h hlimit (Nat.le_trans (Nat.sub_le _ _) htime) h.supply
  obtain ⟨next, hnext, hval⟩ := increment_of_lt (Nat.lt_of_le_of_lt hbelow hlimit)
  refine ⟨⟨a.reserved, next⟩, ?_, h.ascending, h.reserved, by rw [hval, hrest]⟩
  rw [Allocator.draw, hskip]
  simp only [bind, Except.bind, hnext]
  rfl

/-- An allocator that has handed nothing out supplies all the free numbers. -/
lemma supplies_make (pinned : List NodeId) (limit : Nat) :
    (make pinned).Supplies pinned limit (freeIds limit pinned) where
  ascending := ascending_make pinned
  reserved _ := List.mem_mergeSort
  supply := (freeIds_eq limit pinned).symm

end Draw

end Allocator

/-! ## The identities of a tree -/

/-- The identities are the smallest numbers that are not pinned, in increasing order. -/
structure Smallest (pinned drawn : List NodeId) : Prop where
  increasing : drawn.Pairwise fun a b => a.val < b.val
  free : ∀ id ∈ drawn, id ∉ pinned
  smallest : ∀ id ∈ drawn, ∀ other : NodeId, other.val < id.val → other ∉ pinned → other ∈ drawn

/-- Those of the identities that belong to nodes with no identity pinned. -/
def drawn (pins : List (Option NodeId)) (ids : List NodeId) : List NodeId :=
  ((pins.zip ids).filter fun p => p.1.isNone).map Prod.snd

/-- Nodes with the given pins have the given identities: pinned ones stay, and the others are the
smallest that are pinned nowhere, in the order of the nodes. -/
structure Allocated (pins : List (Option NodeId)) (ids : List NodeId) : Prop where
  pinned : List.Forall₂ (fun pin id => ∀ p, pin = some p → id = p) pins ids
  smallest : Smallest (pins.filterMap id) (drawn pins ids)

/-- How many nodes have no identity pinned. -/
def vacancies (pins : List (Option NodeId)) : Nat := pins.countP Option.isNone

section Fill

variable {pins : List (Option NodeId)} {supply : List NodeId}

@[simp] lemma vacancies_some (id : NodeId) (pins : List (Option NodeId)) :
    vacancies (some id :: pins) = vacancies pins := by simp [vacancies]

@[simp] lemma vacancies_none (pins : List (Option NodeId)) :
    vacancies (none :: pins) = vacancies pins + 1 := by simp [vacancies]

lemma vacancies_append (ps qs : List (Option NodeId)) :
    vacancies (ps ++ qs) = vacancies ps + vacancies qs := List.countP_append

lemma vacancies_add_pinned (pins : List (Option NodeId)) :
    vacancies pins + (pins.filterMap id).length = pins.length := by
  induction pins with
  | nil => rfl
  | cons pin pins ih =>
      cases pin with
      | some id => simp [← ih, Nat.add_assoc]
      | none => simp [← ih, Nat.add_right_comm]

/-- Filling goes on with what is left of the supply. -/
lemma fillIds_append (ps qs : List (Option NodeId)) (supply : List NodeId) :
    fillIds (ps ++ qs) supply =
      fillIds ps supply ++ fillIds qs (supply.drop (vacancies ps)) := by
  induction ps generalizing supply with
  | nil => rfl
  | cons pin ps ih =>
      cases pin with
      | some id => simp [fillIds, ih]
      | none => cases supply <;> simp [fillIds, ih]

lemma forall₂_fillIds (pins : List (Option NodeId)) (supply : List NodeId) :
    List.Forall₂ (fun pin id => ∀ p, pin = some p → id = p) pins (fillIds pins supply) := by
  induction pins generalizing supply with
  | nil => exact .nil
  | cons pin pins ih =>
      cases pin with
      | some id => exact .cons (fun p hp => Option.some.inj hp) (ih supply)
      | none =>
          cases supply with
          | nil => exact .cons (fun p hp => by cases hp) (ih [])
          | cons id supply => exact .cons (fun p hp => by cases hp) (ih supply)

/-- What has been drawn is the beginning of the supply. -/
lemma drawn_fillIds (h : vacancies pins ≤ supply.length) :
    drawn pins (fillIds pins supply) = supply.take (vacancies pins) := by
  induction pins generalizing supply with
  | nil => simp [drawn, vacancies]
  | cons pin pins ih =>
      cases pin with
      | some id =>
          rw [vacancies_some] at h ⊢
          simpa [drawn, fillIds] using ih h
      | none =>
          rw [vacancies_none] at h ⊢
          cases supply with
          | nil => simp at h
          | cons id supply =>
              simpa [drawn, fillIds] using ih (Nat.le_of_succ_le_succ h)

/-- What repeats first is what is pinned for the second time first, if what is drawn is pinned
nowhere. -/
lemma firstRepeat_fillIds {seen seen' : List NodeId} (h : vacancies pins ≤ supply.length)
    (hnodup : supply.Nodup) (hfree : ∀ x ∈ supply, x ∉ pins.filterMap id ∧ x ∉ seen)
    (hseen : ∀ x ∈ pins.filterMap id, x ∈ seen ↔ x ∈ seen') :
    firstRepeat seen (fillIds pins supply) = firstRepeat seen' (pins.filterMap id) := by
  induction pins generalizing supply seen seen' with
  | nil => rfl
  | cons pin pins ih =>
      cases pin with
      | some p =>
          rw [vacancies_some] at h
          simp only [List.filterMap_cons_some (f := id) rfl, List.mem_cons, not_or,
            forall_eq_or_imp] at hfree hseen
          obtain ⟨hp, hrest⟩ := hseen
          rw [List.filterMap_cons_some (f := id) rfl, fillIds, firstRepeat, firstRepeat]
          by_cases hmem : p ∈ seen
          · rw [if_pos (by simpa using hmem), if_pos (by simpa using hp.mp hmem)]
          · rw [if_neg (by simpa using hmem), if_neg (by simpa using mt hp.mpr hmem)]
            refine ih h hnodup (fun x hx => ?_) fun x hx => ?_
            · obtain ⟨⟨hne, hout⟩, hnew⟩ := hfree x hx
              exact ⟨hout, by simp [hne, hnew]⟩
            · simp [hrest x hx]
      | none =>
          rw [vacancies_none] at h
          cases supply with
          | nil => simp at h
          | cons x supply =>
              rw [List.nodup_cons] at hnodup
              simp only [List.filterMap_cons_none (f := id) rfl, List.forall_mem_cons]
                at hfree hseen ⊢
              obtain ⟨⟨hout, hnew⟩, hfree⟩ := hfree
              rw [fillIds, firstRepeat, if_neg (by simpa using hnew)]
              refine ih (Nat.le_of_succ_le_succ h) hnodup.2 (fun y hy => ?_) fun p hp => ?_
              · have hne : y ≠ x := fun heq => hnodup.1 (heq ▸ hy)
                exact ⟨(hfree y hy).1, by simp [hne, (hfree y hy).2]⟩
              · have hne : p ≠ x := fun heq => hout (heq ▸ hp)
                simp [hne, hseen p hp]

end Fill

section Free

variable {pinned : List NodeId} {n : Nat}

/-- The numbers below `n`, as identities, stand in increasing order. -/
lemma pairwise_numbers (hn : n ≤ UInt64.size) :
    ((List.range n).map fun k => NodeId.mk k.toUInt64).Pairwise fun a b => a.val < b.val := by
  rw [List.pairwise_map]
  refine List.pairwise_lt_range.imp_of_mem fun {i j} hi hj hlt => ?_
  have hi' : i < UInt64.size := Nat.lt_of_lt_of_le (List.mem_range.mp hi) hn
  have hj' : j < UInt64.size := Nat.lt_of_lt_of_le (List.mem_range.mp hj) hn
  rw [UInt64.lt_iff_toNat_lt]
  simpa [Nat.mod_eq_of_lt hi', Nat.mod_eq_of_lt hj'] using hlt

lemma pairwise_freeIds (hn : n ≤ UInt64.size) (pinned : List NodeId) :
    (freeIds n pinned).Pairwise fun a b => a.val < b.val := (pairwise_numbers hn).filter _

lemma nodup_of_pairwise {ids : List NodeId} (h : ids.Pairwise fun a b => a.val < b.val) :
    ids.Nodup := by
  refine List.Pairwise.imp (fun hlt heq => ?_) h
  rw [heq] at hlt
  exact UInt64.lt_irrefl _ hlt

lemma not_mem_of_freeIds {id : NodeId} (h : id ∈ freeIds n pinned) : id ∉ pinned := by
  simpa using (List.mem_filter.mp h).2

lemma mem_freeIds (hn : n ≤ UInt64.size) {id other : NodeId} (h : id ∈ freeIds n pinned)
    (hlt : other.val < id.val) (hfree : other ∉ pinned) : other ∈ freeIds n pinned := by
  obtain ⟨k, hk, rfl⟩ := List.mem_map.mp (List.mem_filter.mp h).1
  have hk' := List.mem_range.mp hk
  have hbelow : other.val.toNat < k := by
    rw [UInt64.lt_iff_toNat_lt] at hlt
    simpa [Nat.mod_eq_of_lt (Nat.lt_of_lt_of_le hk' hn)] using hlt
  refine List.mem_filter.mpr ⟨List.mem_map.mpr ⟨other.val.toNat, ?_, by simp⟩, by simpa using hfree⟩
  exact List.mem_range.mpr (Nat.lt_trans hbelow hk')

/-- Among the first `n` numbers at most as many are taken as identities are pinned. -/
lemma le_length_freeIds (hn : n ≤ UInt64.size) (pinned : List NodeId) :
    n ≤ (freeIds n pinned).length + pinned.length := by
  set numbers := (List.range n).map fun k => NodeId.mk k.toUInt64 with hnumbers
  have hlen : numbers.length = n := by simp [hnumbers]
  have hsplit := numbers.length_eq_length_filter_add fun id => !pinned.contains id
  have htaken : (numbers.filter fun id => !!pinned.contains id).Nodup :=
    (nodup_of_pairwise (pairwise_numbers hn)).filter _
  have hsub : (numbers.filter fun id => !!pinned.contains id) ⊆ pinned := fun id hid => by
    simpa using (List.mem_filter.mp hid).2
  have hle := (List.subperm_of_subset htaken hsub).length_le
  rw [hlen] at hsplit
  rw [freeIds, ← hnumbers]
  omega

/-- What is drawn from the free numbers are the smallest ones. -/
lemma smallest_take (hn : n ≤ UInt64.size) (pinned : List NodeId) (k : Nat) :
    Smallest pinned ((freeIds n pinned).take k) := by
  have hincreasing := pairwise_freeIds hn pinned
  refine ⟨hincreasing.sublist (List.take_sublist _ _),
    fun id hid => not_mem_of_freeIds (List.mem_of_mem_take hid), fun id hid other hlt hfree => ?_⟩
  have hmem := mem_freeIds hn (List.mem_of_mem_take hid) hlt hfree
  rw [← List.take_append_drop k (freeIds n pinned)] at hmem hincreasing
  refine (List.mem_append.mp hmem).resolve_right fun hlater => ?_
  have hgt := (List.pairwise_append.mp hincreasing).2.2 id hid other hlater
  exact UInt64.lt_irrefl _ (UInt64.lt_trans hlt hgt)

end Free

section Assign

variable {pins : List (Option NodeId)}

lemma vacancies_le (h : pins.length ≤ UInt64.size) :
    vacancies pins ≤ (freeIds pins.length (pins.filterMap id)).length := by
  have hcount := vacancies_add_pinned pins
  have henough := le_length_freeIds h (pins.filterMap id)
  omega

/-- **The identities of a tree**: pinned ones stay, and the others are the smallest numbers that are
pinned nowhere, in the order of the nodes. -/
theorem allocated_assignIds (h : pins.length ≤ UInt64.size) : Allocated pins (assignIds pins) where
  pinned := forall₂_fillIds pins _
  smallest := by
    rw [assignIds, drawn_fillIds (vacancies_le h)]
    exact smallest_take h _ _

/-- **What repeats first** is what is pinned for the second time first. -/
theorem firstRepeat_assignIds (h : pins.length ≤ UInt64.size) :
    firstRepeat [] (assignIds pins) = firstRepeat [] (pins.filterMap id) :=
  firstRepeat_fillIds (vacancies_le h) (nodup_of_pairwise (pairwise_freeIds h _))
    (fun _ hx => ⟨not_mem_of_freeIds hx, List.not_mem_nil⟩) fun _ _ => Iff.rfl

end Assign

end BehaviorTree
