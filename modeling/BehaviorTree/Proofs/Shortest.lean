import BehaviorTree.Proofs.Rounding
import Mathlib.Data.Nat.Cast.Order.Field

/-!
# The shortest decimal rounds back

The digits and the power of ten that a number is written with lie near the number, and so are
rounded to it again.  A grid is given up only when neither neighbour on it lies in the interval of
the number; on the grid of seventeen digits the upper one does, since the grid is finer than half
the distance to the next number.

* `pow_digitCount_le`, `lt_pow_digitCount` — a natural between powers of ten.
* `onGrid_spec` — what a grid yields lies near the number.
* **`decimal_near`** — the shortest decimal is found, is not zero, and lies near the number.
* `trim_value` — dropping zeros keeps the value.
-/

namespace BehaviorTree.Binary

namespace Shortest

/-! ## Digits -/

lemma lt_pow_digitCount (n : ℕ) : n < 10 ^ digitCount n :=
  (Nat.length_toDigits_le_iff (by decide) Nat.length_toDigits_pos).mp le_rfl

lemma pow_digitCount_le {n : ℕ} (hn : 0 < n) : 10 ^ (digitCount n - 1) ≤ n := by
  rcases Nat.eq_zero_or_pos (digitCount n - 1) with hcount | hcount
  · rw [hcount, pow_zero]
    exact hn
  · have hlen : ¬ (Nat.toDigits 10 n).length ≤ digitCount n - 1 := by
      rw [digitCount]
      have := Nat.length_toDigits_pos (b := 10) (n := n)
      omega
    rw [Nat.length_toDigits_le_iff (by decide) hcount] at hlen
    exact not_lt.mp hlen

/-- The power of ten below the first digit. -/
lemma zpow_magnitude_le {num den scale : ℕ} (hden : 0 < den) (h : den ≤ num * 10 ^ scale) :
    (10 : ℚ) ^ (magnitude num den scale - 1) ≤ num / den := by
  have hpos : 0 < num * 10 ^ scale / den := Nat.div_pos h hden
  have hcount : 0 < digitCount (num * 10 ^ scale / den) := Nat.length_toDigits_pos
  have hle : ((10 ^ (digitCount (num * 10 ^ scale / den) - 1) : ℕ) : ℚ) ≤
      ((num * 10 ^ scale : ℕ) : ℚ) / den :=
    (Nat.cast_le.mpr (pow_digitCount_le hpos)).trans Nat.cast_div_le
  have hsplit : magnitude num den scale - 1 =
      (digitCount (num * 10 ^ scale / den) - 1 : ℕ) - (scale : ℤ) := by
    rw [magnitude, Nat.pow_eq]
    omega
  rw [hsplit, zpow_sub₀ (by norm_num), zpow_natCast, zpow_natCast, div_le_iff₀ (by positivity)]
  push_cast at hle
  rwa [mul_div_right_comm] at hle

/-! ## Grids -/

section Grid

variable {f : Format} {m : ℕ} {q : ℤ}

/-- A multiple of a power of ten is contained in the interval of a number if it is near it. -/
lemma contains_multiple_iff (hm : 0 < m) (n : ℕ) (place : ℤ) :
    (Interval.around f m q).contains (n * Nat.pow 10 place.toNat) (Nat.pow 10 (-place).toNat) =
      true ↔ f.Near m q (n * 10 ^ place) := by
  have hpow := zpow_eq_ratio (b := 10) (by decide) place
  have hpos : 0 < Nat.pow 10 (-place).toNat := Nat.pow_pos (by decide)
  rw [Nat.cast_ofNat] at hpow
  rw [Format.contains_around_iff hm hpos, hpow, Nat.cast_mul, mul_div_assoc]

lemma around_value :
    ((Interval.around f m q).value : ℚ) / (Interval.around f m q).den = m * 2 ^ q := by
  have hpow := zpow_eq_ratio two_pos q
  rw [Nat.cast_ofNat] at hpow
  rw [Interval.around, hpow]
  push_cast
  field_simp

/-- What a grid yields is near the number. -/
lemma onGrid_spec (hm : 0 < m) {place : ℤ} {digits : ℕ}
    (h : onGrid (Interval.around f m q) place = some digits) :
    digits ≠ 0 ∧ f.Near m q (digits * 10 ^ place) := by
  rw [← contains_multiple_iff hm]
  rw [onGrid] at h
  dsimp only at h
  split at h
  · next hfloor hnext =>
      rw [Bool.and_eq_true, bne_iff_ne] at hfloor
      rw [← Option.some.inj h]
      split
      · exact ⟨hfloor.2, hfloor.1⟩
      · exact ⟨Nat.succ_ne_zero _, hnext⟩
  · next hfloor _ =>
      rw [Bool.and_eq_true, bne_iff_ne] at hfloor
      rw [← Option.some.inj h]
      exact ⟨hfloor.2, hfloor.1⟩
  · next hnext =>
      rw [← Option.some.inj h]
      exact ⟨Nat.succ_ne_zero _, hnext⟩
  · cases h

/-- A grid yields something if the neighbour above the number on it is near the number. -/
lemma exists_onGrid (hm : 0 < m) {place : ℤ}
    (h : ∀ n : ℕ, (m * 2 ^ q : ℚ) < n * 10 ^ place → (n * 10 ^ place : ℚ) ≤ m * 2 ^ q + 10 ^ place →
      f.Near m q (n * 10 ^ place)) :
    ∃ digits, onGrid (Interval.around f m q) place = some digits := by
  have hpow : (0 : ℚ) < 10 ^ place := zpow_pos (by norm_num) place
  set i := Interval.around f m q with hi
  set num := i.value * Nat.pow 10 (-place).toNat with hnum
  set den := i.den * Nat.pow 10 place.toNat with hden
  have hdenpos : 0 < den :=
    Nat.mul_pos (Nat.mul_pos four_pos (Nat.pow_pos two_pos)) (Nat.pow_pos (by decide))
  have hratio : (num / den : ℚ) * 10 ^ place = m * 2 ^ q := by
    have := ratio_scaled (b := 10) (by decide) i.value i.den place
    rw [Nat.cast_ofNat, ← hnum, ← hden, around_value] at this
    rw [this, div_mul_cancel₀ _ hpow.ne']
  have hfloor : ((num / den : ℕ) : ℚ) ≤ num / den := Nat.cast_div_le
  have hnext : (num / den : ℚ) < (num / den : ℕ) + 1 := by
    rw [div_lt_iff₀ (Nat.cast_pos.mpr hdenpos)]
    exact_mod_cast (Nat.lt_mul_div_succ num hdenpos).trans_eq (Nat.mul_comm _ _)
  have hnear := h (num / den + 1) (by rw [← hratio]; push_cast; nlinarith)
    (by rw [← hratio]; push_cast; nlinarith)
  rw [← contains_multiple_iff hm] at hnear
  rw [onGrid]
  dsimp only
  rw [hnear]
  split <;> simp_all

/-- Every number of the format is above the power of ten from which its digits are counted. -/
lemma le_value_mul_pow (h : f.Member m q) :
    (Interval.around f m q).den ≤
      (Interval.around f m q).value * 10 ^ (f.bias + f.fractionBits) := by
  set scale := f.bias + f.fractionBits with hscale
  have hden : (0 : ℚ) < (Interval.around f m q).den :=
    Nat.cast_pos.mpr (Nat.mul_pos four_pos (Nat.pow_pos two_pos))
  have hfinest : (2 : ℚ) ^ (1 - (scale : ℤ)) ≤ 2 ^ q := by
    refine zpow_le_zpow_right₀ one_le_two ?_
    have := h.finest
    rw [Format.finestExponent] at this
    omega
  have hone : (1 : ℚ) ≤ m * 2 ^ q * 10 ^ scale := by
    have hm : (1 : ℚ) ≤ m := Nat.one_le_cast.mpr h.pos
    have hfive : (1 : ℚ) ≤ 5 ^ scale := one_le_pow₀ (by norm_num)
    calc (1 : ℚ) ≤ 1 * (2 * 5 ^ scale) := by linarith
      _ = 1 * 2 ^ (1 - (scale : ℤ)) * 10 ^ scale := by
          rw [zpow_sub₀ two_ne_zero, zpow_one, zpow_natCast, show (10 : ℚ) = 2 * 5 by norm_num,
            mul_pow]
          field_simp
      _ ≤ m * 2 ^ q * 10 ^ scale := by gcongr
  rw [← around_value, div_mul_eq_mul_div, one_le_div hden] at hone
  exact_mod_cast hone

/-- On a grid with sixteen places below the first digit the neighbour above the number is near. -/
lemma exists_onGrid_of_fine (h : f.Member m q) (hprecision : 2 ^ (f.fractionBits + 2) ≤ 10 ^ 16)
    {place : ℤ} (hplace : (10 : ℚ) ^ place * 10 ^ 16 ≤ m * 2 ^ q) :
    ∃ digits, onGrid (Interval.around f m q) place = some digits := by
  have hpow : (0 : ℚ) < 2 ^ q := zpow_pos two_pos q
  have hhalf : (10 : ℚ) ^ place * 2 < 2 ^ q := by
    have hm : (m * 2 : ℚ) < 10 ^ 16 := by
      rw [Nat.pow_succ] at hprecision
      exact_mod_cast (Nat.mul_lt_mul_of_pos_right h.small two_pos).trans_le hprecision
    have hscaled := mul_lt_mul_of_pos_right hm hpow
    linarith
  refine exists_onGrid h.pos fun n hlow hhigh => .inl ?_
  rw [lt_div_iff₀ hpow, div_lt_iff₀ hpow]
  constructor
  · nlinarith [f.reach_pos m q]
  · linarith

/-- **The shortest decimal of a number is not zero and lies near the number.** -/
theorem decimal_near (h : f.Member m q) (hprecision : 2 ^ (f.fractionBits + 2) ≤ 10 ^ 16) :
    (decimal f m q).1 ≠ 0 ∧ f.Near m q ((decimal f m q).1 * 10 ^ (decimal f m q).2) := by
  set i := Interval.around f m q with hi
  set k := magnitude i.value i.den (f.bias + f.fractionBits) with hk
  have hden : 0 < i.den := Nat.mul_pos four_pos (Nat.pow_pos two_pos)
  have hgrid : (10 : ℚ) ^ (k - (16 + 1 : ℕ)) * 10 ^ 16 ≤ m * 2 ^ q := by
    calc (10 : ℚ) ^ (k - (16 + 1 : ℕ)) * 10 ^ 16 = 10 ^ (k - 1) := by
          rw [← zpow_natCast (10 : ℚ) 16, ← zpow_add₀ (by norm_num)]
          congr 1
          omega
      _ ≤ m * 2 ^ q := by
          rw [← around_value]
          exact zpow_magnitude_le hden (le_value_mul_pow h)
  obtain ⟨last, hlast⟩ := exists_onGrid_of_fine h hprecision hgrid
  have hsome : ((List.range 17).findSome? fun n =>
      (onGrid i (k - (n + 1 : ℕ))).map fun digits => (digits, k - (n + 1 : ℕ))).isSome := by
    rw [List.findSome?_isSome_iff]
    exact ⟨16, by decide, by rw [hlast]; rfl⟩
  obtain ⟨d, hd⟩ := Option.isSome_iff_exists.mp hsome
  have hdecimal : decimal f m q = d := congrArg (Option.getD · (0, 0)) hd
  obtain ⟨n, -, hn⟩ := List.exists_of_findSome?_eq_some hd
  obtain ⟨digits, hdigits, heq⟩ := Option.map_eq_some_iff.mp hn
  rw [hdecimal, ← heq]
  exact onGrid_spec h.pos hdigits

end Grid

/-! ## Trailing zeros -/

/-- Dropping zeros keeps the value. -/
lemma trim_value (fuel : ℕ) (d : ℕ × ℤ) (hd : d.1 ≠ 0) :
    (trim fuel d).1 ≠ 0 ∧ ((trim fuel d).1 * 10 ^ (trim fuel d).2 : ℚ) = d.1 * 10 ^ d.2 := by
  induction fuel generalizing d with
  | zero => exact ⟨hd, rfl⟩
  | succ fuel ih =>
      obtain ⟨digits, place⟩ := d
      rw [trim]
      split
      · next hzero =>
          have hmul : 10 * (digits / 10) = digits :=
          Nat.mul_div_cancel' (Nat.dvd_of_mod_eq_zero hzero)
          have hne : digits / 10 ≠ 0 := by
            intro h
            rw [h] at hmul
            exact hd hmul.symm
          obtain ⟨hne', hvalue⟩ := ih (digits / 10, place + 1) hne
          refine ⟨hne', hvalue.trans ?_⟩
          dsimp only
          rw [zpow_add_one₀ (by norm_num)]
          have hcast : (10 * (digits / 10 : ℕ) : ℚ) = digits := by exact_mod_cast hmul
          rw [← hcast]
          ring
      · exact ⟨hd, rfl⟩

end Shortest

/-! ## Reading a decimal -/

namespace Format

open Shortest

variable {f : Format} {m : ℕ} {q : ℤ}

lemma bias_le (f : Format) : f.bias ≤ 2 ^ f.exponentBits := by
  have : 2 ^ (f.exponentBits - 1) ≤ 2 ^ f.exponentBits :=
    Nat.pow_le_pow_right two_pos (Nat.sub_le _ _)
  exact (Nat.sub_le _ _).trans this

/-- The numbers of a format lie between the powers of ten beyond which decimals are not looked
at. -/
lemma Member.near_bounds (h : f.Member m q) (hfinite : f.pattern m q < f.infinityBits) {v : ℚ}
    (hnear : f.Near m q v) :
    (10 : ℚ) ^ (-(2 ^ f.exponentBits + f.fractionBits : ℕ) : ℤ) ≤ v ∧
      v < 10 ^ (2 ^ f.exponentBits + f.fractionBits) := by
  set limit := 2 ^ f.exponentBits + f.fractionBits with hlimit
  have hpow : (0 : ℚ) < 2 ^ q := zpow_pos two_pos q
  have hfinest : 1 - (f.bias : ℤ) - f.fractionBits ≤ q := h.finest
  have hbias := f.bias_le
  have htop : q + 1 ≤ (2 ^ f.exponentBits : ℕ) := by
    have hsteps : (q - f.finestExponent).toNat < f.topExponent :=
      Nat.lt_of_mul_lt_mul_right (Nat.lt_of_add_right_lt hfinite)
    rw [topExponent, finestExponent, Nat.pow_eq] at hsteps
    omega
  obtain ⟨hlow, hhigh⟩ := hnear.bounds
  rw [le_div_iff₀ hpow] at hlow
  rw [div_le_iff₀ hpow] at hhigh
  constructor
  · calc (10 : ℚ) ^ (-limit : ℤ) ≤ 2 ^ (-limit : ℤ) := by
          rw [zpow_neg, zpow_neg, zpow_natCast, zpow_natCast]
          exact inv_anti₀ (by positivity) (pow_le_pow_left₀ zero_le_two (by norm_num) limit)
      _ ≤ 2 ^ (q - 1) := zpow_le_zpow_right₀ one_le_two (by omega)
      _ = 1 / 2 * 2 ^ q := by
          rw [zpow_sub_one₀ two_ne_zero]
          ring
      _ ≤ (m - f.reach m q) * 2 ^ q := by
          have hm : (1 : ℚ) ≤ m := Nat.one_le_cast.mpr h.pos
          have hreach := f.reach_le_half m q
          gcongr
          linarith
      _ ≤ v := hlow
  · calc v ≤ (m + 1 / 2) * 2 ^ q := hhigh
      _ < 2 ^ (f.fractionBits + 1) * 2 ^ q := by
          have hsmall : (m + 1 : ℚ) ≤ 2 ^ (f.fractionBits + 1) := by exact_mod_cast h.small
          gcongr
          linarith
      _ = 2 ^ ((f.fractionBits + 1 : ℕ) + q) := by rw [zpow_add₀ two_ne_zero, zpow_natCast]
      _ ≤ 2 ^ (limit : ℤ) := zpow_le_zpow_right₀ one_le_two (by omega)
      _ ≤ 10 ^ limit := by
          rw [zpow_natCast]
          exact pow_le_pow_left₀ zero_le_two (by norm_num) limit

/-- A decimal lies between the powers of ten that its places give. -/
lemma zpow_places_bounds {digits : ℕ} (hdigits : digits ≠ 0) (e : ℤ) :
    (10 : ℚ) ^ (e + digitCount digits - 1) ≤ digits * 10 ^ e ∧
      (digits * 10 ^ e : ℚ) < 10 ^ (e + digitCount digits) := by
  have hpow : (0 : ℚ) < 10 ^ e := zpow_pos (by norm_num) e
  have hcount : 0 < digitCount digits := Nat.length_toDigits_pos
  have hlow : ((10 : ℚ) ^ (digitCount digits - 1)) ≤ digits := by
    exact_mod_cast pow_digitCount_le (Nat.pos_of_ne_zero hdigits)
  have hhigh : (digits : ℚ) < 10 ^ digitCount digits := by
    exact_mod_cast lt_pow_digitCount digits
  constructor
  · have hsplit : e + digitCount digits - 1 = (digitCount digits - 1 : ℕ) + e := by omega
    rw [hsplit, zpow_add₀ (by norm_num), zpow_natCast]
    gcongr
  · rw [add_comm, zpow_add₀ (by norm_num), zpow_natCast]
    gcongr

/-- **A decimal near a number is rounded to its pattern.** -/
theorem Member.roundDecimal_of_near (h : f.Member m q) (hfinite : f.pattern m q < f.infinityBits)
    {digits : ℕ} {e : ℤ} (hdigits : digits ≠ 0) (hnear : f.Near m q (digits * 10 ^ e)) :
    f.roundDecimal digits e = f.pattern m q := by
  obtain ⟨hlow, hhigh⟩ := h.near_bounds hfinite hnear
  obtain ⟨hplaces_low, hplaces_high⟩ := zpow_places_bounds hdigits e
  have hten : (1 : ℚ) < 10 := by norm_num
  have hbelow := (zpow_lt_zpow_iff_right₀ hten).mp (hlow.trans_lt hplaces_high)
  rw [← zpow_natCast] at hhigh
  have habove := (zpow_lt_zpow_iff_right₀ hten).mp (hplaces_low.trans_lt hhigh)
  have hround : f.round (digits * Nat.pow 10 e.toNat) (Nat.pow 10 (-e).toNat) = f.pattern m q := by
    have hpos : 0 < Nat.pow 10 (-e).toNat := Nat.pow_pos (by decide)
    have hratio := zpow_eq_ratio (b := 10) (by decide) e
    rw [Nat.cast_ofNat] at hratio
    rw [h.round_of_near hpos, Nat.min_eq_right hfinite.le]
    rwa [Nat.cast_mul, mul_div_assoc, ← hratio]
  rw [digitCount] at hbelow habove
  rw [roundDecimal, if_neg hdigits, if_neg, if_neg, hround]
  · exact not_lt.mpr hbelow.le
  · exact not_lt.mpr (Int.lt_add_one_iff.mp (sub_lt_iff_lt_add.mp habove))

end Format

end BehaviorTree.Binary
