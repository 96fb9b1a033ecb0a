import BehaviorTree.Binary.Shortest
import Mathlib.Algebra.Order.Field.Power
import Mathlib.Data.Rat.Cast.Order
import Mathlib.Tactic.FieldSimp
import Mathlib.Tactic.Linarith
import Mathlib.Tactic.NormNum
import Mathlib.Tactic.Positivity
import Mathlib.Tactic.Ring

/-!
# Rounding to a binary format

The number `m · 2 ^ q` of a format is what the reals around it round to.  Scaled by `2 ^ -q` the
numbers of a format in a binade are integers, and the reals around `m · 2 ^ q` lie within one half
of `m`, or within one quarter below it where the grid gets finer there.

* `Format.Member` — the pair is how the format holds a positive number.
* `Format.Near` — a real lies around the number.  `Interval.contains` decides it
  (`contains_around_iff`).
* **`Format.Member.round_of_near`** — what lies around a number is rounded to its pattern.
* **`Format.withSign_of_decode_finite`** — the pattern of what a pattern stands for.

What is rounded is a ratio of naturals, and its powers of two and ten are kept apart by the sign of
their exponent; the lemmas `ratio_scaled` and `zpow_le_ratio_iff` put them together.
-/

namespace BehaviorTree

/-! ## Ratios -/

/-- A power with an exponent of any sign, as the ratio of two powers of naturals. -/
lemma zpow_eq_ratio {b : ℕ} (hb : 0 < b) (e : ℤ) :
    (b : ℚ) ^ e = (Nat.pow b e.toNat : ℕ) / (Nat.pow b (-e).toNat : ℕ) := by
  have hne : (b : ℚ) ≠ 0 := Nat.cast_ne_zero.mpr (Nat.ne_of_gt hb)
  rw [Nat.pow_eq, Nat.pow_eq, Nat.cast_pow, Nat.cast_pow, ← zpow_natCast, ← zpow_natCast,
    ← zpow_sub₀ hne]
  congr 1
  omega

/-- A scaled ratio. -/
lemma ratio_scaled {b : ℕ} (hb : 0 < b) (num den : ℕ) (e : ℤ) :
    ((num * Nat.pow b (-e).toNat : ℕ) : ℚ) / (den * Nat.pow b e.toNat : ℕ) =
      num / den / (b : ℚ) ^ e := by
  rw [zpow_eq_ratio hb, Nat.cast_mul, Nat.cast_mul, div_div_div_eq]

lemma zpow_le_ratio_iff {b : ℕ} (hb : 0 < b) {num den : ℕ} (hden : 0 < den) (e : ℤ) :
    (b : ℚ) ^ e ≤ num / den ↔ den * Nat.pow b e.toNat ≤ num * Nat.pow b (-e).toNat := by
  have hpow : (0 : ℚ) < (b : ℚ) ^ e := zpow_pos (Nat.cast_pos.mpr hb) e
  have hpos : (0 : ℚ) < (den * Nat.pow b e.toNat : ℕ) :=
    Nat.cast_pos.mpr (Nat.mul_pos hden (Nat.pow_pos hb))
  rw [← one_le_div hpow, ← ratio_scaled hb, one_le_div hpos, Nat.cast_le]

/-! ## Rounding to a natural -/

/-- The ratio lies within one half of the natural, or in the middle if the natural is even. -/
lemma roundHalfEven_of_le {num den m : ℕ} (hden : 0 < den) (hlow : 2 * (den * m) ≤ 2 * num + den)
    (hhigh : 2 * num ≤ 2 * (den * m) + den)
    (htie : m % 2 = 0 ∨ 2 * (den * m) ≠ 2 * num + den ∧ 2 * num ≠ 2 * (den * m) + den) :
    roundHalfEven num den = m := by
  have hsum := Nat.div_add_mod num den
  have hlt := Nat.mod_lt num hden
  have hfloor : num / den < m + 1 := by
    refine Nat.lt_of_mul_lt_mul_left (a := den) ?_
    rw [Nat.mul_add]
    omega
  have hm : m < num / den + 2 := by
    refine Nat.lt_of_mul_lt_mul_left (a := den) ?_
    rw [Nat.mul_add]
    omega
  rw [roundHalfEven]
  generalize num / den = floor at *
  generalize num % den = rest at *
  obtain rfl | rfl : m = floor ∨ m = floor + 1 := by omega
  · split_ifs <;> omega
  · rw [Nat.mul_add] at hlow hhigh htie
    split_ifs <;> omega

/-- **A ratio within one half of a natural is rounded to it.** -/
theorem roundHalfEven_eq {num den m : ℕ} (hden : 0 < den)
    (h : |(num / den : ℚ) - m| < 1 / 2 ∨ m % 2 = 0 ∧ |(num / den : ℚ) - m| ≤ 1 / 2) :
    roundHalfEven num den = m := by
  have hden' : (0 : ℚ) < den := Nat.cast_pos.mpr hden
  have hscaled : (2 * num - 2 * (den * m) : ℚ) = (num / den - m) * (2 * den) := by
    field_simp
  have hle : |(num / den : ℚ) - m| ≤ 1 / 2 := h.elim le_of_lt And.right
  obtain ⟨hlow, hhigh⟩ := abs_le.mp hle
  refine roundHalfEven_of_le hden ?_ ?_ ?_
  · have : (2 * (den * m) : ℚ) ≤ 2 * num + den := by nlinarith
    exact_mod_cast this
  · have : (2 * num : ℚ) ≤ 2 * (den * m) + den := by nlinarith
    exact_mod_cast this
  · refine h.symm.imp And.left fun hlt => ?_
    obtain ⟨hlow, hhigh⟩ := abs_lt.mp hlt
    constructor
    · have : (2 * (den * m) : ℚ) < 2 * num + den := by nlinarith
      exact Nat.ne_of_lt (by exact_mod_cast this)
    · have : (2 * num : ℚ) < 2 * (den * m) + den := by nlinarith
      exact Nat.ne_of_lt (by exact_mod_cast this)

/-! ## The binary logarithm -/

namespace Binary

/-- In its binade a value is above exactly the powers up to the lower end. -/
lemma le_iff_zpow_le {v : ℚ} {binade : ℤ} (hlow : (2 : ℚ) ^ binade ≤ v)
    (hhigh : v < (2 : ℚ) ^ (binade + 1)) (e : ℤ) : e ≤ binade ↔ (2 : ℚ) ^ e ≤ v := by
  constructor
  · intro he
    exact (zpow_le_zpow_right₀ one_le_two he).trans hlow
  · intro he
    exact Int.le_of_lt_add_one ((zpow_lt_zpow_iff_right₀ one_lt_two).mp (he.trans_lt hhigh))

namespace Format

/-- The logarithms of numerator and denominator are off by less than one each. -/
lemma zpow_log2_bounds {num den : ℕ} (hnum : 0 < num) (hden : 0 < den) :
    (2 : ℚ) ^ ((num.log2 : ℤ) - den.log2 - 1) ≤ num / den ∧
      (num / den : ℚ) < (2 : ℚ) ^ ((num.log2 : ℤ) - den.log2 + 1) := by
  have hlow : ∀ n : ℕ, 0 < n → (2 : ℚ) ^ (n.log2 : ℤ) ≤ n := by
    intro n hn
    rw [zpow_natCast]
    exact_mod_cast Nat.log2_self_le (Nat.ne_of_gt hn)
  have hhigh : ∀ n : ℕ, (n : ℚ) < (2 : ℚ) ^ ((n.log2 : ℤ) + 1) := by
    intro n
    have : n < 2 ^ (n.log2 + 1) := Nat.lt_log2_self
    exact_mod_cast this
  have hpos : (0 : ℚ) < den := Nat.cast_pos.mpr hden
  constructor
  · rw [sub_sub, zpow_sub₀ two_ne_zero]
    exact div_le_div₀ (Nat.cast_nonneg num) (hlow num hnum) hpos (hhigh den).le
  · rw [sub_add_eq_add_sub, zpow_sub₀ two_ne_zero]
    exact div_lt_div₀ (hhigh num) (hlow den hden) (zpow_nonneg zero_le_two _) (zpow_pos two_pos _)

/-- **`floorLog2` is the floor of the binary logarithm.** -/
theorem le_floorLog2_iff {num den : ℕ} (hnum : 0 < num) (hden : 0 < den) (e : ℤ) :
    e ≤ floorLog2 num den ↔ (2 : ℚ) ^ e ≤ num / den := by
  obtain ⟨hlow, hhigh⟩ := zpow_log2_bounds hnum hden
  have hguess : (2 : ℚ) ^ ((num.log2 : ℤ) - den.log2) ≤ num / den ↔ _ :=
    zpow_le_ratio_iff two_pos hden _
  rw [floorLog2]
  split
  · next h => exact le_iff_zpow_le (hguess.mpr h) hhigh e
  · next h =>
      refine le_iff_zpow_le hlow ?_ e
      rw [sub_add_cancel]
      exact not_le.mp fun hle => h (hguess.mp hle)

end Format

/-! ## Intervals -/

/-- What an interval contains lies between its ends, or is an end of a closed one. -/
lemma Interval.contains_iff {i : Interval} (hi : 0 < i.den) {num den : ℕ} (hden : 0 < den) :
    i.contains num den = true ↔
      (i.low / i.den : ℚ) < num / den ∧ (num / den : ℚ) < i.high / i.den ∨
        i.closed = true ∧ (i.low / i.den : ℚ) ≤ num / den ∧ (num / den : ℚ) ≤ i.high / i.den := by
  have hi' : (0 : ℚ) < i.den := Nat.cast_pos.mpr hi
  have hden' : (0 : ℚ) < den := Nat.cast_pos.mpr hden
  rw [div_lt_div_iff₀ hi' hden', div_lt_div_iff₀ hden' hi', div_le_div_iff₀ hi' hden',
    div_le_div_iff₀ hden' hi', contains]
  norm_cast
  cases i.closed with
  | true =>
      simp
      omega
  | false => simp

/-! ## Numbers of a format -/

namespace Format

/-- The format holds the positive number `m · 2 ^ q` by this significand and exponent: above its
finest grid the significand has a leading one. -/
structure Member (f : Format) (m : ℕ) (q : ℤ) : Prop where
  pos : 0 < m
  finest : f.finestExponent ≤ q
  small : m < 2 ^ (f.fractionBits + 1)
  leading : f.finestExponent < q → 2 ^ f.fractionBits ≤ m

/-- The pattern of the number `m · 2 ^ q`. -/
def pattern (f : Format) (m : ℕ) (q : ℤ) : ℕ :=
  (q - f.finestExponent).toNat * 2 ^ f.fractionBits + m

/-- How far below `m` what rounds to it reaches, scaled by `2 ^ -q`. -/
def reach (f : Format) (m : ℕ) (q : ℤ) : ℚ :=
  if m = 2 ^ f.fractionBits ∧ f.finestExponent < q then 1 / 4 else 1 / 2

/-- A real lies so close to `m · 2 ^ q` that it rounds to it. -/
def Near (f : Format) (m : ℕ) (q : ℤ) (v : ℚ) : Prop :=
  m - f.reach m q < v / 2 ^ q ∧ v / 2 ^ q < m + 1 / 2 ∨
    m % 2 = 0 ∧ m - f.reach m q ≤ v / 2 ^ q ∧ v / 2 ^ q ≤ m + 1 / 2

variable {f : Format} {m : ℕ} {q : ℤ} {v : ℚ}

lemma reach_le_half (f : Format) (m : ℕ) (q : ℤ) : f.reach m q ≤ 1 / 2 := by
  rw [reach]
  split <;> norm_num

lemma reach_pos (f : Format) (m : ℕ) (q : ℤ) : 0 < f.reach m q := by
  rw [reach]
  split <;> norm_num

lemma Near.bounds (h : f.Near m q v) :
    m - f.reach m q ≤ v / 2 ^ q ∧ v / 2 ^ q ≤ m + 1 / 2 := by
  rcases h with h | h
  · exact ⟨h.1.le, h.2.le⟩
  · exact h.2

lemma around_low (hm : 0 < m) :
    ((Interval.around f m q).low : ℚ) / (Interval.around f m q).den =
      (m - f.reach m q) * 2 ^ q := by
  have hpow := zpow_eq_ratio two_pos q
  have hcast : ∀ down ≤ 2, ((4 * m - down : ℕ) : ℚ) = 4 * m - down := by
    intro down hdown
    rw [Nat.cast_sub (by omega), Nat.cast_mul, Nat.cast_ofNat]
  have hfraction : Nat.pow 2 f.fractionBits = 2 ^ f.fractionBits := rfl
  rw [Nat.cast_ofNat] at hpow
  rw [Interval.around, hpow, reach, hfraction]
  dsimp only
  split_ifs
  · rw [Nat.cast_mul, Nat.cast_mul, hcast 1 one_le_two]
    push_cast
    field_simp
  · rw [Nat.cast_mul, Nat.cast_mul, hcast 2 le_rfl]
    push_cast
    field_simp
    ring

lemma around_high :
    ((Interval.around f m q).high : ℚ) / (Interval.around f m q).den = (m + 1 / 2) * 2 ^ q := by
  have hpow := zpow_eq_ratio two_pos q
  rw [Nat.cast_ofNat] at hpow
  rw [Interval.around, hpow, Nat.cast_mul, Nat.cast_mul]
  push_cast
  field_simp
  ring

/-- The interval of a number holds the reals that are near it. -/
lemma contains_around_iff (hm : 0 < m) {num den : ℕ} (hden : 0 < den) :
    (Interval.around f m q).contains num den = true ↔ f.Near m q (num / den) := by
  have hpow : (0 : ℚ) < 2 ^ q := zpow_pos two_pos q
  have hiden : 0 < (Interval.around f m q).den := Nat.mul_pos four_pos (Nat.pow_pos two_pos)
  rw [Interval.contains_iff hiden hden, around_low hm, around_high, Near, lt_div_iff₀ hpow,
    div_lt_iff₀ hpow, le_div_iff₀ hpow, div_le_iff₀ hpow]
  simp [Interval.around]

lemma Near.abs_sub (h : f.Near m q v) :
    |v / 2 ^ q - m| < 1 / 2 ∨ m % 2 = 0 ∧ |v / 2 ^ q - m| ≤ 1 / 2 := by
  have hreach := f.reach_le_half m q
  refine h.imp (fun h => ?_) (fun h => ⟨h.1, ?_⟩)
  · exact abs_lt.mpr ⟨by linarith [h.1], by linarith [h.2]⟩
  · exact abs_le.mpr ⟨by linarith [h.2.1], by linarith [h.2.2]⟩

lemma Near.pos (h : f.Near m q v) (hm : 0 < m) : 0 < v := by
  have hm' : (1 : ℚ) ≤ m := Nat.one_le_cast.mpr hm
  have hlow := h.bounds.1
  have hscaled : 0 < v / 2 ^ q := by linarith [f.reach_le_half m q]
  exact (div_pos_iff_of_pos_right (zpow_pos two_pos q)).mp hscaled

/-- What is near a number lies on the number's grid, or below a power of two on the next finer
one. -/
lemma Member.grid_of_near (h : f.Member m q) {num den : ℕ} (hnum : 0 < num) (hden : 0 < den)
    (hnear : f.Near m q (num / den)) :
    max f.finestExponent (floorLog2 num den - f.fractionBits) = q ∨
      m = 2 ^ f.fractionBits ∧ f.finestExponent < q ∧ (num / den : ℚ) / 2 ^ q < m ∧
        max f.finestExponent (floorLog2 num den - f.fractionBits) = q - 1 := by
  obtain ⟨hlow, hhigh⟩ := hnear.bounds
  have hgrid : ∀ e : ℤ, e + q ≤ floorLog2 num den ↔ (2 : ℚ) ^ e ≤ num / den / 2 ^ q := by
    intro e
    rw [le_floorLog2_iff hnum hden, zpow_add₀ two_ne_zero, le_div_iff₀ (zpow_pos two_pos q)]
  generalize (num / den : ℚ) / 2 ^ q = x at *
  have hupper : ¬ (f.fractionBits + 1 : ℕ) + q ≤ floorLog2 num den := by
    rw [hgrid, zpow_natCast]
    have hsmall : (m + 1 : ℚ) ≤ 2 ^ (f.fractionBits + 1) := by exact_mod_cast h.small
    linarith
  by_cases hbinade : f.fractionBits + q ≤ floorLog2 num den
  · have := h.finest
    omega
  · rcases eq_or_lt_of_le h.finest with hq | hq
    · omega
    · have hx : x < 2 ^ f.fractionBits := by
        rwa [hgrid, zpow_natCast, not_le] at hbinade
      have hlead : (2 : ℚ) ^ f.fractionBits ≤ m := by exact_mod_cast h.leading hq
      have hm : m = 2 ^ f.fractionBits := by
        have hlt : (m : ℚ) < 2 ^ f.fractionBits + 1 := by linarith [f.reach_le_half m q]
        have hlt' : m < 2 ^ f.fractionBits + 1 := by exact_mod_cast hlt
        exact Nat.le_antisymm (Nat.lt_succ_iff.mp hlt') (h.leading hq)
      have hfiner : (f.fractionBits - 1 : ℤ) + q ≤ floorLog2 num den := by
        have hone : (1 : ℚ) ≤ 2 ^ f.fractionBits := one_le_pow₀ one_le_two
        rw [hgrid, zpow_sub_one₀ two_ne_zero, zpow_natCast]
        linarith [f.reach_le_half m q]
      exact .inr ⟨hm, hq, hx.trans_le hlead, by omega⟩

/-- **What is near a number is rounded to its pattern.** -/
theorem Member.round_of_near (h : f.Member m q) {num den : ℕ} (hden : 0 < den)
    (hnear : f.Near m q (num / den)) : f.round num den = min f.infinityBits (f.pattern m q) := by
  have hden' : (0 : ℚ) < den := Nat.cast_pos.mpr hden
  have hnum : 0 < num :=
    Nat.cast_pos.mp ((div_pos_iff_of_pos_right hden').mp (hnear.pos h.pos))
  have hround : ∀ (q' : ℤ) (n : ℕ),
      max f.finestExponent (floorLog2 num den - f.fractionBits) = q' →
      |(num / den : ℚ) / 2 ^ q' - n| < 1 / 2 ∨ n % 2 = 0 ∧ |(num / den : ℚ) / 2 ^ q' - n| ≤ 1 / 2 →
      f.round num den = min f.infinityBits (f.pattern n q') := by
    intro q' n hgrid hn
    have hscaled := ratio_scaled two_pos num den q'
    rw [Nat.cast_ofNat] at hscaled
    rw [← hscaled] at hn
    have hdenpos : 0 < den * Nat.pow 2 q'.toNat := Nat.mul_pos hden (Nat.pow_pos two_pos)
    rw [round, if_neg (Nat.ne_of_gt hnum)]
    simp only [hgrid]
    rw [roundHalfEven_eq hdenpos hn]
    rfl
  rcases h.grid_of_near hnum hden hnear with hgrid | ⟨hm, hq, hbelow, hgrid⟩
  · exact hround q m hgrid hnear.abs_sub
  -- on the finer grid the number is an even multiple, and its pattern is the same
  · have hreach : f.reach m q = 1 / 4 := if_pos ⟨hm, hq⟩
    have hlow := hnear.bounds.1
    have hpattern : f.pattern (2 * m) (q - 1) = f.pattern m q := by
      have hsteps : (q - f.finestExponent).toNat = (q - 1 - f.finestExponent).toNat + 1 := by omega
      rw [pattern, pattern, hsteps, hm]
      ring
    rw [← hpattern]
    refine hround (q - 1) (2 * m) hgrid (.inr ⟨Nat.mul_mod_right 2 m, abs_le.mpr ?_⟩)
    rw [zpow_sub_one₀ two_ne_zero, div_mul_eq_div_div, div_inv_eq_mul, Nat.cast_mul, Nat.cast_ofNat]
    constructor <;> linarith

/-! ## Patterns -/

section Pattern

variable {bits : ℕ} {negative : Bool}

/-- The fields of a pattern under its sign. -/
lemma withSign_fields (hbits : bits < 2 * f.signBit) :
    f.withSign (bits / f.signBit % 2 == 1)
      (bits / 2 ^ f.fractionBits % 2 ^ f.exponentBits * 2 ^ f.fractionBits +
        bits % 2 ^ f.fractionBits) = bits := by
  have hsign : f.signBit = 2 ^ f.fractionBits * 2 ^ f.exponentBits := Nat.pow_add 2 _ _
  have hsplit : 2 ^ f.exponentBits * (bits / f.signBit) +
      bits / 2 ^ f.fractionBits % 2 ^ f.exponentBits = bits / 2 ^ f.fractionBits := by
    rw [hsign, ← Nat.div_div_eq_div_mul]
    exact Nat.div_add_mod _ _
  have hlow := Nat.div_add_mod bits (2 ^ f.fractionBits)
  have htop : bits / f.signBit < 2 := Nat.div_lt_of_lt_mul (by rwa [Nat.mul_comm])
  rw [withSign]
  generalize hs : bits / f.signBit = s at *
  rw [← hsplit] at hlow
  obtain rfl | rfl : s = 0 ∨ s = 1 := by omega
  · simp
    linarith
  · simp
    rw [hsign]
    linarith

/-- A pattern that stands for infinity. -/
lemma withSign_of_decode_infinity (hbits : bits < 2 * f.signBit)
    (h : f.decode bits = .infinity negative) : f.withSign negative f.infinityBits = bits := by
  have hfields := withSign_fields hbits
  simp only [decode, Nat.pow_eq] at h
  split_ifs at h with htop hzero hsubnormal
  rw [htop, hzero, Datum.infinity.inj h] at hfields
  exact hfields

/-- **A pattern that stands for a number.** -/
theorem withSign_of_decode_finite (hbits : bits < 2 * f.signBit)
    (h : f.decode bits = .finite negative m q) :
    f.withSign negative (f.pattern m q) = bits ∧ f.pattern m q < f.infinityBits ∧
      (m = 0 ∧ f.pattern m q = 0 ∨ f.Member m q) := by
  have hfields := withSign_fields hbits
  have hfraction : bits % 2 ^ f.fractionBits < 2 ^ f.fractionBits :=
    Nat.mod_lt _ (Nat.pow_pos two_pos)
  have hexponent : bits / 2 ^ f.fractionBits % 2 ^ f.exponentBits < 2 ^ f.exponentBits :=
    Nat.mod_lt _ (Nat.pow_pos two_pos)
  simp only [decode, Nat.pow_eq] at h
  generalize bits / 2 ^ f.fractionBits % 2 ^ f.exponentBits = exponent at *
  generalize bits % 2 ^ f.fractionBits = fraction at *
  have hdouble : 2 ^ (f.fractionBits + 1) = 2 ^ f.fractionBits + 2 ^ f.fractionBits := by
    rw [Nat.pow_succ, Nat.mul_two]
  have hbelow : exponent ≠ f.topExponent →
      exponent * 2 ^ f.fractionBits + fraction < f.infinityBits := by
    intro hne
    have htop : f.topExponent = 2 ^ f.exponentBits - 1 := rfl
    calc exponent * 2 ^ f.fractionBits + fraction < (exponent + 1) * 2 ^ f.fractionBits := by
          rw [Nat.succ_mul]
          exact Nat.add_lt_add_left hfraction _
      _ ≤ f.topExponent * 2 ^ f.fractionBits := Nat.mul_le_mul_right _ (by omega)
  split_ifs at h with hspecial hzero hsubnormal
  · obtain ⟨rfl, rfl, rfl⟩ := Datum.finite.inj h
    have hpattern : f.pattern fraction f.finestExponent =
        exponent * 2 ^ f.fractionBits + fraction := by
      simp [pattern, hsubnormal]
    rw [hpattern]
    refine ⟨hfields, hbelow hspecial, ?_⟩
    rcases Nat.eq_zero_or_pos fraction with hm | hm
    · exact .inl ⟨hm, by rw [hm, hsubnormal, Nat.zero_mul]⟩
    · exact .inr ⟨hm, le_rfl, by omega, fun hlt => absurd hlt (lt_irrefl _)⟩
  · obtain ⟨rfl, rfl, rfl⟩ := Datum.finite.inj h
    have hpattern : f.pattern (2 ^ f.fractionBits + fraction)
        (f.finestExponent + (exponent - 1 : ℕ)) = exponent * 2 ^ f.fractionBits + fraction := by
      obtain ⟨e, rfl⟩ := Nat.exists_eq_succ_of_ne_zero hsubnormal
      simp [pattern]
      ring
    rw [hpattern]
    exact ⟨hfields, hbelow hspecial, .inr
      ⟨Nat.add_pos_left (Nat.pow_pos two_pos) _, by omega, by omega, fun _ => Nat.le_add_right _ _⟩⟩

end Pattern

end Format

end Binary

end BehaviorTree
