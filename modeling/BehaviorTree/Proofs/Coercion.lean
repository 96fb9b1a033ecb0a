import BehaviorTree.Proofs.Rounding
import BehaviorTree.Value
import Mathlib.Order.WithBotTop

/-!
# The integer that a gate sees in a number

Gates compare values as integers, and a number is coerced to the nearest one.  What a pattern stands
for is read here off its fields, as the standard has it: a number in which the fraction follows a
leading one, a subnormal number, an infinity or no number at all.

* `NearestEven` — the integer nearest to a number, a tie going to the even one.  A greater number
  has no smaller one (`NearestEven.mono`), so there is no other.
* `Binary64.denotes` — what a pattern stands for.  **`Binary64.value_datum`**: taking the pattern
  apart and putting significand and exponent together comes to the same.
* **`Value.coercesExactly`** — what every pattern is coerced to.
-/

namespace BehaviorTree

/-! ## The nearest integer -/

/-- No integer is nearer to the number, and if another one is as near, this one is even. -/
structure NearestEven (q : ℚ) (n : ℤ) : Prop where
  nearest (k : ℤ) : |q - n| ≤ |q - k|
  tie {k : ℤ} : k ≠ n → |q - k| = |q - n| → Even n

section NearestEven

variable {q r : ℚ} {m n : ℤ}

/-- Every other integer is at least one half away. -/
lemma half_le_abs_sub_of_ne {k : ℤ} (hle : |q - n| ≤ 1 / 2) (hk : k ≠ n) : 1 / 2 ≤ |q - k| := by
  have hone : (1 : ℚ) ≤ |(k - n : ℚ)| := by
    exact_mod_cast Int.one_le_abs (sub_ne_zero.mpr hk)
  have htriangle : |(k - n : ℚ)| ≤ |q - k| + |q - n| := by
    rw [abs_sub_comm q k]
    exact abs_sub_le _ _ _
  linarith

/-- The nearest integer is at most one half away, and even if it is as much. -/
lemma nearestEven_iff : NearestEven q n ↔ |q - n| ≤ 1 / 2 ∧ (|q - n| = 1 / 2 → Even n) := by
  constructor
  · intro h
    have hup := h.nearest (n + 1)
    have hdown := h.nearest (n - 1)
    have htieUp := h.tie (k := n + 1) (by omega)
    have htieDown := h.tie (k := n - 1) (by omega)
    push_cast at hup hdown htieUp htieDown
    rw [← sub_sub] at hup htieUp
    rw [← sub_add] at hdown htieDown
    generalize q - n = x at *
    constructor
    · refine abs_le.mpr ⟨?_, ?_⟩ <;> by_contra hlt
      · have hcloser : |x + 1| < -x := abs_lt.mpr ⟨by linarith, by linarith⟩
        linarith [neg_le_abs x]
      · have hcloser : |x - 1| < x := abs_lt.mpr ⟨by linarith, by linarith⟩
        linarith [le_abs_self x]
    · intro hhalf
      rcases (abs_eq (by norm_num)).mp hhalf with rfl | rfl
      · exact htieUp (by norm_num)
      · exact htieDown (by norm_num)
  · rintro ⟨hle, heven⟩
    refine ⟨fun k => ?_, fun {k} hk htie => heven (le_antisymm hle ?_)⟩
    · rcases eq_or_ne k n with rfl | hk
      · exact le_rfl
      · exact hle.trans (half_le_abs_sub_of_ne hle hk)
    · rw [← htie]
      exact half_le_abs_sub_of_ne hle hk

lemma nearestEven_intCast (n : ℤ) : NearestEven n n := by
  rw [nearestEven_iff, sub_self, abs_zero]
  norm_num

lemma NearestEven.neg (h : NearestEven q n) : NearestEven (-q) (-n) := by
  rw [nearestEven_iff] at h ⊢
  rwa [Int.cast_neg, neg_sub_neg, abs_sub_comm, even_neg]

/-- A greater number has no smaller nearest integer. -/
lemma NearestEven.mono (hm : NearestEven q m) (hn : NearestEven r n) (hle : q ≤ r) : m ≤ n := by
  rw [nearestEven_iff] at hm hn
  by_contra hlt
  have hstep : (n + 1 : ℚ) ≤ m := by exact_mod_cast not_le.mp hlt
  have hlow := (abs_le.mp hm.1).1
  have hhigh := (abs_le.mp hn.1).2
  -- both numbers are the middle between two neighbours, which cannot both be even
  have hnext : m = n + 1 := by
    have : (m : ℚ) = n + 1 := by linarith
    exact_mod_cast this
  have hm' : q - m = -(1 / 2) := by linarith
  have hn' : r - n = 1 / 2 := by linarith
  have hmeven := hm.2 (by rw [hm', abs_neg, abs_of_pos one_half_pos])
  have hneven := hn.2 (by rw [hn', abs_of_pos one_half_pos])
  rw [hnext, Int.even_add_one] at hmeven
  exact hmeven hneven

lemma NearestEven.unique (hm : NearestEven q m) (hn : NearestEven q n) : m = n :=
  le_antisymm (hm.mono hn le_rfl) (hn.mono hm le_rfl)

/-- The rounding of the program goes to the nearest natural. -/
lemma nearestEven_roundHalfEven (num : ℕ) {den : ℕ} (hden : 0 < den) :
    NearestEven (num / den) (roundHalfEven num den) := by
  have hden' : (0 : ℚ) < den := Nat.cast_pos.mpr hden
  have hsum : (num : ℚ) = den * (num / den : ℕ) + (num % den : ℕ) := by
    exact_mod_cast (Nat.div_add_mod num den).symm
  have hquotient : (num / den : ℚ) = (num / den : ℕ) + (num % den : ℕ) / den := by
    rw [div_eq_iff hden'.ne', add_mul, div_mul_cancel₀ _ hden'.ne', mul_comm]
    exact hsum
  have hbelow : ((num % den : ℕ) / den : ℚ) < 1 / 2 ↔ 2 * (num % den) < den := by
    rw [div_lt_div_iff₀ hden' two_pos, one_mul, mul_comm]
    exact_mod_cast Iff.rfl
  have habove : 1 / 2 < ((num % den : ℕ) / den : ℚ) ↔ den < 2 * (num % den) := by
    rw [div_lt_div_iff₀ two_pos hden', one_mul, mul_comm]
    exact_mod_cast Iff.rfl
  have hpos : (0 : ℚ) ≤ (num % den : ℕ) / den := by positivity
  have hone : ((num % den : ℕ) / den : ℚ) < 1 :=
    (div_lt_one hden').mpr (Nat.cast_lt.mpr (Nat.mod_lt num hden))
  rw [nearestEven_iff, hquotient, roundHalfEven]
  simp only [← hbelow, ← habove]
  generalize ((num % den : ℕ) / den : ℚ) = f at *
  generalize num / den = floor
  split_ifs with hlt hgt
  · rw [Int.cast_natCast, add_sub_cancel_left, abs_of_nonneg hpos]
    exact ⟨hlt.le, fun h => absurd h hlt.ne⟩
  · rw [Int.cast_natCast, Nat.cast_add_one, add_sub_add_left_eq_sub, abs_of_neg (sub_neg.mpr hone)]
    exact ⟨by linarith, fun h => by linarith⟩
  · obtain rfl : f = 1 / 2 := le_antisymm (not_lt.mp hgt) (not_lt.mp hlt)
    rcases Nat.mod_two_eq_zero_or_one floor with heven | hodd
    · rw [heven, Int.cast_natCast, add_zero, add_sub_cancel_left, abs_of_pos one_half_pos]
      exact ⟨le_rfl, fun _ => (Int.even_coe_nat floor).mpr (Nat.even_iff.mpr heven)⟩
    · rw [hodd, Int.cast_natCast, Nat.cast_add_one, add_sub_add_left_eq_sub]
      refine ⟨by norm_num, fun _ => (Int.even_coe_nat _).mpr ?_⟩
      exact (Nat.odd_iff.mpr hodd).add_one

end NearestEven

/-! ## What a pattern stands for -/

namespace Binary

/-- The number `± m`. -/
def signed (negative : Bool) (m : ℚ) : ℚ := if negative then -m else m

/-- The number, or the infinity, that a datum denotes. -/
def Datum.value : Datum → Option (WithBotTop ℚ)
  | nan _ => none
  | infinity negative => some (if negative then ⊥ else ⊤)
  | finite negative m q => some ↑(signed negative (m * 2 ^ q))

/-- The program rounds a finite datum to the nearest integer. -/
lemma Datum.nearestEven_nearestInt (negative : Bool) (m : ℕ) (q : ℤ) :
    NearestEven (signed negative (m * 2 ^ q)) (nearestInt negative m q) := by
  have hpow := zpow_eq_ratio two_pos q
  have hratio : (m * 2 ^ q : ℚ) =
      (m * Nat.pow 2 q.toNat : ℕ) / (Nat.pow 2 (-q).toNat : ℕ) := by
    rw [Nat.cast_mul, mul_div_assoc, ← hpow, Nat.cast_ofNat]
  have hden : 0 < Nat.pow 2 (-q).toNat := Nat.pow_pos two_pos
  have hnearest := nearestEven_roundHalfEven (m * Nat.pow 2 q.toNat) hden
  rw [← hratio] at hnearest
  rw [signed, nearestInt]
  cases negative with
  | true => exact hnearest.neg
  | false => exact hnearest

end Binary

namespace Binary64

/-- The sign bit. -/
def isNegative (x : Binary64) : Bool := x.bits.toNat / 2 ^ 63 % 2 == 1

/-- The biased exponent. -/
def exponentField (x : Binary64) : ℕ := x.bits.toNat / 2 ^ 52 % 2 ^ 11

/-- The digits behind the binary point. -/
def fractionField (x : Binary64) : ℕ := x.bits.toNat % 2 ^ 52

/-- The size of the number that the fields make up.  With the least exponent there is no leading
one. -/
def magnitude (x : Binary64) : ℚ :=
  if x.exponentField = 0 then x.fractionField / 2 ^ 52 * 2 ^ (-1022 : ℤ)
  else (1 + x.fractionField / 2 ^ 52) * 2 ^ (x.exponentField - 1023 : ℤ)

/-- What a pattern stands for: a number, an infinity if the exponent is all ones and the fraction
zero, and nothing if the exponent is all ones and the fraction is not. -/
def denotes (x : Binary64) : Option (WithBotTop ℚ) :=
  if x.exponentField < 2047 then some ↑(Binary.signed x.isNegative x.magnitude)
  else if x.fractionField = 0 then some (if x.isNegative then ⊥ else ⊤)
  else none

/-- The program takes a pattern apart by the same fields. -/
lemma datum_eq (x : Binary64) : x.datum =
    if x.exponentField = 2047 then
      if x.fractionField = 0 then .infinity x.isNegative else .nan x.isNegative
    else if x.exponentField = 0 then .finite x.isNegative x.fractionField (-1074)
    else .finite x.isNegative (2 ^ 52 + x.fractionField) (-1074 + (x.exponentField - 1 : ℕ)) := rfl

/-- **What a datum denotes is what its pattern stands for.** -/
theorem value_datum (x : Binary64) : x.datum.value = x.denotes := by
  have hfield : x.exponentField < 2 ^ 11 := Nat.mod_lt _ (Nat.pow_pos two_pos)
  rw [datum_eq, denotes, magnitude]
  generalize x.exponentField = e at *
  generalize x.fractionField = f
  have hplace : ∀ k : ℤ, (2 : ℚ) ^ (k - 52) = 2 ^ k / 2 ^ 52 := by
    intro k
    rw [zpow_sub₀ two_ne_zero]
    rfl
  rcases lt_or_ge e 2047 with he | he
  · rw [if_neg he.ne, if_pos he]
    rcases Nat.eq_zero_or_pos e with rfl | hpos
    · have hgrid : (f * 2 ^ (-1074 : ℤ) : ℚ) = f / 2 ^ 52 * 2 ^ (-1022 : ℤ) := by
        rw [show (-1074 : ℤ) = -1022 - 52 from rfl, hplace]
        ring
      rw [if_pos rfl, if_pos rfl, Binary.Datum.value, hgrid]
    · have hexponent : (-1074 + (e - 1 : ℕ) : ℤ) = e - 1023 - 52 := by omega
      have hgrid : ((2 ^ 52 + f : ℕ) * 2 ^ (-1074 + (e - 1 : ℕ) : ℤ) : ℚ) =
          (1 + f / 2 ^ 52) * 2 ^ (e - 1023 : ℤ) := by
        rw [hexponent, hplace, Nat.cast_add, Nat.cast_pow, Nat.cast_ofNat]
        field_simp
      rw [if_neg hpos.ne', if_neg hpos.ne', Binary.Datum.value, hgrid]
  · rw [if_pos (by omega), if_neg (not_lt.mpr he)]
    split_ifs with hf hsign
    · rw [Binary.Datum.value, if_pos hsign]
    · rw [Binary.Datum.value, if_neg hsign]
    · rfl

end Binary64

/-! ## What a pattern is coerced to -/

/-- An integer held at the ends of the 64-bit range. -/
lemma toInt_ofIntClamp (n : ℤ) : (Int64.ofIntClamp n).toInt =
    max Int64.minValue.toInt (min n Int64.maxValue.toInt) := by
  have hends : Int64.minValue.toInt ≤ Int64.maxValue.toInt := by decide
  rw [Int64.ofIntClamp]
  split_ifs with hlow hhigh
  · rw [Int64.toInt_ofIntLE, min_eq_left hhigh, max_eq_right hlow]
  · rw [min_eq_right (not_le.mp hhigh).le, max_eq_right hends]
  · rw [max_eq_left ((min_le_left _ _).trans (not_le.mp hlow).le)]

lemma ofIntClamp_mono {m n : ℤ} (h : m ≤ n) : Int64.ofIntClamp m ≤ Int64.ofIntClamp n := by
  rw [Int64.le_iff_toInt_le, toInt_ofIntClamp, toInt_ofIntClamp]
  exact max_le_max le_rfl (min_le_min_right _ h)

lemma ofIntClamp_toInt (n : Int64) : Int64.ofIntClamp n.toInt = n :=
  Int64.toInt_inj.mp (Int64.toInt_ofIntClamp (Int64.minValue_le_toInt n) (Int64.toInt_le n))

namespace Binary64

/-- The ways in which a pattern is coerced, by what it stands for. -/
inductive Coerced (x : Binary64) : Prop
  | nan : x.denotes = none → x.toInt64 = 0 → Coerced x
  | top : x.denotes = some ⊤ → x.toInt64 = Int64.maxValue → Coerced x
  | bot : x.denotes = some ⊥ → x.toInt64 = Int64.minValue → Coerced x
  | finite {q : ℚ} {n : ℤ} : x.denotes = some ↑q → NearestEven q n →
    x.toInt64 = Int64.ofIntClamp n → Coerced x

lemma coerced (x : Binary64) : x.Coerced := by
  have hvalue := x.value_datum
  have hx : x.toInt64 = match x.datum with
    | .nan _ => 0
    | .infinity negative => if negative then Int64.minValue else Int64.maxValue
    | .finite negative m q => Int64.ofIntClamp (Binary.Datum.nearestInt negative m q) := rfl
  generalize x.datum = d at hvalue hx
  cases d with
  | nan negative => exact .nan hvalue.symm hx
  | infinity negative =>
      cases negative with
      | true => exact .bot hvalue.symm hx
      | false => exact .top hvalue.symm hx
  | finite negative m q =>
      exact .finite hvalue.symm (Binary.Datum.nearestEven_nearestInt negative m q) hx

/-- What stands for a number goes to the nearest integer. -/
lemma exists_nearestEven {x : Binary64} {q : ℚ} (h : x.denotes = some ↑q) :
    ∃ n, NearestEven q n ∧ x.toInt64 = Int64.ofIntClamp n := by
  cases x.coerced with
  | finite hx hn hint =>
      obtain rfl := WithBotTop.coe_injective (Option.some.inj (h.symm.trans hx))
      exact ⟨_, hn, hint⟩
  | _ hx => simp [h] at hx

/-- What stands for a greater number does not go to a smaller integer. -/
lemma toInt64_mono {x y : Binary64} {a b : WithBotTop ℚ} (ha : x.denotes = some a)
    (hb : y.denotes = some b) (hle : a ≤ b) : x.toInt64 ≤ y.toInt64 := by
  cases x.coerced with
  | nan hx => simp [hx] at ha
  | bot _ hx =>
      rw [hx]
      exact Int64.minValue_le _
  | top hx hxint =>
      obtain rfl : ⊤ = a := Option.some.inj (hx.symm.trans ha)
      rw [top_le_iff.mp hle] at hb
      cases y.coerced with
      | top _ hyint =>
          rw [hxint, hyint]
          exact Int64.le_refl _
      | _ hy => simp [hy] at hb
  | @finite q m hx hm hxint =>
      obtain rfl : ↑q = a := Option.some.inj (hx.symm.trans ha)
      cases y.coerced with
      | nan hy => simp [hy] at hb
      | top _ hyint =>
          rw [hyint]
          exact Int64.le_maxValue _
      | bot hy =>
          obtain rfl : ⊥ = b := Option.some.inj (hy.symm.trans hb)
          exact absurd hle (by simp)
      | @finite r n hy hn hyint =>
          obtain rfl : ↑r = b := Option.some.inj (hy.symm.trans hb)
          rw [WithBotTop.coe_le_coe] at hle
          rw [hxint, hyint]
          exact ofIntClamp_mono (hm.mono hn hle)

end Binary64

namespace Value

/-- The integer that a number is coerced to, by what its pattern stands for. -/
structure CoercesExactly (x : Binary64) : Prop where
  nan : x.denotes = none → (float x).toInt64 = 0
  top : x.denotes = some ⊤ → (float x).toInt64 = Int64.maxValue
  bot : x.denotes = some ⊥ → (float x).toInt64 = Int64.minValue
  /-- A number goes to the one nearest integer, held at the ends of the range. -/
  nearest {q : ℚ} : x.denotes = some ↑q → ∃ n : ℤ, (∀ m, NearestEven q m ↔ m = n) ∧
    (float x).toInt64.toInt = max Int64.minValue.toInt (min n Int64.maxValue.toInt)
  /-- So a greater number does not go to a smaller integer. -/
  mono {y : Binary64} {a b : WithBotTop ℚ} : x.denotes = some a → y.denotes = some b →
    a ≤ b → (float x).toInt64 ≤ (float y).toInt64
  /-- An integer of the range goes to itself. -/
  integer {n : Int64} : x.denotes = some ↑(n.toInt : ℚ) → (float x).toInt64 = n

/-- **Float coercion is exact.** -/
theorem coercesExactly (x : Binary64) : CoercesExactly x where
  nan h := by
    cases x.coerced with
    | nan _ hx => exact hx
    | _ hd => simp [hd] at h
  top h := by
    cases x.coerced with
    | top _ hx => exact hx
    | _ hd => simp [hd] at h
  bot h := by
    cases x.coerced with
    | bot _ hx => exact hx
    | _ hd => simp [hd] at h
  nearest h := by
    obtain ⟨n, hn, hx⟩ := Binary64.exists_nearestEven h
    refine ⟨n, fun m => ⟨fun hm => hm.unique hn, fun hm => hm ▸ hn⟩, ?_⟩
    rw [toInt64, hx, toInt_ofIntClamp]
  mono ha hb hle := Binary64.toInt64_mono ha hb hle
  integer {n} h := by
    obtain ⟨m, hm, hx⟩ := Binary64.exists_nearestEven h
    rw [toInt64, hx, hm.unique (nearestEven_intCast n.toInt), ofIntClamp_toInt]

/-- The ties 2.5, 3.5 and -0.5. -/
example :
    (float ⟨0x4004000000000000⟩).toInt64 = 2 ∧ (float ⟨0x400C000000000000⟩).toInt64 = 4 ∧
      (float ⟨0xBFE0000000000000⟩).toInt64 = 0 := by
  decide +kernel

end Value

end BehaviorTree
