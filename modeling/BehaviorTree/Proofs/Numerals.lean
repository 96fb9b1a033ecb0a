import BehaviorTree.Proofs.Reading
import BehaviorTree.Proofs.Shortest
import Mathlib.Data.List.TakeWhile

/-!
# Numbers read back

Integers and places on the canvas are written in decimal digits, and are read from them by the type
that they have.

* **`Ron.Number.integer?_toString`** — an integer in the range of its type is read back.
* `Text.Pointed` — digits on both sides of a point.  **`Binary.Shortest.exists_pointed`**: a
  positional decimal is such a text, and its digits are worth the decimal.
* **`Binary32.float?_render`** — a number of the 32-bit format is read back with its last bit, the
  zeros and infinities included.  What is written lies near the number, and what lies near a number
  is rounded to it, so nothing is lost between the two bases.
* `Ron.Reader.takes_uint64`, `takes_int64`, `takes_binary32` — the readers take what is written.
-/

namespace BehaviorTree

open Text Binary

/-! ## Digits -/

namespace Text

/-- The sign of a number as it is written. -/
def signChars (negative : Bool) : List Char := if negative then ['-'] else []

lemma sign_append (negative : Bool) (s : String) :
    (if negative then "-" else "") ++ s = String.ofList (signChars negative ++ s.toList) := by
  cases negative <;> simp [signChars]

lemma isDigit_toDigits (n : ℕ) : ∀ c ∈ Nat.toDigits 10 n, c.isDigit = true :=
  fun _ hc => Nat.isDigit_of_mem_toDigits (by decide) (by decide) hc

lemma eq_of_mem_signChars {negative : Bool} {c : Char} (hc : c ∈ signChars negative) : c = '-' := by
  cases negative with
  | true => exact List.mem_singleton.mp hc
  | false => cases hc

lemma isSome_digit? {c : Char} (hc : c.isDigit = true) : (digit? c).isSome = true := by
  rw [Char.isDigit, Bool.and_eq_true, decide_eq_true_eq, decide_eq_true_eq] at hc
  rw [digit?, if_pos ⟨hc.1, hc.2⟩]
  rfl

/-- A sign is told from the digits behind it. -/
lemma takeSign_signChars (negative : Bool) {c : Char} (hc : c.isDigit = true) (cs : List Char) :
    takeSign (signChars negative ++ c :: cs) = (negative, c :: cs) := by
  cases negative with
  | true => rfl
  | false =>
      rw [takeSign.eq_def]
      split
      · next heq => simp_all [signChars]
      · next heq => simp_all [signChars]
      · rfl

/-- A sign, a digit and more of them, with points or not, make a number token. -/
lemma isNumeral_signed (negative : Bool) {c : Char} {cs : List Char} (hc : c.isDigit = true)
    (hcs : ∀ d ∈ cs, d = '.' ∨ d.isDigit = true) :
    Ron.IsNumeral (signChars negative ++ c :: cs) := by
  have hdigit : ∀ d, d.isDigit = true → Ron.Token.isRunChar d = true := by
    intro d hd
    have hword : Ron.isWordChar d = true := by simp [Ron.isWordChar, Char.isAlphanum, hd]
    simp [Ron.Token.isRunChar, Ron.isIdentContinue_of_isWordChar hword]
  have hrun : ∀ d ∈ cs, Ron.Token.isRunChar d = true := by
    intro d hd
    rcases hcs d hd with rfl | hd
    · rfl
    · exact hdigit d hd
  cases negative with
  | true => exact ⟨'-', c :: cs, rfl, rfl, List.forall_mem_cons.mpr ⟨hdigit c hc, hrun⟩⟩
  | false => exact ⟨c, cs, rfl, by simp [Ron.Token.isNumberStart, hc], hrun⟩

lemma ofDigitsFrom?_zeros (n : ℕ) (cs : List Char) :
    ofDigitsFrom? 10 0 (List.replicate n '0' ++ cs) = ofDigitsFrom? 10 0 cs := by
  induction n with
  | zero => rfl
  | succ n ih => exact ih

lemma ofDigitsFrom?_replicate (n acc : ℕ) :
    ofDigitsFrom? 10 acc (List.replicate n '0') = some (acc * 10 ^ n) := by
  induction n generalizing acc with
  | zero => simp [ofDigitsFrom?]
  | succ n ih =>
      have hzero : digit? '0' = some 0 := by decide
      rw [List.replicate_succ, ofDigitsFrom?, hzero]
      simp only [Nat.zero_lt_succ, if_true, Nat.add_zero]
      rw [ih, Nat.pow_succ']
      ring_nf

end Text

/-! ## Integers -/

namespace Ron

namespace Number

/-- An integer in decimal digits, under its sign. -/
lemma toString_int (z : ℤ) :
    toString z = String.ofList (signChars (decide (z < 0)) ++ Nat.toDigits 10 z.natAbs) := by
  cases z with
  | ofNat n =>
      have hsign : decide (Int.ofNat n < 0) = false :=
        decide_eq_false (Int.not_lt.mpr n.cast_nonneg)
      rw [hsign]
      exact Nat.repr_eq_ofList_toDigits
  | negSucc n =>
      have hsign : decide (Int.negSucc n < 0) = true := decide_eq_true (Int.negSucc_lt_zero n)
      have happend := sign_append true (Nat.repr (n + 1))
      rw [hsign]
      rw [Nat.repr_eq_ofList_toDigits, String.toList_ofList] at happend
      exact (congrArg ("-" ++ ·) Nat.repr_eq_ofList_toDigits).trans happend

/-- Digits end in no name of a type. -/
lemma splitSuffix_digits (negative : Bool) {ds : List Char} (hne : ds ≠ [])
    (hds : ∀ c ∈ ds, c.isDigit = true) :
    splitSuffix (signChars negative ++ ds) = (signChars negative ++ ds, []) := by
  have hdrop : ds.dropWhile (fun c => (digit? c).isSome || c == '_') = [] := by
    refine List.dropWhile_eq_nil_iff.mpr fun c hc => ?_
    rw [isSome_digit? (hds c hc)]
    rfl
  obtain ⟨c, cs, rfl⟩ := List.exists_cons_of_ne_nil hne
  have hc : c.isDigit = true := hds c List.mem_cons_self
  have hplus : c ≠ '+' := fun h => absurd hc (by rw [h]; decide)
  have hminus : c ≠ '-' := fun h => absurd hc (by rw [h]; decide)
  cases negative with
  | true =>
      rw [signChars, if_pos rfl, List.singleton_append, splitSuffix.eq_def]
      simp only [hdrop]
  | false =>
      rw [signChars, if_neg (by decide), List.nil_append, splitSuffix.eq_def]
      split
      next heq =>
        split at heq
        · next hcons => exact absurd (List.cons.inj hcons).1 hplus
        · next hcons => exact absurd (List.cons.inj hcons).1 hminus
        · obtain ⟨rfl, rfl⟩ := Prod.mk.inj heq
          simp only [hdrop]

lemma takeBase_digits {ds : List Char} (hds : ∀ c ∈ ds, c.isDigit = true) :
    takeBase ds = (10, ds) := by
  have hsecond : ∀ (x : Char) (cs : List Char), ds = '0' :: x :: cs → x.isDigit = true := by
    rintro x cs rfl
    exact hds x (List.mem_cons_of_mem _ List.mem_cons_self)
  rw [takeBase.eq_def]
  split
  · exact absurd (hsecond _ _ rfl) (by decide)
  · exact absurd (hsecond _ _ rfl) (by decide)
  · exact absurd (hsecond _ _ rfl) (by decide)
  · rfl

/-- Digits are read as an integer, whatever the name of its type is. -/
lemma integer?_digits (suffix : String) (low high : ℤ) (negative : Bool) (n : ℕ) :
    integer? suffix low high (String.ofList (signChars negative ++ Nat.toDigits 10 n)) =
      inRange low high (if negative then -n else n) := by
  have hds := isDigit_toDigits n
  have hne : Nat.toDigits 10 n ≠ [] := Nat.toDigits_ne_nil
  obtain ⟨c, cs, hcons⟩ := List.exists_cons_of_ne_nil hne
  have hc : c.isDigit = true := hds c (hcons ▸ List.mem_cons_self)
  have hsign := takeSign_signChars negative hc cs
  have hplain : ∀ d ∈ Nat.toDigits 10 n, (d != '_') = true := by
    intro d hd
    rw [bne_iff_ne]
    rintro rfl
    exact absurd (hds _ hd) (by decide)
  have hvalue : digits? 10 (Nat.toDigits 10 n) = some n := by
    have hhead : (Nat.toDigits 10 n).head? ≠ some '_' := by
      rw [hcons, List.head?_cons]
      rintro ⟨⟩
      exact absurd hc (by decide)
    rw [digits?, if_neg hhead, if_neg (by simp), List.filter_eq_self.mpr hplain,
      ofDigitsFrom?_toDigits (by decide) (by decide)]
  rw [← hcons] at hsign
  rw [integer?, String.toList_ofList, splitSuffix_digits negative hne hds]
  show plainInteger? low high _ = _
  rw [plainInteger?, hsign]
  simp only [takeBase_digits hds, hvalue]

/-- **An integer is read back from its digits, if it is in the range of the type.** -/
theorem integer?_toString (suffix : String) {low high z : ℤ} (hlow : low ≤ z) (hhigh : z ≤ high) :
    integer? suffix low high (toString z) = some z := by
  have hsigned : (if decide (z < 0) = true then -(z.natAbs : ℤ) else z.natAbs) = z := by
    simp only [decide_eq_true_eq]
    split <;> omega
  rw [toString_int, integer?_digits, hsigned, inRange, if_pos ⟨hlow, hhigh⟩]

end Number

end Ron

/-! ## Decimals -/

namespace Text

/-- Digits on both sides of a point. -/
structure Pointed (cs whole fraction : List Char) : Prop where
  split : cs = whole ++ '.' :: fraction
  nonempty : whole ≠ []
  whole_digits : ∀ c ∈ whole, c.isDigit = true
  fraction_digits : ∀ c ∈ fraction, c.isDigit = true

namespace Pointed

variable {cs whole fraction : List Char}

lemma exists_first (h : Pointed cs whole fraction) : ∃ c ds, cs = c :: ds ∧ c.isDigit = true := by
  obtain ⟨c, ds, rfl⟩ := List.exists_cons_of_ne_nil h.nonempty
  exact ⟨c, ds ++ '.' :: fraction, h.split, h.whole_digits c List.mem_cons_self⟩

/-- Digits with a point are read as a decimal. -/
lemma read? (h : Pointed cs whole fraction) (negative : Bool) :
    Decimal.read? (signChars negative ++ cs) =
      (ofDigits? 10 (whole ++ fraction)).map fun digits =>
        ⟨negative, digits, -(fraction.length : ℤ)⟩ := by
  obtain ⟨c, ds, heq, hc⟩ := h.exists_first
  have hwhole : cs.takeWhile Char.isDigit = whole := by
    rw [h.split, List.takeWhile_append_of_pos h.whole_digits]
    simp
  have hafter : cs.dropWhile Char.isDigit = '.' :: fraction := by
    rw [h.split, List.dropWhile_append_of_pos h.whole_digits]
    simp
  have htake : fraction.takeWhile Char.isDigit = fraction :=
    List.takeWhile_eq_self_iff.mpr h.fraction_digits
  have hdrop : fraction.dropWhile Char.isDigit = [] :=
    List.dropWhile_eq_nil_iff.mpr h.fraction_digits
  rw [Decimal.read?, heq, takeSign_signChars negative hc, ← heq]
  simp only [hwhole, hafter, htake, hdrop, Decimal.exponent?]
  cases ofDigits? 10 (whole ++ fraction) with
  | none => rfl
  | some digits => simp

end Pointed

end Text

namespace Binary.Shortest

/-- The digits of a number behind so many zeros that there are more than `n` of them. -/
def padded (digits n : ℕ) : List Char :=
  List.replicate (n + 1 - (Nat.toDigits 10 digits).length) '0' ++ Nat.toDigits 10 digits

lemma lt_length_padded (digits n : ℕ) : n < (padded digits n).length := by
  rw [padded, List.length_append, List.length_replicate]
  omega

lemma isDigit_zeros (n : ℕ) : ∀ c ∈ List.replicate n '0', c.isDigit = true := by
  intro c hc
  rw [List.eq_of_mem_replicate hc]
  rfl

lemma isDigit_padded (digits n : ℕ) : ∀ c ∈ padded digits n, c.isDigit = true := by
  intro c hc
  rw [padded, List.mem_append] at hc
  exact hc.elim (isDigit_zeros _ c) (isDigit_toDigits digits c)

/-- A whole number, with a zero behind the point. -/
lemma pointed_whole (digits n : ℕ) :
    Pointed (positional digits n).toList (Nat.toDigits 10 digits ++ List.replicate n '0')
      ['0'] := by
  have hlen : 0 < (Nat.toDigits 10 digits).length := Nat.length_toDigits_pos
  have hnone : 1 - (Nat.toDigits 10 digits).length = 0 := by omega
  have hfraction : (-(n : ℤ)).toNat = 0 := by omega
  refine ⟨?_, by simp, ?_, List.all_eq_true.mp rfl⟩
  · rw [positional, String.toList_ofList]
    simp [hfraction, hnone]
  · intro c hc
    rw [List.mem_append] at hc
    exact hc.elim (isDigit_toDigits digits c) (isDigit_zeros n c)

/-- A number with `n` digits behind the point. -/
lemma pointed_fraction (digits : ℕ) {n : ℕ} (hn : 0 < n) :
    Pointed (positional digits (-n)).toList
      ((padded digits n).take ((padded digits n).length - n))
      ((padded digits n).drop ((padded digits n).length - n)) := by
  have hlen := lt_length_padded digits n
  have hplaces : (-(-(n : ℤ))).toNat = n := by omega
  have hzeros : (-(n : ℤ)).toNat = 0 := by omega
  have hne : (padded digits n).drop ((padded digits n).length - n) ≠ [] := by
    rw [← List.length_pos_iff, List.length_drop]
    omega
  refine ⟨?_, ?_, fun c hc => isDigit_padded digits n c (List.mem_of_mem_take hc),
    fun c hc => isDigit_padded digits n c (List.mem_of_mem_drop hc)⟩
  · rw [positional, String.toList_ofList]
    simp only [hplaces, hzeros, List.replicate_zero, List.append_nil]
    rw [← padded, if_neg (by rwa [List.isEmpty_iff])]
  · rw [← List.length_pos_iff, List.length_take]
    omega

/-- **A positional decimal has digits on both sides of a point, which are worth the decimal.** -/
theorem exists_pointed (digits : ℕ) (place : ℤ) :
    ∃ whole fraction d, Pointed (positional digits place).toList whole fraction ∧
      ofDigits? 10 (whole ++ fraction) = some d ∧
      (d * 10 ^ (-(fraction.length : ℤ)) : ℚ) = digits * 10 ^ place := by
  rcases le_or_gt 0 place with hplace | hplace
  · obtain ⟨n, rfl⟩ := Int.eq_ofNat_of_zero_le hplace
    refine ⟨_, _, digits * 10 ^ (n + 1), pointed_whole digits n, ?_, ?_⟩
    · rw [ofDigits?, if_neg (by simp), List.append_assoc, ← List.replicate_succ',
        ofDigitsFrom?_append, ofDigitsFrom?_toDigits (by decide) (by decide), Option.bind_some,
        ofDigitsFrom?_replicate]
    · push_cast
      rw [List.length_singleton, pow_succ, zpow_natCast]
      norm_num
      ring
  · obtain ⟨n, hn, rfl⟩ : ∃ n : ℕ, 0 < n ∧ place = -n := ⟨(-place).toNat, by omega, by omega⟩
    have hlen := lt_length_padded digits n
    refine ⟨_, _, digits, pointed_fraction digits hn, ?_, ?_⟩
    · rw [List.take_append_drop, ofDigits?, if_neg, padded, ofDigitsFrom?_zeros,
        ofDigitsFrom?_toDigits (by decide) (by decide)]
      rw [List.isEmpty_iff, ← List.length_eq_zero_iff]
      omega
    · rw [List.length_drop]
      congr 3
      omega

end Binary.Shortest

/-! ## Numbers of the 32-bit format -/

namespace Ron.Number

lemma dropUnderscores?_eq {cs : List Char} (h : '_' ∉ cs) (allowed : Bool) :
    dropUnderscores? allowed cs = some cs := by
  induction cs generalizing allowed with
  | nil => rfl
  | cons c cs ih =>
      rw [List.mem_cons, not_or] at h
      have hc : ¬ (c == '_') = true := by
        rw [beq_iff_eq]
        exact fun heq => h.1 heq.symm
      rw [dropUnderscores?.eq_def]
      simp only [if_neg hc]
      rw [ih h.2, Option.map_some]

/-- No name of a type is taken off a text without its first letter. -/
lemma dropSuffix_eq {suffix : String} {c : Char} {cs : List Char} (hmem : c ∈ suffix.toList)
    (hcs : c ∉ cs) : dropSuffix suffix cs = cs := by
  rw [dropSuffix]
  simp only [beq_iff_eq]
  refine if_neg fun heq => hcs ?_
  rw [← heq]
  exact List.mem_append_right _ hmem

end Ron.Number

namespace Text.Pointed

variable {cs whole fraction : List Char}

lemma mem (h : Pointed cs whole fraction) : ∀ c ∈ cs, c = '.' ∨ c.isDigit = true := by
  intro c hc
  rw [h.split, List.mem_append, List.mem_cons] at hc
  rcases hc with hc | hc | hc
  · exact .inr (h.whole_digits c hc)
  · exact .inl hc
  · exact .inr (h.fraction_digits c hc)

/-- What the text of a decimal is read as. -/
lemma float? (h : Pointed cs whole fraction) (negative : Bool) {α : Type}
    (ofDecimal : Decimal → α) (ofDatum : Binary.Datum → α) :
    Ron.Number.float? "f32" ofDecimal ofDatum (String.ofList (signChars negative ++ cs)) =
      (Decimal.read? (signChars negative ++ cs)).map ofDecimal := by
  have hnot : ∀ c, c ≠ '-' → c ≠ '.' → c.isDigit = false → c ∉ signChars negative ++ cs := by
    intro c hminus hpoint hdigit hc
    rw [List.mem_append] at hc
    rcases hc.imp eq_of_mem_signChars (h.mem c) with hc | hc | hc
    · exact hminus hc
    · exact hpoint hc
    · rw [hdigit] at hc
      cases hc
  have hsuffix :
      Ron.Number.dropSuffix "f32" (signChars negative ++ cs) = signChars negative ++ cs :=
    Ron.Number.dropSuffix_eq (by decide) (hnot 'f' (by decide) (by decide) (by decide))
  have hword : Ron.Number.word? (signChars negative ++ cs) = none := by
    obtain ⟨c, ds, rfl, hc⟩ := h.exists_first
    have hname : ∀ d name, d.isDigit = false → ¬ (c :: ds == d :: name) = true := by
      intro d name hd heq
      rw [(List.cons.inj (beq_iff_eq.mp heq)).1, hd] at hc
      cases hc
    rw [Ron.Number.word?, takeSign_signChars negative hc]
    exact (if_neg (hname 'i' ['n', 'f'] (by decide))).trans
      (if_neg (hname 'N' ['a', 'N'] (by decide)))
  have hdecimal : Ron.Number.decimal? (signChars negative ++ cs) =
      Decimal.read? (signChars negative ++ cs) := by
    rw [Ron.Number.decimal?, Ron.Number.dropUnderscores?_eq
      (hnot '_' (by decide) (by decide) (by decide))]
  rw [Ron.Number.float?, String.toList_ofList]
  simp only [hsuffix, hword, hdecimal]

/-- The text of a decimal is that of a number token. -/
lemma isNumeral (h : Pointed cs whole fraction) (negative : Bool) :
    Ron.IsNumeral (signChars negative ++ cs) := by
  obtain ⟨c, ds, rfl, hc⟩ := h.exists_first
  exact isNumeral_signed negative hc fun d hd => h.mem d (List.mem_cons_of_mem _ hd)

end Text.Pointed

namespace Binary.Shortest

lemma render_zero (f : Format) (negative : Bool) (q : ℤ) :
    render f (.finite negative 0 q) = String.ofList (signChars negative ++ "0.0".toList) :=
  sign_append negative "0.0"

lemma render_finite (f : Format) (negative : Bool) {m : ℕ} (hm : 0 < m) (q : ℤ) :
    render f (.finite negative m q) = String.ofList (signChars negative ++
      (positional (trim 17 (decimal f m q)).1 (trim 17 (decimal f m q)).2).toList) := by
  obtain ⟨m, rfl⟩ := Nat.exists_eq_succ_of_ne_zero (Nat.ne_of_gt hm)
  exact sign_append negative _

end Binary.Shortest

namespace Binary32

lemma toNat_bits_lt (x : Binary32) : x.bits.toNat < 2 * Format.binary32.signBit :=
  x.bits.toNat_lt

/-- The number of a pattern under its sign. -/
lemma eq_of_withSign {x : Binary32} {negative : Bool} {magnitude : ℕ}
    (h : Format.binary32.withSign negative magnitude = x.bits.toNat) :
    (⟨(Format.binary32.withSign negative magnitude).toUInt32⟩ : Binary32) = x := by
  rw [h]
  exact congrArg Binary32.mk UInt32.ofNat_toNat

/-- The text of a finite number is that of a decimal which is rounded to the number. -/
theorem exists_pointed {x : Binary32} {negative : Bool} {m : ℕ} {q : ℤ}
    (hx : x.datum = .finite negative m q) :
    ∃ cs whole fraction, x.render = String.ofList (signChars negative ++ cs) ∧
      Pointed cs whole fraction ∧
      (Decimal.read? (signChars negative ++ cs)).map Binary32.nearest = some x := by
  obtain ⟨hbits, hfinite, ⟨rfl, hzero⟩ | hmember⟩ :=
    Format.withSign_of_decode_finite x.toNat_bits_lt hx
  · have hpointed : Pointed ['0', '.', '0'] ['0'] ['0'] := 
      ⟨rfl, by decide, List.all_eq_true.mp rfl, List.all_eq_true.mp rfl⟩
    refine ⟨_, _, _, ?_, hpointed, ?_⟩
    · rw [render, hx]
      exact Shortest.render_zero _ negative q
    · rw [hzero] at hbits
      rw [hpointed.read?]
      exact congrArg some (eq_of_withSign hbits)
  · obtain ⟨hdigits, hnear⟩ := Shortest.decimal_near hmember (by decide)
    obtain ⟨-, hvalue⟩ := Shortest.trim_value 17 _ hdigits
    obtain ⟨whole, fraction, digits, hpointed, hread, hworth⟩ :=
      Shortest.exists_pointed (Shortest.trim 17 (Shortest.decimal _ m q)).1
        (Shortest.trim 17 (Shortest.decimal _ m q)).2
    rw [← hvalue, ← hworth] at hnear
    have hne : digits ≠ 0 := by
      rintro rfl
      have := hnear.pos hmember.pos
      simp at this
    have hround := hmember.roundDecimal_of_near hfinite hne hnear
    refine ⟨_, _, _, ?_, hpointed, ?_⟩
    · rw [render, hx]
      exact Shortest.render_finite _ negative hmember.pos q
    · rw [hpointed.read?, hread]
      rw [← hround] at hbits
      exact congrArg some (eq_of_withSign hbits)

/-- **A number that is no NaN is read back from its text.** -/
theorem float?_render {x : Binary32} (hx : x.datum.isNaN = false) :
    Ron.Number.float? "f32" .nearest .ofDatum x.render = some x := by
  cases hdatum : x.datum with
  | nan negative =>
      rw [hdatum] at hx
      cases hx
  | infinity negative =>
      have hbits := Format.withSign_of_decode_infinity x.toNat_bits_lt hdatum
      have hread : Ron.Number.float? "f32" .nearest .ofDatum
          (Shortest.render Format.binary32 (.infinity negative)) =
            some (ofDatum (.infinity negative)) := by
        cases negative <;> decide
      rw [render, hdatum, hread]
      exact congrArg some (eq_of_withSign hbits)
  | finite negative m q =>
      obtain ⟨cs, whole, fraction, hrender, hpointed, hread⟩ := exists_pointed hdatum
      rw [hrender, hpointed.float?, hread]

end Binary32

/-! ## Number tokens -/

namespace Ron

namespace Document

lemma sound_int (z : ℤ) : (Document.int z).Sound := by
  refine sound_number ?_
  obtain ⟨c, cs, hcons⟩ :=
    List.exists_cons_of_ne_nil (Nat.toDigits_ne_nil (n := z.natAbs) (b := 10))
  have hds := isDigit_toDigits z.natAbs
  rw [hcons, List.forall_mem_cons] at hds
  rw [Number.toString_int, String.toList_ofList, hcons]
  exact isNumeral_signed _ hds.1 fun d hd => .inr (hds.2 d hd)

lemma float_eq_or (text : String) :
    Document.float text = word text ∨ Document.float text = number text := by
  rw [Document.float]
  split
  · split
    · exact .inl rfl
    · exact .inr rfl
  · exact .inr rfl

lemma float_of_isNumeral {text : String} (h : IsNumeral text.toList) :
    Document.float text = number text := by
  obtain ⟨c, cs, hcons, hc, -⟩ := h
  have halpha : ¬ c.isAlpha = true := by
    rw [isAlpha_iff]
    rw [Token.isNumberStart, Bool.or_eq_true, Bool.or_eq_true, Bool.or_eq_true, isDigit_iff,
      beq_iff_eq, beq_iff_eq, beq_iff_eq] at hc
    rcases hc with ((hc | rfl) | rfl) | rfl
    · omega
    all_goals decide
  rw [Document.float, hcons]
  exact if_neg halpha

lemma sound_float {x : Binary32} (hx : x.datum.isNaN = false) :
    (Document.float x.render).Sound := by
  have hnumeral : ∀ text : String, IsNumeral text.toList → (Document.float text).Sound := by
    intro text h
    rw [float_of_isNumeral h]
    exact sound_number h
  cases hdatum : x.datum with
  | nan negative =>
      rw [hdatum] at hx
      cases hx
  | infinity negative =>
      rw [Binary32.render, hdatum]
      cases negative with
      | false => exact sound_word (by decide)
      | true => exact hnumeral _ ⟨'-', ['i', 'n', 'f'], rfl, rfl, List.all_eq_true.mp rfl⟩
  | finite negative m q =>
      obtain ⟨cs, whole, fraction, hrender, hpointed, -⟩ := Binary32.exists_pointed hdatum
      refine hnumeral _ ?_
      rw [hrender, String.toList_ofList]
      exact hpointed.isNumeral negative

end Document

namespace Reader

variable {level : ℕ}

lemma takes_integer (suffix : String) {low high z : ℤ} (hlow : low ≤ z) (hhigh : z ≤ high) :
    (integer suffix low high).Takes 0 ((Document.int z).tokens level) z := by
  intro s _ _ rest
  have hread := Number.integer?_toString suffix hlow hhigh
  rw [Document.int, Document.tokens_number, List.singleton_append, integer, hread, Option.map_some]

lemma takes_uint64 (n : UInt64) : uint64.Takes 0 ((Document.int n.toNat).tokens level) n := by
  have hhigh : (n.toNat : ℤ) ≤ UInt64.size - 1 := by
    have := n.toNat_lt
    rw [UInt64.size]
    omega
  have hinteger : Takes _ 0 ((Document.int n.toNat).tokens level) _ :=
    takes_integer "u64" (Int.natCast_nonneg _) hhigh
  have hread := hinteger.map fun z : ℤ => z.toNat.toUInt64
  rw [Int.toNat_natCast] at hread
  rwa [show n.toNat.toUInt64 = n from UInt64.ofNat_toNat] at hread

lemma takes_int64 (n : Int64) : int64.Takes 0 ((Document.int n.toInt).tokens level) n := by
  have hhigh : n.toInt ≤ Int64.maxValue.toInt := Int64.le_iff_toInt_le.mp n.le_maxValue
  have hinteger : Takes _ 0 ((Document.int n.toInt).tokens level) _ :=
    takes_integer "i64" n.minValue_le_toInt hhigh
  have hread := hinteger.map Int64.ofInt
  rwa [Int64.ofInt_toInt] at hread

lemma takes_binary32 {x : Binary32} (hx : x.datum.isNaN = false) :
    binary32.Takes 0 ((Document.float x.render).tokens level) x := by
  intro s _ _ rest
  have hread := Binary32.float?_render hx
  rcases Document.float_eq_or x.render with hdoc | hdoc
  · rw [hdoc, Document.tokens_word, List.singleton_append, binary32, float, hread, Option.map_some]
  · rw [hdoc, Document.tokens_number, List.singleton_append, binary32, float, hread,
      Option.map_some]

end Reader

end Ron

end BehaviorTree
