import BehaviorTree.Text.Quoted
import Mathlib.Tactic.Common

/-!
# Digits and quoted text read back

* `Text.IsDigits` — the characters are digits of a base.  **`ofDigits?_toDigits`**: the digits of a
  number are worth the number.
* **`Text.unquote?_quoted`** — a quoted text is read back, whatever its characters are.  A character
  is escaped in one of three ways, and each is read back on its own (`unquote?_escape`).
-/

namespace BehaviorTree.Text

/-! ## Digits -/

lemma digit?_digitChar : ∀ d < 16, digit? d.digitChar = some d := by decide

/-- The characters are digits of a base. -/
def IsDigits (base : Nat) (cs : List Char) : Prop := ∀ c ∈ cs, ∃ d < base, digit? c = some d

lemma isDigits_toDigits {base : Nat} (hlow : 1 < base) (hhigh : base ≤ 16) (n : Nat) :
    IsDigits base (Nat.toDigits base n) := by
  induction n using Nat.strongRecOn with
  | ind n ih =>
      have hlast : ∀ d < base, ∃ e < base, digit? d.digitChar = some e :=
        fun d hd => ⟨d, hd, digit?_digitChar d (by omega)⟩
      rw [Nat.toDigits_eq_if hlow]
      split
      · next hn =>
          intro c hc
          rw [List.mem_singleton] at hc
          exact hc ▸ hlast n hn
      · intro c hc
        rw [List.mem_append, List.mem_singleton] at hc
        rcases hc with hc | rfl
        · exact ih (n / base) (Nat.div_lt_self (by omega) hlow) c hc
        · exact hlast _ (Nat.mod_lt _ (by omega))

lemma ofDigitsFrom?_append {base : Nat} (cs ds : List Char) (acc : Nat) :
    ofDigitsFrom? base acc (cs ++ ds) =
      (ofDigitsFrom? base acc cs).bind fun n => ofDigitsFrom? base n ds := by
  induction cs generalizing acc with
  | nil => rfl
  | cons c cs ih =>
      rw [List.cons_append, ofDigitsFrom?, ofDigitsFrom?]
      split
      · split
        · exact ih _
        · rfl
      · rfl

lemma ofDigitsFrom?_toDigits {base : Nat} (hlow : 1 < base) (hhigh : base ≤ 16) (n : Nat) :
    ofDigitsFrom? base 0 (Nat.toDigits base n) = some n := by
  induction n using Nat.strongRecOn with
  | ind n ih =>
      have hsingle : ∀ acc, ∀ d < base,
          ofDigitsFrom? base acc [d.digitChar] = some (acc * base + d) := by
        intro acc d hd
        rw [ofDigitsFrom?, digit?_digitChar d (by omega)]
        simp [hd, ofDigitsFrom?]
      rw [Nat.toDigits_eq_if hlow]
      split
      · next hn => rw [hsingle 0 n hn, Nat.zero_mul, Nat.zero_add]
      · have hlast := hsingle (n / base) (n % base) (Nat.mod_lt _ (by omega))
        rw [ofDigitsFrom?_append, ih (n / base) (Nat.div_lt_self (by omega) hlow),
          Option.bind_some, hlast, Nat.div_add_mod']

/-- **The digits of a number are worth the number.** -/
theorem ofDigits?_toDigits {base : Nat} (hlow : 1 < base) (hhigh : base ≤ 16) (n : Nat) :
    ofDigits? base (Nat.toDigits base n) = some n := by
  rw [ofDigits?, if_neg, ofDigitsFrom?_toDigits hlow hhigh]
  simp

/-! ## Quotation marks -/

/-- A character by its number is read back. -/
lemma codeEscape?_toDigits (c : Char) (rest : List Char) :
    codeEscape? (Nat.toDigits 16 c.toNat ++ '}' :: rest) = some (c, rest) := by
  have hvalid : c.toNat.isValidChar := c.valid
  have hlen : (Nat.toDigits 16 c.toNat).length ≤ 6 := by
    refine (Nat.length_toDigits_le_iff (by decide) (by decide)).mpr ?_
    rcases hvalid with h | h <;> omega
  have hbrace : ∀ d ∈ Nat.toDigits 16 c.toNat, (d != '}') = true := by
    intro d hd
    obtain ⟨x, -, hx⟩ := isDigits_toDigits (by decide : 1 < 16) (by decide) c.toNat d hd
    simp only [bne_iff_ne, ne_eq]
    rintro rfl
    simp [digit?] at hx
  have htake : ((Nat.toDigits 16 c.toNat ++ '}' :: rest).take 6).takeWhile (· != '}') =
      Nat.toDigits 16 c.toNat := by
    rw [List.take_append, List.take_of_length_le hlen, List.takeWhile_append_of_pos hbrace]
    cases 6 - (Nat.toDigits 16 c.toNat).length <;> simp
  rw [codeEscape?]
  simp only [htake, ofDigits?_toDigits (by decide : 1 < 16) (by decide), List.drop_left]
  rw [if_pos hvalid, Char.ofNat_toNat]

/-- A character inside quotation marks is read back, and the rest is read after it. -/
lemma unquote?_escape (c : Char) (rest : List Char) :
    unquote? (escape c ++ rest) = (unquote? rest).map fun p => (c :: p.1, p.2) := by
  have hescaped : ∀ (d : Char) (cs : List Char), unescape? 3 cs = some (d, rest) →
      rest.length < cs.length →
      unquote? ('\\' :: cs) = (unquote? rest).map fun p => (d :: p.1, p.2) := by
    intro d cs hd hlen
    rw [unquote?]
    simp only [hd]
    rw [dif_pos (by omega)]
  rw [escape]
  split
  · next h => subst h; exact hescaped _ _ rfl (by simp)
  split
  · next h => subst h; exact hescaped _ _ rfl (by simp)
  split
  · next h => subst h; exact hescaped _ _ rfl (by simp)
  split
  · next h => subst h; exact hescaped _ _ rfl (by simp)
  split
  · next h => rcases h with rfl | rfl | rfl <;> exact hescaped _ _ rfl (by simp)
  split
  · have hcode : unescape? 3 ('u' :: '{' :: (Nat.toDigits 16 c.toNat ++ '}' :: rest)) =
        some (c, rest) := codeEscape?_toDigits c rest
    have := hescaped c _ hcode (by simp; omega)
    rw [escapeNumber]
    simpa using this
  · next hmark _ =>
      rw [not_or, not_or] at hmark
      rw [List.singleton_append, unquote?]
      · simp [hmark]
      · simp [hmark]

/-- **A quoted text is read back**, and what follows it is left. -/
theorem unquote?_quoted (cs rest : List Char) :
    unquote? (cs.flatMap escape ++ '"' :: rest) = some (cs, rest) := by
  induction cs with
  | nil => rw [List.flatMap_nil, List.nil_append, unquote?]
  | cons c cs ih =>
      rw [List.flatMap_cons, List.append_assoc, unquote?_escape, ih, Option.map_some]

end BehaviorTree.Text
