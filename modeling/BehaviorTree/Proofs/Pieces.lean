import BehaviorTree.Proofs.Quoting
import BehaviorTree.Ron.Document
import Mathlib.Data.List.Basic

/-!
# The tokens of a written text

A document is written in pieces, and the text is the pieces one behind the other.  Cutting the text
into tokens finds the pieces again, blanks apart, if each is what its kind says, and no word or
number runs into the piece behind it.

* `Piece.Fine` and `FineAll` — the pieces are such.  **`tokens?_renderAll`**: then their text has
  their tokens.
* `Document.Sound` — the pieces of a document are such, wherever it stands.
* `Document.tokens` — the tokens of a document, at a level of indentation.
  **`Document.Sound.tokens?_renderPretty`**: the pretty text has them.
-/

namespace BehaviorTree.Ron

open BehaviorTree.Text

/-! ## Pieces -/

/-- The characters that stand behind words and numbers. -/
def partings : List Char := [' ', '\n', '(', ')', '[', ']', '\x7b', '\x7d', ',', ':']

/-- What follows does not go on with a word or number. -/
def Parted (rest : List Char) : Prop := ∀ c cs, rest = c :: cs → c ∈ partings

lemma not_run_of_mem_partings : ∀ c ∈ partings, Token.isRunChar c = false :=
  List.forall_iff_forall_mem.mp (by decide)

lemma not_continue_of_mem_partings : ∀ c ∈ partings, isIdentContinue c = false :=
  List.forall_iff_forall_mem.mp (by decide)

/-- A letter of ASCII or an underscore. -/
def isWordStart (c : Char) : Bool := c.isAlpha || c == '_'

def isWordChar (c : Char) : Bool := c.isAlphanum || c == '_'

/-- A word in the letters of ASCII. -/
def IsWord (cs : List Char) : Prop :=
  ∃ d ds, cs = d :: ds ∧ isWordStart d = true ∧ ∀ c ∈ ds, isWordChar c = true

instance : DecidablePred IsWord
  | [] => isFalse fun ⟨_, _, h, _⟩ => nomatch h
  | d :: ds => decidable_of_iff (isWordStart d = true ∧ ds.all isWordChar = true) ⟨
      fun h => ⟨d, ds, rfl, h.1, List.all_eq_true.mp h.2⟩, fun ⟨_, _, heq, h⟩ => by
        obtain ⟨rfl, rfl⟩ := List.cons.inj heq
        exact ⟨h.1, List.all_eq_true.mpr h.2⟩⟩

lemma isAlpha_iff {c : Char} : c.isAlpha = true ↔
    65 ≤ c.toNat ∧ c.toNat ≤ 90 ∨ 97 ≤ c.toNat ∧ c.toNat ≤ 122 := by
  delta Char.isAlpha Char.isUpper Char.isLower
  simp only [UInt32.le_iff_toNat_le, ge_iff_le, Bool.or_eq_true, Bool.and_eq_true,
    decide_eq_true_eq]
  rfl

lemma isDigit_iff {c : Char} : c.isDigit = true ↔ 48 ≤ c.toNat ∧ c.toNat ≤ 57 := by
  simp only [Char.isDigit, UInt32.le_iff_toNat_le, ge_iff_le, Bool.and_eq_true, decide_eq_true_eq]
  rfl

lemma isWordStart_iff {c : Char} : isWordStart c = true ↔
    65 ≤ c.toNat ∧ c.toNat ≤ 90 ∨ 97 ≤ c.toNat ∧ c.toNat ≤ 122 ∨ c = '_' := by
  rw [isWordStart, Bool.or_eq_true, isAlpha_iff, beq_iff_eq, or_assoc]

lemma isIdentContinue_of_isWordChar {c : Char} (h : isWordChar c = true) :
    isIdentContinue c = true := by
  have hlt : c.toNat < 0x80 := by
    rw [isWordChar, Char.isAlphanum, Bool.or_eq_true, Bool.or_eq_true, isAlpha_iff, isDigit_iff,
      beq_iff_eq] at h
    rcases h with (h | h) | rfl
    · omega
    · omega
    · decide
  rw [isIdentContinue, if_pos hlt]
  exact h

lemma isIdentStart_of_isWordStart {c : Char} (h : isWordStart c = true) :
    (isIdentStart c || c == '_') = true := by
  have hword := h
  rw [isWordStart_iff] at h
  rw [isWordStart, Bool.or_eq_true] at hword
  rw [Bool.or_eq_true]
  refine hword.imp (fun halpha => ?_) id
  rw [isIdentStart, if_pos, halpha]
  rcases h with h | h | rfl
  · omega
  · omega
  · decide

/-- The characters of a number token. -/
def IsNumeral (cs : List Char) : Prop :=
  ∃ d ds, cs = d :: ds ∧ Token.isNumberStart d = true ∧ ∀ c ∈ ds, Token.isRunChar c = true

namespace Piece

/-- The text of some pieces. -/
def chars (ps : List Piece) : List Char := ps.flatMap fun p => p.render.toList

/-- The piece is what its kind says, and what follows does not go on with it. -/
def Fine (rest : List Char) : Piece → Prop
  | word name => IsWord name.toList ∧ Parted rest
  | number digits => IsNumeral digits.toList ∧ Parted rest
  | text _ => True
  | mark c => Token.isMark c = true
  | blank s => ∀ c ∈ s.toList, c = ' ' ∨ c = '\n'

/-- Each of the pieces is fine where it stands. -/
def FineAll : List Piece → Prop
  | [] => True
  | p :: ps => p.Fine (chars ps) ∧ FineAll ps

lemma toList_renderAll (ps : List Piece) : (renderAll ps).toList = chars ps := by
  rw [renderAll, String.toList_join, List.flatMap_map, chars]

@[simp] lemma chars_cons (p : Piece) (ps : List Piece) :
    chars (p :: ps) = p.render.toList ++ chars ps := rfl

end Piece

/-! ## Cutting pieces off a text -/

namespace Token

lemma skipGap_blanks {bs : List Char} (h : ∀ c ∈ bs, c = ' ' ∨ c = '\n') (cs : List Char) :
    skipGap .blank (bs ++ cs) = skipGap .blank cs := by
  induction bs with
  | nil => rfl
  | cons b bs ih =>
      rw [List.forall_mem_cons] at h
      obtain ⟨rfl | rfl, h⟩ := h
      · exact ih h
      · exact ih h

lemma skipGap_start {c : Char} (hblank : isBlank c = false) (hslash : c ≠ '/') (cs : List Char) :
    skipGap .blank (c :: cs) = some (c :: cs) := by
  rw [skipGap.eq_def]
  split
  case h_3 heq =>
      obtain ⟨rfl, rfl⟩ := List.cons.inj heq
      rw [hblank]
      rfl
  all_goals simp_all

/-- The characters that begin no token. -/
def gapStarts : List Char :=
  ['/', ' ', '\t', '\n', '\r', '\x0b', '\x0c', '\u0085', '\u200e', '\u200f', '\u2028', '\u2029']

lemma mem_gapStarts_of_isBlank {c : Char} (h : isBlank c = true) : c ∈ gapStarts := by
  simp only [isBlank, Bool.or_eq_true, beq_iff_eq] at h
  simp only [gapStarts, List.mem_cons, List.not_mem_nil, or_false]
  tauto

lemma not_mem_of_any {p : Char → Bool} {cs : List Char} (hp : cs.any p = false) {c : Char}
    (hc : p c = true) : c ∉ cs := by
  intro hmem
  rw [List.any_eq_true.mpr ⟨c, hmem, hc⟩] at hp
  cases hp

/-- A character of a class is none that lies outside. -/
lemma ne_of_class {p : Char → Bool} {c x : Char} (hc : p c = true) (hx : p x = false) :
    ¬ (c == x) = true := by
  rw [beq_iff_eq]
  rintro rfl
  rw [hx] at hc
  cases hc

/-- A character of a class that begins tokens begins one. -/
lemma not_gap {p : Char → Bool} (hp : gapStarts.any p = false) {c : Char} (hc : p c = true) :
    isBlank c = false ∧ c ≠ '/' := by
  have hnot : c ∉ gapStarts := not_mem_of_any hp hc
  refine ⟨?_, ?_⟩
  · rw [Bool.eq_false_iff]
    exact fun hblank => hnot (mem_gapStarts_of_isBlank hblank)
  · rintro rfl
    exact hnot List.mem_cons_self

lemma next?_text (s : String) (rest : List Char) :
    next? '"' (s.toList.flatMap escape ++ '"' :: rest) = some (.text s, rest) := by
  have hread : ∀ cs, next? '"' cs =
      (unquote? cs).map fun p => (.text (String.ofList p.1), p.2) := fun _ => rfl
  rw [hread, unquote?_quoted, Option.map_some, String.ofList_toList]

/-- The brackets and signs. -/
def marks : List Char := ['(', ')', '[', ']', '\x7b', '\x7d', ',', ':', '#', '!']

lemma mem_of_isMark {c : Char} (h : isMark c = true) : c ∈ marks := by
  have hmarks : "()[]\x7b\x7d,:#!".toList = marks := rfl
  rwa [isMark, hmarks, List.contains_iff_mem] at h

/-- No character of a class apart from the marks is one. -/
lemma not_mark {p : Char → Bool} (hp : marks.any p = false) {c : Char} (hc : p c = true) :
    ¬ isMark c = true := fun h => not_mem_of_any hp hc (mem_of_isMark h)

lemma next?_mark {c : Char} (h : isMark c = true) (cs : List Char) :
    next? c cs = some (.mark c, cs) := by
  have hquote : ¬ (c == '"') = true := ne_of_class h (by decide)
  have hsingle : ¬ (c == '\'') = true := ne_of_class h (by decide)
  rw [next?.eq_def, if_neg hquote, if_neg hsingle, if_pos h]

lemma takeWhile_parted {p : Char → Bool} (hp : ∀ c ∈ partings, p c = false) {rest : List Char}
    (h : Parted rest) : rest.takeWhile p = [] ∧ rest.dropWhile p = rest := by
  cases rest with
  | nil => exact ⟨rfl, rfl⟩
  | cons c cs =>
      have hc := hp c (h c cs rfl)
      simp [hc]

lemma next?_number {c : Char} {ds rest : List Char} (hc : isNumberStart c = true)
    (hds : ∀ d ∈ ds, isRunChar d = true) (hrest : Parted rest) :
    next? c (ds ++ rest) = some (.number (String.ofList (c :: ds)), rest) := by
  have hquote : ¬ (c == '"') = true := ne_of_class hc (by decide)
  have hsingle : ¬ (c == '\'') = true := ne_of_class hc (by decide)
  have hmark : ¬ isMark c = true := not_mark (by decide) hc
  obtain ⟨htake, hdrop⟩ := takeWhile_parted not_run_of_mem_partings hrest
  rw [next?.eq_def, if_neg hquote, if_neg hsingle, if_neg hmark, if_pos hc,
    List.takeWhile_append_of_pos hds, List.dropWhile_append_of_pos hds, htake, hdrop,
    List.append_nil]

/-- No word runs into a quotation mark or a sign. -/
lemma not_quoted {cs rest : List Char} (hcs : ∀ c ∈ cs, isIdentContinue c = true)
    (hrest : Parted rest) {pre post : List Char} {x : Char}
    (hpre : ∀ c ∈ pre, isIdentContinue c = true)
    (hx : isIdentContinue x = false) (hnot : x ∉ partings) : cs ++ rest ≠ pre ++ x :: post := by
  intro heq
  have hdrop := congrArg (List.dropWhile isIdentContinue) heq
  rw [List.dropWhile_append_of_pos hcs, List.dropWhile_append_of_pos hpre,
    (takeWhile_parted not_continue_of_mem_partings hrest).2, List.dropWhile_cons, hx] at hdrop
  exact hnot (hrest x post hdrop)

lemma ident?_word (c : Char) {ds rest : List Char} (hds : ∀ d ∈ ds, isIdentContinue d = true)
    (hrest : Parted rest) :
    ident? c (ds ++ rest) = some (.ident (String.ofList (c :: ds)) false, rest) := by
  obtain ⟨htake, hdrop⟩ := takeWhile_parted not_continue_of_mem_partings hrest
  rw [ident?]
  simp only [List.takeWhile_append_of_pos hds, List.dropWhile_append_of_pos hds, htake, hdrop,
    List.append_nil]
  cases rest with
  | nil => rfl
  | cons d rest => simp [not_run_of_mem_partings d (hrest d rest rfl)]

lemma not_numberStart_of_isWordStart {c : Char} (hc : isWordStart c = true) :
    ¬ isNumberStart c = true := by
  rw [isNumberStart, Bool.or_eq_true, Bool.or_eq_true, Bool.or_eq_true, isDigit_iff, beq_iff_eq,
    beq_iff_eq, beq_iff_eq]
  rw [isWordStart_iff] at hc
  rintro (((h | rfl) | rfl) | rfl)
  · rcases hc with hc | hc | rfl
    · omega
    · omega
    · exact absurd h (by decide)
  all_goals exact absurd hc (by decide)

/-- A word is an identifier, also one that begins as the prefix of a raw or byte string does. -/
lemma next?_word {c : Char} {ds rest : List Char} (hc : isWordStart c = true)
    (hds : ∀ d ∈ ds, isWordChar d = true) (hrest : Parted rest) :
    next? c (ds ++ rest) = some (.ident (String.ofList (c :: ds)) false, rest) := by
  have hcontinue : ∀ d ∈ ds, isIdentContinue d = true :=
    fun d hd => isIdentContinue_of_isWordChar (hds d hd)
  have hplain : ∀ (pre post : List Char) (x : Char), (∀ d ∈ pre, isIdentContinue d = true) →
      isIdentContinue x = false → x ∉ partings → ds ++ rest ≠ pre ++ x :: post :=
    fun pre post x => not_quoted hcontinue hrest
  have hquote : ¬ (c == '"') = true := ne_of_class hc (by decide)
  have hsingle : ¬ (c == '\'') = true := ne_of_class hc (by decide)
  have hmark : ¬ isMark c = true := not_mark (by decide) hc
  have hnumber : ¬ isNumberStart c = true := not_numberStart_of_isWordStart hc
  rw [next?.eq_def, if_neg hquote, if_neg hsingle, if_neg hmark, if_neg hnumber]
  -- what the other cases take for a prefix would have to stand in the word or right behind it
  split
  case h_1 heq => exact absurd heq (hplain [] _ '"' (by simp) (by decide) (by decide))
  case h_2 heq => exact absurd heq (hplain [] _ '#' (by simp) (by decide) (by decide))
  case h_3 heq => exact absurd heq (hplain [] _ '#' (by simp) (by decide) (by decide))
  case h_4 heq => exact absurd heq (hplain [] _ '#' (by simp) (by decide) (by decide))
  case h_5 heq => exact absurd heq (hplain [] _ '\'' (by simp) (by decide) (by decide))
  case h_6 heq => exact absurd heq (hplain [] _ '"' (by simp) (by decide) (by decide))
  case h_7 heq => exact absurd heq (hplain ['r'] _ '"' (by simp; decide) (by decide) (by decide))
  case h_8 heq => exact absurd heq (hplain ['r'] _ '#' (by simp; decide) (by decide) (by decide))
  case h_9 =>
      rw [if_pos (isIdentStart_of_isWordStart hc)]
      exact ident?_word _ hcontinue hrest

end Token

/-! ## The tokens of pieces -/

namespace Piece

/-- A blank that stands in front of a text does not show. -/
lemma tokensUpTo?_blanks {bs : List Char} (h : ∀ c ∈ bs, c = ' ' ∨ c = '\n') (fuel : Nat)
    (cs : List Char) : Token.tokensUpTo? fuel (bs ++ cs) = Token.tokensUpTo? fuel cs := by
  cases fuel with
  | zero => rfl
  | succ fuel => rw [Token.tokensUpTo?, Token.tokensUpTo?, Token.skipGap_blanks h]

/-- The token at the beginning of a text is taken off. -/
lemma tokensUpTo?_cons {c : Char} {cs rest : List Char} {t : Token}
    (hblank : Token.isBlank c = false) (hslash : c ≠ '/')
    (hnext : Token.next? c cs = some (t, rest)) (fuel : Nat) :
    Token.tokensUpTo? (fuel + 1) (c :: cs) = (Token.tokensUpTo? fuel rest).map (t :: ·) := by
  rw [Token.tokensUpTo?, Token.skipGap_start hblank hslash]
  simp only [hnext]

/-- A fine piece that is no blank begins with a character that begins a token, and is that
token. -/
lemma Fine.exists_next {p : Piece} {rest : List Char} (h : p.Fine rest) {t : Token}
    (ht : p.token? = some t) :
    ∃ c cs, p.render.toList = c :: cs ∧ Token.isBlank c = false ∧ c ≠ '/' ∧
      Token.next? c (cs ++ rest) = some (t, rest) := by
  cases p with
  | word name =>
      obtain ⟨⟨d, ds, heq, hd, hds⟩, hparted⟩ := h
      obtain ⟨hblank, hslash⟩ := Token.not_gap (p := isWordStart) (by decide) hd
      refine ⟨d, ds, heq, hblank, hslash, ?_⟩
      rw [Token.next?_word hd hds hparted, ← heq, String.ofList_toList, Option.some.inj ht]
  | number digits =>
      obtain ⟨⟨d, ds, heq, hd, hds⟩, hparted⟩ := h
      obtain ⟨hblank, hslash⟩ := Token.not_gap (p := Token.isNumberStart) (by decide) hd
      refine ⟨d, ds, heq, hblank, hslash, ?_⟩
      rw [Token.next?_number hd hds hparted, ← heq, String.ofList_toList, Option.some.inj ht]
  | text s =>
      refine ⟨'"', s.toList.flatMap escape ++ ['"'], String.toList_ofList, by decide, by decide, ?_⟩
      rw [List.append_assoc, List.singleton_append, Token.next?_text, Option.some.inj ht]
  | mark c =>
      obtain ⟨hblank, hslash⟩ := Token.not_gap (p := Token.isMark) (by decide) h
      refine ⟨c, [], String.toList_singleton c, hblank, hslash, ?_⟩
      rw [List.nil_append, Token.next?_mark h, Option.some.inj ht]
  | blank s => cases ht

/-- The tokens of fine pieces are found one after the other. -/
lemma tokensUpTo?_chars {ps : List Piece} (h : FineAll ps) {fuel : Nat}
    (hfuel : (chars ps).length < fuel) :
    Token.tokensUpTo? fuel (chars ps) = some (ps.filterMap token?) := by
  induction ps generalizing fuel with
  | nil =>
      obtain ⟨fuel, rfl⟩ := Nat.exists_eq_succ_of_ne_zero (Nat.ne_of_gt hfuel)
      rfl
  | cons p ps ih =>
      obtain ⟨hp, hps⟩ := h
      rw [chars_cons, List.length_append] at hfuel
      rw [chars_cons, List.filterMap_cons]
      cases ht : p.token? with
      | none =>
          obtain ⟨s, rfl⟩ : ∃ s, p = .blank s := by
            cases p with
            | blank s => exact ⟨s, rfl⟩
            | _ => cases ht
          rw [render, tokensUpTo?_blanks hp, ih hps (by omega)]
      | some t =>
          obtain ⟨c, cs, heq, hblank, hslash, hnext⟩ := hp.exists_next ht
          obtain ⟨fuel, rfl⟩ := Nat.exists_eq_succ_of_ne_zero (Nat.ne_zero_of_lt hfuel)
          rw [heq, List.length_cons] at hfuel
          rw [heq, List.cons_append, tokensUpTo?_cons hblank hslash hnext, ih hps (by omega),
            Option.map_some]

/-- **The text of fine pieces has their tokens.** -/
theorem tokens?_renderAll {ps : List Piece} (h : FineAll ps) :
    Token.tokens? (renderAll ps) = some (ps.filterMap token?) := by
  rw [Token.tokens?, toList_renderAll]
  exact tokensUpTo?_chars h (Nat.lt_succ_self _)

end Piece

/-! ## Documents -/

namespace Document

open Piece

variable {level : Nat}

/-- The pieces of the document are fine wherever it stands, if what follows does not go on with
it. -/
def Sound (d : Document) : Prop := ∀ level ps, FineAll ps → Parted (chars ps) →
  FineAll (d.pretty level ++ ps)

lemma parted_mark {c : Char} (hc : c ∈ partings) (ps : List Piece) :
    Parted (chars (.mark c :: ps)) := by
  intro d cs heq
  rw [chars_cons, render, String.toList_singleton, List.singleton_append] at heq
  obtain ⟨rfl, -⟩ := List.cons.inj heq
  exact hc

lemma fineAll_indent {ps : List Piece} (h : FineAll ps) (level : Nat) :
    FineAll (indent level :: ps) := by
  refine ⟨?_, h⟩
  intro c hc
  rw [String.toList_ofList] at hc
  exact .inl (List.eq_of_mem_replicate hc)

lemma fineAll_mark {c : Char} (hc : Token.isMark c = true) {ps : List Piece} (h : FineAll ps) :
    FineAll (.mark c :: ps) := ⟨hc, h⟩

lemma fineAll_break {ps : List Piece} (h : FineAll ps) : FineAll (.blank "
" :: ps) :=
  ⟨fun c hc => .inr (by simpa using hc), h⟩

lemma fineAll_space {ps : List Piece} (h : FineAll ps) : FineAll (.blank " " :: ps) :=
  ⟨fun c hc => .inl (by simpa using hc), h⟩

lemma sound_word {name : String} (h : IsWord name.toList) : (word name).Sound :=
  fun _ _ hps hparted => ⟨⟨h, hparted⟩, hps⟩

lemma sound_number {digits : String} (h : IsNumeral digits.toList) : (number digits).Sound :=
  fun _ _ hps hparted => ⟨⟨h, hparted⟩, hps⟩

lemma sound_text (s : String) : (text s).Sound := fun _ _ hps _ => ⟨trivial, hps⟩

lemma sound_wrapped {name : String} (h : IsWord name.toList) {d : Document} (hd : d.Sound) :
    (wrapped name d).Sound := by
  intro level ps hps _
  have hclose : FineAll (.mark ')' :: ps) := fineAll_mark (by decide) hps
  have hcontent := hd level _ hclose (parted_mark (by decide) ps)
  rw [pretty, List.cons_append, List.cons_append, List.append_assoc, List.singleton_append]
  exact ⟨⟨h, parted_mark (by decide) _⟩, fineAll_mark (by decide) hcontent⟩

/-- Lines that are fine in brackets. -/
lemma fineAll_enclose {opening closing : Char} (hopen : Token.isMark opening = true)
    (hclose : Token.isMark closing = true) {lines : List Piece}
    (hlines : ∀ ps, FineAll ps → FineAll (lines ++ ps)) (level : Nat) {ps : List Piece}
    (hps : FineAll ps) : FineAll (enclose opening closing level lines ++ ps) := by
  rw [enclose]
  split
  · exact fineAll_mark hopen (fineAll_mark hclose hps)
  · have hend := fineAll_indent (fineAll_mark hclose hps) level
    have hbody := fineAll_mark hopen (fineAll_break (hlines _ hend))
    simpa using hbody

lemma sound_list {ds : List Document} (h : ∀ d ∈ ds, d.Sound) : (list ds).Sound := by
  intro level ps hps _
  rw [pretty]
  refine fineAll_enclose (by decide) (by decide) (fun qs hqs => ?_) level hps
  induction ds with
  | nil => exact hqs
  | cons d ds ih =>
      rw [List.forall_mem_cons] at h
      have hrest := fineAll_mark (c := ',') (by decide) (fineAll_break (ih h.2))
      have hline := fineAll_indent (h.1 (level + 1) _ hrest (parted_mark (by decide) _)) (level + 1)
      simpa [prettyItems, lineEnd] using hline

lemma sound_record {name : Option String} (hname : ∀ n, name = some n → IsWord n.toList)
    {fields : List (String × Document)} (h : ∀ f ∈ fields, IsWord f.1.toList ∧ f.2.Sound) :
    (record name fields).Sound := by
  intro level ps hps _
  have hbody : FineAll (enclose '(' ')' level (prettyFields (level + 1) fields) ++ ps) := by
    refine fineAll_enclose (by decide) (by decide) (fun qs hqs => ?_) level hps
    induction fields with
    | nil => exact hqs
    | cons f fields ih =>
        obtain ⟨field, d⟩ := f
        rw [List.forall_mem_cons] at h
        have hrest := fineAll_mark (c := ',') (by decide) (fineAll_break (ih h.2))
        have hvalue := h.1.2 (level + 1) _ hrest (parted_mark (by decide) _)
        have hcolon := fineAll_mark (c := ':') (by decide) (fineAll_space hvalue)
        have hfield : FineAll (.word field :: _) := ⟨⟨h.1.1, parted_mark (by decide) _⟩, hcolon⟩
        simpa [prettyFields, lineEnd] using fineAll_indent hfield (level + 1)
  have hopens : ∃ qs, enclose '(' ')' level (prettyFields (level + 1) fields) ++ ps =
      .mark '(' :: qs := by
    rw [enclose]
    split
    · exact ⟨_, rfl⟩
    · exact ⟨_, rfl⟩
  obtain ⟨qs, hqs⟩ := hopens
  rw [pretty, List.append_assoc, hqs]
  rw [hqs] at hbody
  cases name with
  | none => exact hbody
  | some n => exact ⟨⟨hname n rfl, parted_mark (by decide) qs⟩, hbody⟩

lemma sound_variant {name : String} (hname : IsWord name.toList)
    {fields : List (String × Document)} (h : ∀ f ∈ fields, IsWord f.1.toList ∧ f.2.Sound) :
    (record (some name) fields).Sound := by
  refine sound_record ?_ h
  rintro _ ⟨⟩
  exact hname

lemma fields_cons {name : String} {d : Document} {fields : List (String × Document)}
    (hname : IsWord name.toList) (hd : d.Sound)
    (h : ∀ f ∈ fields, IsWord f.1.toList ∧ f.2.Sound) :
    ∀ f ∈ (name, d) :: fields, IsWord f.1.toList ∧ f.2.Sound :=
  List.forall_mem_cons.mpr ⟨⟨hname, hd⟩, h⟩

lemma sound_pair {a b : Document} (ha : a.Sound) (hb : b.Sound) : (tuple [a, b]).Sound := by
  intro level ps hps _
  have hclose : FineAll (.mark ')' :: ps) := fineAll_mark (by decide) hps
  have hsecond := fineAll_space (hb level _ hclose (parted_mark (by decide) ps))
  have hfirst := ha level _ (fineAll_mark (c := ',') (by decide) hsecond)
    (parted_mark (by decide) _)
  simpa [pretty, prettyTuple] using fineAll_mark (c := '(') (by decide) hfirst

/-! ## The tokens of documents -/

/-- The tokens of a document whose first line begins at a level of indentation. -/
def tokens (level : Nat) (d : Document) : List Token := (d.pretty level).filterMap token?

/-- **The pretty text of a sound document has the document's tokens.** -/
theorem Sound.tokens?_renderPretty {d : Document} (h : d.Sound) :
    Token.tokens? d.renderPretty = some (d.tokens 0) := by
  have hfine := h 0 [] trivial (by rintro c cs ⟨⟩)
  rw [List.append_nil] at hfine
  exact tokens?_renderAll hfine

@[simp] lemma tokens_word (name : String) : (word name).tokens level = [.ident name false] := rfl

@[simp] lemma tokens_number (digits : String) : (number digits).tokens level = [.number digits] :=
  rfl

@[simp] lemma tokens_text (s : String) : (text s).tokens level = [.text s] := rfl

@[simp] lemma tokens_wrapped (name : String) (d : Document) :
    (wrapped name d).tokens level =
      .ident name false :: .mark '(' :: d.tokens level ++ [.mark ')'] := by
  simp [tokens, pretty, token?]

/-- The tokens of a field, with the comma behind it. -/
def fieldTokens (level : Nat) (f : String × Document) : List Token :=
  .ident f.1 false :: .mark ':' :: f.2.tokens level ++ [.mark ',']

/-- The tokens between brackets and of the brackets are those of the lines. -/
lemma filterMap_enclose (opening closing : Char) (level : Nat) (lines : List Piece) :
    (enclose opening closing level lines).filterMap token? =
      .mark opening :: lines.filterMap token? ++ [.mark closing] := by
  rw [enclose]
  split
  · next h =>
      rw [List.isEmpty_iff] at h
      subst h
      rfl
  · simp [List.filterMap_cons, token?, indent]

lemma tokens_list (ds : List Document) : (list ds).tokens level =
    .mark '[' :: ds.flatMap (fun d => d.tokens (level + 1) ++ [.mark ',']) ++ [.mark ']'] := by
  have hlines : (prettyItems (level + 1) ds).filterMap token? =
      ds.flatMap fun d => d.tokens (level + 1) ++ [.mark ','] := by
    induction ds with
    | nil => rfl
    | cons d ds ih => simp [List.filterMap_cons, prettyItems, lineEnd, indent, token?, tokens, ih]
  rw [tokens, pretty, filterMap_enclose, hlines]

lemma tokens_record (name : Option String) (fields : List (String × Document)) :
    (record name fields).tokens level = (namePieces name).filterMap token? ++
      .mark '(' :: fields.flatMap (fieldTokens (level + 1)) ++ [.mark ')'] := by
  have hlines : (prettyFields (level + 1) fields).filterMap token? =
      fields.flatMap (fieldTokens (level + 1)) := by
    induction fields with
    | nil => rfl
    | cons f fields ih =>
        simp [List.filterMap_cons, prettyFields, lineEnd, indent, token?, fieldTokens, tokens, ih]
  rw [tokens, pretty, List.filterMap_append, filterMap_enclose, hlines]
  simp

lemma tokens_pair (a b : Document) : (tuple [a, b]).tokens level =
    .mark '(' :: a.tokens level ++ .mark ',' :: b.tokens level ++ [.mark ')'] := by
  simp [List.filterMap_cons, tokens, pretty, prettyTuple, token?]

end Document

end BehaviorTree.Ron
