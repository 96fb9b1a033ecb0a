import BehaviorTree.Proofs.Pieces
import BehaviorTree.Ron.Reader

/-!
# Reading back what was written

A reader takes a value off the front of some tokens, and what it leaves is whatever follows them.
`Reader.Takes` says so of the tokens of a document, so that what a reader composed of others takes
is put together from what they take.

* `Reader.Takes r depth ts a` — off the tokens `ts`, the reader takes `a`, if values may nest
  `depth` deeper.  There is a lemma on each way to compose readers.
* `Reader.Passes` — items, one after the other, each with a comma behind it.
  **`Passes.takes_items`**, and from it **`takes_list`** and **`FieldsPass.takes_fields`**.
* **`Document.Sound.parse?_renderPretty`** — a reader of the whole document reads its pretty text.

No text that is written enables an extension.
-/

namespace BehaviorTree.Ron

open Document

namespace Reader

variable {α β σ : Type}

/-- The reader takes a value off the front of these tokens, whatever follows them, if values may
nest so much deeper. -/
def Takes (r : Reader α) (depth : Nat) (ts : List Token) (a : α) : Prop :=
  ∀ s : Setting, s.extensions = .none → depth ≤ s.depth → ∀ rest, r s (ts ++ rest) = some (a, rest)

section Compose

variable {r : Reader α} {f : α → Reader β} {depth : Nat} {ts us : List Token} {a : α} {b : β}

lemma Takes.mono (h : r.Takes depth ts a) {more : Nat} (hmore : depth ≤ more) :
    r.Takes more ts a :=
  fun s hs hdepth rest => h s hs (Nat.le_trans hmore hdepth) rest

lemma takes_pure (a : α) : Takes (Pure.pure a) 0 [] a := fun _ _ _ _ => rfl

lemma Takes.bind (h : r.Takes depth ts a) (h' : (f a).Takes depth us b) :
    Takes (r >>= f) depth (ts ++ us) b := by
  intro s hs hdepth rest
  show Reader.bind r f s (ts ++ us ++ rest) = _
  rw [Reader.bind, List.append_assoc, h s hs hdepth]
  exact h' s hs hdepth rest

/-- What a reader takes can be changed before it is handed on. -/
lemma Takes.map (h : r.Takes depth ts a) (g : α → β) :
    Takes (do return g (← r)) depth ts (g a) := by
  have hbind := h.bind (f := fun a => Pure.pure (g a)) ((takes_pure (g a)).mono (Nat.zero_le depth))
  rwa [List.append_nil] at hbind

lemma Takes.deeper (h : r.Takes depth ts a) : Takes (deeper r) (depth + 1) ts a := by
  intro s hs hdepth rest
  obtain ⟨n, hn⟩ := Nat.exists_eq_add_of_lt (Nat.lt_of_succ_le hdepth)
  rw [Reader.deeper, hn]
  exact h { s with depth := depth + n } hs (Nat.le_add_right depth n) rest

end Compose

/-! ## Single tokens -/

lemma takes_expect (t : Token) : Takes (expect t) 0 [t] () := by
  intro s _ _ rest
  rw [List.singleton_append, expect]
  exact if_pos rfl

lemma takes_identifier (name : String) : Takes identifier 0 [.ident name false] name :=
  fun _ _ _ _ => rfl

lemma takes_text (s : String) : Takes text 0 [.text s] s := fun _ _ _ _ => rfl

lemma takes_bool (b : Bool) (level : Nat) : Takes bool 0 ((Document.bool b).tokens level) b := by
  cases b <;> exact fun _ _ _ _ => rfl

/-- The end of a value in parentheses, where no comma stands. -/
lemma takes_close (a : α) :
    Takes (do let _ ← comma; closeParen; return a) 0 [.mark ')'] a := fun _ _ _ _ => rfl

/-! ## Options and variants -/

lemma takes_option {content : Bool → Reader α} {doc : α → Document} {level depth : Nat}
    {o : Option α} (h : ∀ a, o = some a → (content false).Takes depth ((doc a).tokens level) a) :
    Takes (option content) (depth + 1) ((Document.option doc o).tokens level) o := by
  cases o with
  | none => exact fun _ _ _ _ => rfl
  | some a =>
      intro s hs hdepth rest
      have hinside := (h a rfl).deeper.bind (f := fun a => do
        let _ ← comma; closeParen; return some a) ((takes_close (some a)).mono (Nat.zero_le _))
      have hbare : s.extensions.unwrapVariantNewtypes = false := by rw [hs]; rfl
      rw [Document.option, tokens_wrapped]
      show Reader.bind (deeper (content s.extensions.unwrapVariantNewtypes)) _ s _ = _
      rw [hbare]
      exact hinside s hs hdepth rest

/-- A variant is its name, and what is taken for the name. -/
lemma takes_variant {content : String → Reader α} {name : String} {depth : Nat} {ts : List Token}
    {a : α} (h : (content name).Takes (depth + 1) ts a) :
    Takes (variant content) (depth + 2) (.ident name false :: ts) a :=
  (((takes_identifier name).deeper.mono (Nat.succ_le_succ (Nat.zero_le depth))).bind h).deeper

/-- A variant without content. -/
lemma takes_bare {content : String → Reader α} {name : String} {a : α}
    (h : content name = Reader.pure a) : Takes (variant content) 2 [.ident name false] a := by
  have hnothing : (content name).Takes (0 + 1) [] a := by
    rw [h]
    exact (takes_pure a).mono (Nat.zero_le 1)
  exact takes_variant hnothing

/-! ## Items with a comma behind each of them -/

/-- Items that a reader takes one after the other, each with what the items before it came to.  None
of them begins as the closing token. -/
inductive Passes (close : Token) (item : σ → Reader σ) (depth : Nat) :
    σ → List (List Token) → σ → Prop
  | nil (acc : σ) : Passes close item depth acc [] acc
  | cons {acc acc' last : σ} {t : Token} {ts : List Token} {tss : List (List Token)} :
    t ≠ close → (item acc).Takes depth (t :: ts) acc' → Passes close item depth acc' tss last →
    Passes close item depth acc ((t :: ts) :: tss) last

section Items

variable {close : Token} {item : σ → Reader σ} {depth : Nat} {acc last : σ}
  {tss : List (List Token)}

lemma Passes.itemsFrom_eq (h : Passes close item depth acc tss last) {fuel : Nat}
    (hfuel : tss.length < fuel) {s : Setting} (hs : s.extensions = .none) (hdepth : depth ≤ s.depth)
    (rest : List Token) :
    itemsFrom close item fuel acc s (tss.flatMap (· ++ [.mark ',']) ++ close :: rest) =
      some (last, close :: rest) := by
  induction h generalizing fuel with
  | nil acc =>
      obtain ⟨fuel, rfl⟩ := Nat.exists_eq_succ_of_ne_zero (Nat.ne_zero_of_lt hfuel)
      rw [itemsFrom]
      exact if_pos rfl
  | @cons acc acc' last t ts tss ht hitem _ ih =>
      obtain ⟨fuel, rfl⟩ := Nat.exists_eq_succ_of_ne_zero (Nat.ne_zero_of_lt hfuel)
      have htaken := hitem s hs hdepth
        (.mark ',' :: (tss.flatMap (· ++ [.mark ',']) ++ close :: rest))
      have hne : (t :: (ts ++ .mark ',' ::
          (tss.flatMap (· ++ [.mark ',']) ++ close :: rest))).head? ≠ some close := by
        simpa using ht
      rw [itemsFrom, List.flatMap_cons, List.append_assoc, List.append_assoc]
      simp only [List.cons_append, List.nil_append, if_neg hne] at htaken ⊢
      rw [htaken]
      exact ih (Nat.lt_of_succ_lt_succ hfuel)

/-- **Items and the closing token behind them.** -/
theorem Passes.takes_items (h : Passes close item depth acc tss last) :
    Takes (items close item acc) depth (tss.flatMap (· ++ [.mark ',']) ++ [close]) last := by
  intro s hs hdepth rest
  have hlen : ∀ uss : List (List Token),
      uss.length ≤ (uss.flatMap (· ++ [.mark ','])).length := by
    intro uss
    induction uss with
    | nil => exact Nat.le_refl 0
    | cons us uss ih =>
        rw [List.flatMap_cons, List.length_append, List.length_append, List.length_cons,
          List.length_singleton]
        omega
  have hfuel : tss.length <
      (tss.flatMap (· ++ [Token.mark ',']) ++ close :: rest).length + 1 := by
    have := hlen tss
    rw [List.length_append]
    omega
  rw [items, List.append_assoc, List.singleton_append, h.itemsFrom_eq hfuel hs hdepth rest]

end Items

/-- The marks that close something. -/
def closings : List Token := [.mark ')', .mark ']', .mark '\x7d']

/-- No document begins with a closing mark, or as an attribute does. -/
lemma exists_first (d : Document) (level : Nat) :
    ∃ t ts, d.tokens level = t :: ts ∧ t ∉ .mark '#' :: closings := by
  cases d with
  | word name => exact ⟨_, _, rfl, by simp [closings]⟩
  | number digits => exact ⟨_, _, rfl, by simp [closings]⟩
  | text s => exact ⟨_, _, rfl, by simp [closings]⟩
  | wrapped name d => exact ⟨_, _, tokens_wrapped name d, by simp [closings]⟩
  | record name fields =>
      rw [tokens_record]
      cases name with
      | none => exact ⟨_, _, rfl, by decide⟩
      | some name => exact ⟨_, _, rfl, by simp [closings]⟩
  | list ds => exact ⟨_, _, tokens_list ds, by decide⟩
  | tuple ds =>
      rw [Document.tokens, pretty]
      exact ⟨_, _, rfl, by decide⟩
  | map entries =>
      rw [Document.tokens, pretty, filterMap_enclose]
      exact ⟨_, _, rfl, by decide⟩

/-- A list of documents. -/
theorem takes_list {item : Reader α} {doc : α → Document} {level depth : Nat} {as : List α}
    (h : ∀ a ∈ as, item.Takes depth ((doc a).tokens (level + 1)) a) :
    Takes (list item) (depth + 2) ((Document.list (as.map doc)).tokens level) as := by
  have hpasses : ∀ acc, Passes (.mark ']') (fun acc => do return (← deeper item) :: acc) (depth + 1)
      acc (as.map fun a => (doc a).tokens (level + 1)) (as.reverse ++ acc) := by
    induction as with
    | nil => exact fun acc => .nil acc
    | cons a as ih =>
        rw [List.forall_mem_cons] at h
        intro acc
        obtain ⟨t, ts, heq, ht⟩ := exists_first (doc a) (level + 1)
        have hitem := h.1.deeper.map (· :: acc)
        have hrest := ih h.2 (a :: acc)
        rw [List.map_cons, List.reverse_cons, List.append_assoc, List.singleton_append, heq]
        rw [heq] at hitem
        refine .cons ?_ hitem hrest
        rintro rfl
        exact ht (List.mem_cons_of_mem _ (by decide))
  have hitems := ((hpasses []).takes_items.deeper).map List.reverse
  have hopen := ((takes_expect (.mark '[')).mono (Nat.zero_le (depth + 2))).bind
    (f := fun _ => do
      let found ← deeper <| items (.mark ']') (fun acc => do return (← deeper item) :: acc) []
      return found.reverse) hitems
  rw [List.append_nil, List.reverse_reverse] at hopen
  rw [tokens_list, list, List.flatMap_map]
  rw [List.flatMap_map] at hopen
  exact hopen

/-! ## Records -/

/-- The fields of a record, each known and read with what the fields before it came to. -/
inductive FieldsPass (known : String → Option (σ → Reader σ)) (level depth : Nat) :
    σ → List (String × Document) → σ → Prop
  | nil (acc : σ) : FieldsPass known level depth acc [] acc
  | cons {acc acc' last : σ} {name : String} {d : Document} {fields : List (String × Document)}
    {read : σ → Reader σ} :
    known name = some read → (read acc).Takes depth (d.tokens level) acc' →
    FieldsPass known level depth acc' fields last →
    FieldsPass known level depth acc ((name, d) :: fields) last

/-- **The fields of a record and its closing parenthesis.** -/
theorem FieldsPass.takes_fields {known : String → Option (σ → Reader σ)} {level depth : Nat}
    {start last : σ} {fields : List (String × Document)}
    (h : FieldsPass known level depth start fields last) :
    Takes (Reader.fields known start) (depth + 2)
      ((fields.map fun f => .ident f.1 false :: .mark ':' :: f.2.tokens level).flatMap
        (· ++ [.mark ',']) ++ [.mark ')']) last := by
  refine Takes.deeper (Passes.takes_items ?_)
  induction h with
  | nil acc => exact .nil acc
  | @cons acc acc' last name d fields read hknown hread _ ih =>
      refine .cons (by simp) ?_ ih
      have hname := (takes_identifier name).deeper.mono (Nat.succ_le_succ (Nat.zero_le depth))
      have hcolon := (takes_expect (.mark ':')).mono (Nat.zero_le (depth + 1))
      refine hname.bind (?_ : Takes _ _ (.mark ':' :: d.tokens level) _)
      refine hcolon.bind ?_
      rw [hknown]
      exact hread.deeper

lemma FieldsPass.takes_body {known : String → Option (σ → Reader σ)} {level depth : Nat}
    {start last : σ} {fields : List (String × Document)}
    (h : FieldsPass known level depth start fields last) :
    Takes (body known start) (depth + 2)
      (.mark '(' :: fields.flatMap (fieldTokens level) ++ [.mark ')']) last := by
  have hopen := ((takes_expect (.mark '(')).mono (Nat.zero_le (depth + 2))).bind
    (f := fun _ => Reader.fields known start) h.takes_fields
  rw [List.flatMap_map] at hopen
  exact hopen

/-- A record that is written without its name. -/
lemma FieldsPass.takes_record {known : String → Option (σ → Reader σ)} {level depth : Nat}
    {start last : σ} {fields : List (String × Document)}
    (h : FieldsPass known (level + 1) depth start fields last) (name : String) :
    Takes (record name known start) (depth + 2) ((Document.record none fields).tokens level)
      last := by
  intro s hs hdepth rest
  have hnamed : s.extensions.explicitStructNames = false := by rw [hs]; rfl
  have hbody := h.takes_body s hs hdepth rest
  rw [tokens_record, record.eq_def]
  simp only [namePieces, List.filterMap_nil, List.nil_append, List.cons_append, hnamed] at hbody ⊢
  exact hbody

/-- A variant with named fields. -/
lemma FieldsPass.takes_variant {known : String → Option (σ → Reader σ)} {level depth : Nat}
    {start last : σ} {fields : List (String × Document)} {content : String → Reader α}
    {name : String} {f : σ → Reader α} {a : α}
    (h : FieldsPass known (level + 1) depth start fields last)
    (hcontent : content name = body known start >>= f) (hf : (f last).Takes 0 [] a) :
    Takes (variant content) (depth + 3) ((Document.record (some name) fields).tokens level) a := by
  have hbody := h.takes_body.bind (hf.mono (Nat.zero_le (depth + 2)))
  rw [← hcontent, List.append_nil] at hbody
  rw [tokens_record]
  exact Reader.takes_variant hbody

/-- Reads a field that has not been read before. -/
lemma Takes.once {r : Reader α} {depth : Nat} {ts : List Token} {a : α} (h : r.Takes depth ts a)
    (put : α → σ) : Takes (once none r put) depth ts (put a) := h.map put

/-! ## Pairs -/

lemma takes_pair {first : Reader α} {second : Reader β} {depth level : Nat} {da db : Document}
    {a : α} {b : β} (ha : first.Takes depth (da.tokens level) a)
    (hb : second.Takes depth (db.tokens level) b) :
    Takes (pair false first second) (depth + 2) ((Document.tuple [da, db]).tokens level)
      (a, b) := by
  intro s hs hdepth rest
  obtain ⟨n, hn⟩ := Nat.exists_eq_add_of_le' hdepth
  obtain ⟨e, d⟩ := s
  obtain rfl : d = n + depth + 2 := hn
  have hfirst := ha.deeper ⟨e, n + depth + 1⟩ hs (by simp) (.mark ',' :: (db.tokens level ++
    .mark ')' :: rest))
  have hsecond := hb.deeper ⟨e, n + depth + 1⟩ hs (by simp) (.mark ')' :: rest)
  -- the comma behind the second component is left out, which the parenthesis shows
  have hinside : (do
      let a ← deeper first
      expect (.mark ',')
      let b ← deeper second
      let _ ← comma
      Pure.pure (a, b) : Reader (α × β)) ⟨e, n + depth + 1⟩ (da.tokens level ++ .mark ',' ::
        (db.tokens level ++ .mark ')' :: rest)) = some ((a, b), .mark ')' :: rest) := by
    show Reader.bind (deeper first) _ _ _ = _
    rw [Reader.bind, hfirst]
    show Reader.bind (deeper second) _ _ _ = _
    rw [Reader.bind, hsecond]
    rfl
  rw [tokens_pair]
  simp only [List.append_assoc, List.cons_append, List.nil_append]
  show Reader.bind (deeper _) _ ⟨e, n + depth + 2⟩ _ = _
  rw [Reader.bind, show deeper _ ⟨e, n + depth + 2⟩ _ = _ from hinside]
  rfl

end Reader

/-! ## Whole texts -/

/-- **The pretty text of a sound document is read by a reader of the document.** -/
theorem Document.Sound.parse?_renderPretty {α : Type} {r : Reader α} {d : Document} {a : α}
    (hsound : d.Sound) (h : r.Takes maxDepth (d.tokens 0) a) :
    parse? r d.renderPretty = some a := by
  have hread := h ⟨.none, maxDepth⟩ rfl (Nat.le_refl _) []
  rw [List.append_nil] at hread
  have hattributes : attributes? ((d.tokens 0).length + 1) .none (d.tokens 0) =
      some (.none, d.tokens 0) := by
    obtain ⟨t, ts, heq, ht⟩ := Reader.exists_first d 0
    have hhash : t ≠ .mark '#' := fun h => ht (h ▸ List.mem_cons_self)
    rw [heq, attributes?.eq_def]
    dsimp only
    split
    · simp_all
    · simp_all
    · rfl
  have hlookahead :
      ¬ (Extensions.none.unwrapVariantNewtypes && !Lookahead.succeeds d.renderPretty) = true :=
    fun h => nomatch h
  rw [parse?, hsound.tokens?_renderPretty]
  simp only [hattributes]
  rw [if_neg hlookahead, hread]

end BehaviorTree.Ron
