import BehaviorTree.Loading
import BehaviorTree.Proofs.Numerals

/-!
# Graphs saved and read back

A graph that is saved is read back as it was, whatever its nodes are: it need not be a valid tree,
its identities and thresholds may be any integers of their types, and keys and names any texts.

For each type of value there are two facts: its document is sound, so that the text has the
document's tokens, and its reader takes the value off these tokens.  A reader takes a record by
taking its fields in the order in which they are written (`Reader.FieldsPass`).

* **`DecoratorRule.takes`**, **`GraphShape.takes`**, **`GraphNode.takes`** — rules, kinds and nodes.
* **`Graph.parse_render`** — whole graphs, if no place on the canvas is a NaN: a NaN equals nothing,
  not even what it is read back as.
-/

namespace BehaviorTree

open Ron Ron.Document Ron.Reader

variable {level : ℕ}

/-! ## Words and options -/

lemma Ron.Document.sound_option {α : Type} {doc : α → Document} {o : Option α}
    (h : ∀ a, o = some a → (doc a).Sound) : (Document.option doc o).Sound := by
  cases o with
  | none => exact sound_word (by decide)
  | some a => exact sound_wrapped (by decide) (h a rfl)

lemma Ron.Document.sound_bool (b : Bool) : (Document.bool b).Sound :=
  sound_word (by cases b <;> decide)

/-- A bare word is read as the member it stands for. -/
lemma Ron.Reader.takes_word {α : Type} {members : List α} {word : α → String} {a : α}
    (h : members.find? (fun member => word member == word a) = some a) :
    (Reader.word members word).Takes 2 ((Document.word (word a)).tokens level) a := by
  refine takes_bare ?_
  rw [h]

lemma CompositeKind.sound (kind : CompositeKind) : (Document.word kind.word).Sound :=
  sound_word (by cases kind <;> decide)

lemma CompositeKind.takes (kind : CompositeKind) :
    CompositeKind.reader.Takes 2 ((Document.word kind.word).tokens level) kind :=
  takes_word (by cases kind <;> decide)

lemma CompareOp.sound (op : CompareOp) : (Document.word op.word).Sound :=
  sound_word (by cases op <;> decide)

lemma CompareOp.takes (op : CompareOp) :
    CompareOp.reader.Takes 2 ((Document.word op.word).tokens level) op :=
  takes_word (by cases op <;> decide)

lemma NodeId.takes (id : NodeId) : NodeId.reader.Takes 0 (id.document.tokens level) id :=
  (takes_uint64 id.val).map NodeId.mk

/-- The fields with one of some names. -/
abbrev Ron.Reader.listed {α : Type} (names : List String) (field : String → α)
    (name : String) : Option α :=
  if names.contains name then some (field name) else none

/-! ## Rules -/

namespace DecoratorRule

lemma sound (rule : DecoratorRule) : rule.document.Sound := by
  cases rule with
  | invert => exact sound_word (by decide)
  | «repeat» => exact sound_word (by decide)
  | reset => exact sound_word (by decide)
  | alwaysSucceed => exact sound_word (by decide)
  | compare key op threshold once =>
      refine sound_variant (by decide) ?_
      refine fields_cons (by decide) (sound_text key) ?_
      refine fields_cons (by decide) op.sound ?_
      refine fields_cons (by decide) (sound_int _) ?_
      exact fields_cons (by decide) (sound_bool once) (List.forall_mem_nil _)
  | hasValue key absent once =>
      refine sound_variant (by decide) ?_
      refine fields_cons (by decide) (sound_text key) ?_
      refine fields_cons (by decide) (sound_bool absent) ?_
      exact fields_cons (by decide) (sound_bool once) (List.forall_mem_nil _)
  | increment key =>
      refine sound_variant (by decide) ?_
      exact fields_cons (by decide) (sound_text key) (List.forall_mem_nil _)

lemma takes_known {content : String → Reader DecoratorRule} {name : String} {rule : DecoratorRule}
    (h : content name = Reader.pure rule) :
    Takes (variant content) 5 ((Document.word name).tokens level) rule :=
  (takes_bare h).mono (by decide)

/-- **A rule is read back.** -/
theorem takes (rule : DecoratorRule) : reader.Takes 5 (rule.document.tokens level) rule := by
  cases rule with
  | invert => exact takes_known rfl
  | «repeat» => exact takes_known rfl
  | reset => exact takes_known rfl
  | alwaysSucceed => exact takes_known rfl
  | compare key op threshold once =>
      have hfields : FieldsPass (listed ["key", "op", "threshold", "evaluate_once"] field)
          (level + 1) 2 ⟨none, none, none, none, none⟩
          [("key", .text key), ("op", .word op.word), ("threshold", .int threshold.toInt),
            ("evaluate_once", .bool once)]
          ⟨some key, some op, some threshold, none, some once⟩ := by
        refine .cons rfl (((takes_text key).mono (Nat.zero_le 2)).once _) ?_
        refine .cons rfl (op.takes.once _) ?_
        refine .cons rfl (((takes_int64 threshold).mono (Nat.zero_le 2)).once _) ?_
        exact .cons rfl (((takes_bool once _).mono (Nat.zero_le 2)).once _) (.nil _)
      exact hfields.takes_variant rfl (takes_pure _)
  | hasValue key absent once =>
      have hfields : FieldsPass (listed ["key", "invert", "evaluate_once"] field)
          (level + 1) 2 ⟨none, none, none, none, none⟩
          [("key", .text key), ("invert", .bool absent), ("evaluate_once", .bool once)]
          ⟨some key, none, none, some absent, some once⟩ := by
        refine .cons rfl (((takes_text key).mono (Nat.zero_le 2)).once _) ?_
        refine .cons rfl (((takes_bool absent _).mono (Nat.zero_le 2)).once _) ?_
        exact .cons rfl (((takes_bool once _).mono (Nat.zero_le 2)).once _) (.nil _)
      exact hfields.takes_variant rfl (takes_pure _)
  | increment key =>
      have hfields : FieldsPass (listed ["key"] field) (level + 1) 2
          ⟨none, none, none, none, none⟩ [("key", .text key)] ⟨some key, none, none, none, none⟩ :=
        .cons rfl (((takes_text key).mono (Nat.zero_le 2)).once _) (.nil _)
      exact hfields.takes_variant rfl (takes_pure _)

end DecoratorRule

/-! ## Kinds -/

namespace GraphShape

lemma sound_child (child : Option NodeId) : (Document.option NodeId.document child).Sound :=
  sound_option fun _ _ => sound_int _

lemma sound (shape : GraphShape) : shape.document.Sound := by
  cases shape with
  | root child =>
      refine sound_variant (by decide) ?_
      exact fields_cons (by decide) (sound_child child) (List.forall_mem_nil _)
  | composite kind children cascade =>
      have hchildren : (Document.list (children.map NodeId.document)).Sound := by
        refine sound_list fun d hd => ?_
        obtain ⟨id, -, rfl⟩ := List.mem_map.mp hd
        exact sound_int _
      refine sound_variant (by decide) ?_
      refine fields_cons (by decide) kind.sound ?_
      refine fields_cons (by decide) hchildren ?_
      exact fields_cons (by decide) (sound_option fun b _ => sound_bool b)
        (List.forall_mem_nil _)
  | decorator rule child =>
      refine sound_variant (by decide) ?_
      refine fields_cons (by decide) rule.sound ?_
      exact fields_cons (by decide) (sound_child child) (List.forall_mem_nil _)
  | leaf name =>
      refine sound_variant (by decide) ?_
      exact fields_cons (by decide) (sound_text name) (List.forall_mem_nil _)

/-- Nothing has been read of a kind. -/
abbrev Fields.empty : Fields := ⟨none, none, none, none, none, none⟩

lemma takes_child (child : Option NodeId) :
    (Reader.option fun _ => NodeId.reader).Takes 5
      ((Document.option NodeId.document child).tokens level) child :=
  (takes_option fun id _ => id.takes).mono (by decide)

/-- **A kind is read back.** -/
theorem takes (shape : GraphShape) : reader.Takes 8 (shape.document.tokens level) shape := by
  cases shape with
  | root child =>
      have hfields : FieldsPass (listed ["child"] field) (level + 1) 5 Fields.empty
          [("child", .option NodeId.document child)] ⟨some child, none, none, none, none, none⟩ :=
        .cons rfl ((takes_child child).once _) (.nil _)
      exact hfields.takes_variant rfl (takes_pure _)
  | composite kind children cascade =>
      have hchildren : (Reader.list NodeId.reader).Takes 2
          ((Document.list (children.map NodeId.document)).tokens (level + 1)) children :=
        takes_list fun id _ => id.takes
      have hcascade : (Reader.option fun _ => Reader.bool).Takes 1
          ((Document.option Document.bool cascade).tokens (level + 1)) cascade :=
        takes_option fun b _ => takes_bool b _
      have hfields : FieldsPass (listed ["kind", "children", "cascade"] field) (level + 1) 5
          Fields.empty [("kind", .word kind.word),
            ("children", .list (children.map NodeId.document)),
            ("cascade", .option Document.bool cascade)]
          ⟨none, some kind, some children, some cascade, none, none⟩ := by
        refine .cons rfl ((kind.takes.mono (by decide)).once _) ?_
        refine .cons rfl ((hchildren.mono (by decide)).once _) ?_
        exact .cons rfl ((hcascade.mono (by decide)).once _) (.nil _)
      exact hfields.takes_variant rfl (takes_pure _)
  | decorator rule child =>
      have hfields : FieldsPass (listed ["rule", "child"] field) (level + 1) 5 Fields.empty
          [("rule", rule.document), ("child", .option NodeId.document child)]
          ⟨some child, none, none, none, some rule, none⟩ := by
        refine .cons rfl (rule.takes.once _) ?_
        exact .cons rfl ((takes_child child).once _) (.nil _)
      exact hfields.takes_variant rfl (takes_pure _)
  | leaf name =>
      have hfields : FieldsPass (listed ["name"] field) (level + 1) 5 Fields.empty
          [("name", .text name)] ⟨none, none, none, none, none, some name⟩ :=
        .cons rfl (((takes_text name).mono (Nat.zero_le 5)).once _) (.nil _)
      exact hfields.takes_variant rfl (takes_pure _)

end GraphShape

/-! ## Nodes and graphs -/

namespace GraphNode

/-- Neither coordinate of a node on the canvas is a NaN. -/
def NumericLayout (n : GraphNode) : Prop :=
  ∀ place, n.layout = some place → place.1.datum.isNaN = false ∧ place.2.datum.isNaN = false

variable {n : GraphNode}

lemma NumericLayout.same_self (h : n.NumericLayout) : n.same n = true := by
  have hdatum : ∀ d : Binary.Datum, d.isNaN = false → d.same d = true := by
    intro d hd
    rw [Binary.Datum.same.eq_def]
    split
    · cases hd
    · cases hd
    · rfl
    · exact decide_eq_true rfl
  have hlayout : sameLayout n.layout n.layout = true := by
    cases hplace : n.layout with
    | none => rfl
    | some place =>
        obtain ⟨hx, hy⟩ := h place hplace
        rw [sameLayout, Binary32.same, Binary32.same, hdatum _ hx, hdatum _ hy, Bool.and_self]
  rw [same, hlayout, beq_self_eq_true, beq_self_eq_true, Bool.and_self, Bool.and_self]

lemma sound (h : n.NumericLayout) : n.document.Sound := by
  refine sound_record (by rintro _ ⟨⟩) ?_
  refine fields_cons (by decide) (sound_int _) ?_
  refine fields_cons (by decide) n.shape.sound ?_
  refine fields_cons (by decide) (sound_option fun place hplace => ?_) (List.forall_mem_nil _)
  exact sound_pair (sound_float (h place hplace).1) (sound_float (h place hplace).2)

/-- **A node is read back.** -/
theorem takes (h : n.NumericLayout) : reader.Takes 10 (n.document.tokens level) n := by
  have hlayout :
      (Reader.option fun bare => Reader.pair bare Reader.binary32 Reader.binary32).Takes 3
        ((Document.option layoutDocument n.layout).tokens (level + 1)) n.layout :=
    takes_option fun place hplace =>
      takes_pair (takes_binary32 (h place hplace).1) (takes_binary32 (h place hplace).2)
  have hfields : FieldsPass field (level + 1) 8 ⟨none, none, none⟩
      [("id", n.id.document), ("kind", n.shape.document),
        ("layout", .option layoutDocument n.layout)] ⟨some n.id, some n.shape, some n.layout⟩ := by
    refine .cons rfl ((n.id.takes.mono (by decide)).once _) ?_
    refine .cons rfl (n.shape.takes.once _) ?_
    exact .cons rfl ((hlayout.mono (by decide)).once _) (.nil _)
  have hrecord := hfields.takes_record "NodeSpec"
  rw [← List.append_nil (n.document.tokens level)]
  refine hrecord.bind ?_
  exact (takes_pure n).mono (Nat.zero_le 10)

end GraphNode

namespace Graph

lemma parse?_render {g : Graph} (h : ∀ n ∈ g.nodes, n.NumericLayout) :
    parse? g.render = some g := by
  have hsound : g.document.Sound := by
    refine sound_record (by rintro _ ⟨⟩) (fields_cons (by decide) ?_ (List.forall_mem_nil _))
    refine sound_list fun d hd => ?_
    obtain ⟨n, hn, rfl⟩ := List.mem_map.mp hd
    exact GraphNode.sound (h n hn)
  have hnodes : (Reader.list GraphNode.reader).Takes 12
      ((Document.list (g.nodes.map (·.document))).tokens 1) g.nodes :=
    takes_list fun n hn => GraphNode.takes (h n hn)
  have htakes : reader.Takes 14 (g.document.tokens 0) g := by
    rw [← List.append_nil (g.document.tokens 0)]
    refine (FieldsPass.takes_record ?_ "GraphAsset" : Takes _ 14 _ (some g.nodes)).bind ?_
    · exact .cons rfl (hnodes.once _) (.nil _)
    · exact (takes_pure g).mono (Nat.zero_le 14)
  exact hsound.parse?_renderPretty (htakes.mono (by decide))

/-- What holds no NaN equals itself. -/
lemma same_self {nodes : List GraphNode} (h : ∀ n ∈ nodes, n.NumericLayout) :
    (Graph.mk nodes).same ⟨nodes⟩ = true := by
  induction nodes with
  | nil => rfl
  | cons n nodes ih =>
      rw [List.forall_mem_cons] at h
      have hrest := ih h.2
      rw [same, Bool.and_eq_true] at hrest ⊢
      rw [List.zip_cons_cons, List.all_cons, Bool.and_eq_true]
      exact ⟨beq_self_eq_true _, h.1.same_self, hrest.2⟩

/-- **A graph that is saved is read back as it was, if no place on the canvas is a NaN.**  It is the
same graph with the same bits in its places, and so equal to it as the program compares graphs. -/
theorem parse_render (g : Graph) (h : ∀ n ∈ g.nodes, n.NumericLayout) :
    parse g.render = .ok g ∧ g.same g = true := by
  refine ⟨?_, same_self h⟩
  rw [parse, parse?_render h]

/-- Two nodes of no valid tree, with a negative zero on the canvas and a key that has to be
escaped. -/
def awkward : Graph :=
  ⟨[⟨⟨0⟩, .root (some ⟨18446744073709551615⟩), some (⟨0x80000000⟩, ⟨0x3dcccccd⟩)⟩,
    ⟨⟨0⟩, .decorator (.compare "\"\n\\é" .less Int64.minValue true) none, none⟩]⟩

theorem parse_render_awkward : (∀ n ∈ awkward.nodes, n.NumericLayout) ∧
    parse awkward.render = .ok awkward ∧ awkward.same awkward = true := by
  have hnumeric : ∀ n ∈ awkward.nodes, n.NumericLayout := by
    refine List.forall_mem_cons.mpr ⟨?_, List.forall_mem_cons.mpr ⟨?_, List.forall_mem_nil _⟩⟩
    · rintro place ⟨⟩
      decide +kernel
    · rintro place ⟨⟩
  exact ⟨hnumeric, parse_render awkward hnumeric⟩

end Graph

end BehaviorTree
