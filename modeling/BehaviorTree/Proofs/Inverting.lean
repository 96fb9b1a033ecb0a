import BehaviorTree.Proofs.Duality

/-!
# Inverting twice

A node that inverts passes its child on with the opposite result, so two of them on top of each
other pass it on as it is.  The two have activations of their own, which go on, are given up and are
cleared together with those around them; neither what is below them nor what is around them can
tell.

* `Branch.Reinverted` — a subtree, and the same subtree below two added nodes that invert.
* **`interchange_reinverted`** — the two may stand for each other wherever they are.
* `Tree.runtimesBut` — what execution has made of the nodes of a tree, those that have been added
  left out.
* **`Fresh.reinverts`** — so adding two such nodes in any places changes no run, and no other node.
-/

namespace BehaviorTree

open Branch

variable {L δ : Type}

/-! ## Added nodes -/

/-- The nodes are related, and the second one has not been added. -/
structure Node.Kept (added : List NodeId) (R : Node L → Node L → Prop) (n n' : Node L) : Prop where
  related : R n n'
  kept : n'.id ∉ added

/-- The second tree is the first one below two added nodes that invert. -/
inductive Branch.Reinverted (added : List NodeId) (R : Node L → Node L → Prop) :
    Branch (Node L) → Branch (Node L) → Prop
  | mk {v w : Node L} {t u : Branch (Node L)} : v.Inverts → w.Inverts → v.id ∈ added →
    w.id ∈ added → t.Alike R u → Reinverted added R t (.node v [.node w [u]])

/-- Everything that execution changes about a node: its state, and the kind with the cursor, the
cached gate and the private fields of a leaf. -/
def Node.runtime (n : Node L) : NodeKind L × NodeState := (n.kind, n.state)

/-- What execution has made of the nodes in order, where those that have been added are left
out. -/
def Branch.runtimesBut (added : List NodeId) (t : Branch (Node L)) :
    List (NodeKind L × NodeState) :=
  (t.labels.filter fun n => n.id ∉ added).map Node.runtime

def Branch.runtimesButAll (added : List NodeId) (ts : List (Branch (Node L))) :
    List (NodeKind L × NodeState) :=
  ((labelsAll ts).filter fun n => n.id ∉ added).map Node.runtime

section Added

variable {added : List NodeId} {n n' : Node L} {t t' : Branch (Node L)}
  {ts ts' : List (Branch (Node L))} {R : Node L → Node L → Prop}

lemma Node.naming_kept (added : List NodeId) :
    Node.Naming (Node.Kept (L := L) added Node.Renamed) where
  renamed h := h.related
  keeps h _ hid hrenamed := ⟨hrenamed, hid ▸ h.kept⟩

lemma Branch.runtimesBut_kept (h : n.id ∉ added) (ts : List (Branch (Node L))) :
    (node n ts).runtimesBut added = n.runtime :: runtimesButAll added ts := by
  rw [runtimesBut, labels, List.filter_cons_of_pos (by simpa using h)]
  rfl

lemma Branch.runtimesBut_added (h : n.id ∈ added) (ts : List (Branch (Node L))) :
    (node n ts).runtimesBut added = runtimesButAll added ts := by
  rw [runtimesBut, labels, List.filter_cons_of_neg (by simpa using h)]
  rfl

lemma Branch.runtimesButAll_cons (t : Branch (Node L)) (ts : List (Branch (Node L))) :
    runtimesButAll added (t :: ts) = t.runtimesBut added ++ runtimesButAll added ts := by
  rw [runtimesButAll, labelsAll, List.filter_append, List.map_append]
  rfl

lemma Branch.runtimesButAll_eq
    (h : List.Forall₂ (fun t t' => t'.runtimesBut added = t.runtimesBut []) ts ts') :
    runtimesButAll added ts' = runtimesButAll [] ts := by
  induction h with
  | nil => rfl
  | cons ht _ ih => rw [runtimesButAll_cons, runtimesButAll_cons, ht, ih]

/-- The nodes of exchanged trees have been through the same, if those of the exchanged subtrees
have. -/
lemma Branch.Exchanged.runtimesBut {P : Branch (Node L) → Branch (Node L) → Prop}
    (hP : ∀ {t t'}, P t t' → t'.runtimesBut added = t.runtimesBut [])
    (h : t.Exchanged (Node.Kept added Node.Renamed) P t') :
    t'.runtimesBut added = t.runtimesBut [] := by
  induction t generalizing t' with
  | node n ts ih =>
      cases h with
      | here h => exact hP h
      | @node _ n' _ ts' hn hts =>
          have hsame : n'.runtime = n.runtime :=
            congrArg₂ Prod.mk hn.related.kind hn.related.state
          have hbelow := forall₂_exchanged_imp hts fun t ht t' h => ih t ht h
          rw [runtimesBut_kept hn.kept, runtimesBut_kept List.not_mem_nil, hsame,
            runtimesButAll_eq hbelow]

/-- More may be asked of related nodes where something is known of all of them. -/
lemma Branch.Reinverted.imp {R' : Node L → Node L → Prop} {F : Node L → Prop}
    (hR : ∀ {n n'}, F n → F n' → R n n' → R' n n') (h : t.Reinverted added R t')
    (ht : ∀ n ∈ t.labels, F n) (ht' : ∀ n ∈ t'.labels, F n) : t.Reinverted added R' t' := by
  obtain ⟨hv, hw, hadded, hadded', halike⟩ := h
  obtain ⟨-, houter⟩ := List.forall_mem_cons.mp ht'
  obtain ⟨-, hinner⟩ := List.forall_mem_cons.mp (List.forall_mem_append.mp houter).1
  exact .mk hv hw hadded hadded'
    (halike.imp hR (fun _ _ h => h) ht (List.forall_mem_append.mp hinner).1)

/-- Changing all nodes keeps trees reinverted if it keeps nodes related and in place. -/
lemma Branch.Reinverted.map {f : Node L → Node L} (hinverts : ∀ {v}, v.Inverts → (f v).Inverts)
    (hid : ∀ n, (f n).id = n.id) (hR : ∀ {n n'}, R n n' → R (f n) (f n'))
    (h : t.Reinverted added R t') : (t.map f).Reinverted added R (t'.map f) := by
  obtain @⟨v, w, t, u, hv, hw, hadded, hadded', halike⟩ := h
  rw [map_node, List.map_singleton, map_node, List.map_singleton]
  exact .mk (hinverts hv) (hinverts hw) (hid v ▸ hadded) (hid w ▸ hadded')
    (halike.map hR fun h => h)

lemma Branch.Reinverted.runtimesBut
    (h : t.Reinverted added (Node.Kept added Node.Renamed) t') :
    t'.runtimesBut added = t.runtimesBut [] := by
  obtain ⟨-, -, hadded, hadded', halike⟩ := h
  rw [runtimesBut_added hadded, runtimesButAll_cons, runtimesBut_added hadded',
    runtimesButAll_cons, halike.runtimesBut fun h => h.elim]
  exact (List.append_nil _).trans (List.append_nil _)

lemma Branch.Reinverted.leafFields (h : t.Reinverted added (Node.Kept added Node.Renamed) t') :
    t'.leafFields = t.leafFields := by
  obtain ⟨hv, hw, -, -, halike⟩ := h
  rw [leafFields_node, hv.leafField?, leafFieldsAll_cons, leafFields_node, hw.leafField?,
    leafFieldsAll_cons, halike.leafFields (fun h => h.related.toAlias) fun h => h.elim]
  exact (List.append_nil _).trans (List.append_nil _)

end Added

/-! ## Polling reinverted trees -/

section Reinverted

variable [Behavior L δ] {added : List NodeId} {t t' : Branch (Node L)}

lemma Outcome.invert_invert {τ : Type} (o : Outcome τ δ) :
    (o.mapStatus Status.invert).mapStatus Status.invert = o := by
  obtain ⟨status, part, scene, trace⟩ := o
  rw [mapStatus, mapStatus]
  simp only [Status.invert_invert]

/-- **Polls of reinverted trees** come to the same, and leave reinverted trees behind. -/
lemma Branch.Reinverted.poll (h : t.Reinverted added (Node.Kept added Node.Renamed) t')
    (scene : Scene δ) :
    (t.poll scene).Matches (Reinverted added (Node.Kept added Node.Renamed)) (t'.poll scene) := by
  obtain @⟨v, w, t, u, hv, hw, hadded, hadded', halike⟩ := h
  have hbelow := (Node.naming_kept added).interchange.poll halike scene
  have hinner := hw.poll u scene
  have houter := hv.poll (node w [u]) scene
  have honce := (hbelow.mapStatus Status.invert).trans (Q := fun _ _ => True) hinner
    fun _ _ _ _ _ => trivial
  have htwice := (honce.mapStatus Status.invert).trans (Q := fun _ _ => True) houter
    fun _ _ _ _ _ => trivial
  rw [Outcome.invert_invert] at htwice
  refine ⟨htwice.status, htwice.scene, htwice.calls, ?_⟩
  -- the added nodes keep their identities
  obtain ⟨w', hw', hpart⟩ := hinner.part
  obtain ⟨v', hv', hpart'⟩ := houter.part
  have hid := id_label_poll (node w [u]) scene
  have hid' := id_label_poll (node v [node w [u]]) scene
  rw [hpart, label_node, label_node] at hid
  rw [hpart', label_node, label_node] at hid'
  rw [hpart', Outcome.mapStatus, hpart]
  exact .mk hv' hw' (hid' ▸ hadded) (hid ▸ hadded') hbelow.part

/-- **A subtree and the same subtree inverted twice** may stand for each other. -/
theorem interchange_reinverted (added : List NodeId) :
    Interchange (δ := δ) (Reinverted (L := L) added (Node.Kept added Node.Renamed)) where
  poll h scene := h.poll scene
  clear h := h.map (fun hv => hv) (fun _ => rfl)
    fun hn => (Node.naming_kept added).keeps hn rfl rfl hn.related.clear
  rearm h := h.map Node.Inverts.rearm (fun _ => rfl)
    fun hn => (Node.naming_kept added).keeps hn rfl rfl hn.related.rearm
  leaves h := h.leafFields

end Reinverted

/-! ## Runs of reinverted trees -/

namespace Tree

/-- What execution has made of the nodes of the tree in order, where those that have been added are
left out. -/
def runtimesBut (t : Tree L) (added : List NodeId) : List (NodeKind L × NodeState) :=
  (t.arena.filter fun slot => slot.label.id ∉ added).map fun slot => slot.label.runtime

lemma Shows.runtimesBut {t : Tree L} {b : Branch (Node L)} (h : t.Shows b) (added : List NodeId) :
    t.runtimesBut added = b.runtimesBut added := by
  rw [Branch.runtimesBut, ← h.map_label, List.filter_map, List.map_map]
  rfl

variable [Behavior L δ] {t t' : Tree L} {b b' : Branch (Node L)}

/-- **Inverting twice is doing nothing.**  The two trees are the same, except that in any places the
second one has two added nodes that invert on top of a subtree of the first one; the engine may have
numbered other nodes than leaves differently.  Then every run of the second one is like the run of
the first one: call by call, the same results, the same contexts of the driver and the same hooks in
the same order, and after any calls the same blackboard and the same leaves.  And every node that
has not been added is as execution has left it in the first one. -/
theorem Fresh.reinverts (h : t.Fresh) (h' : t'.Fresh) (hb : t.branch? = some b)
    (hb' : t'.branch? = some b') (added : List NodeId)
    (hadded : b.Exchanged (Node.Kept added Node.Alias)
      (Reinverted added (Node.Kept added Node.Alias)) b') (calls : List (Call δ)) :
    t.RunsAlike t' calls ∧
      (t'.performAll calls).1.runtimesBut added = (t.performAll calls).1.runtimesBut [] := by
  have hkept : ∀ {n n' : Node L}, n.state = .fresh → n'.state = .fresh →
      Node.Kept added Node.Alias n n' → Node.Kept added Node.Renamed n n' :=
    fun hn hn' h => ⟨h.related.renamed hn hn', h.kept⟩
  have hP := (Node.naming_kept added).exchanged (interchange_reinverted (L := L) (δ := δ) added)
  have hstands := h.standsFor h' hb hb' fun hfresh hfresh' =>
    hadded.imp hkept (fun ht ht' h => h.imp hkept ht ht') hfresh hfresh'
  refine ⟨hstands.runsAlike hP calls, ?_⟩
  obtain ⟨d, d', hd, hd', hshown⟩ := (hstands.performAll hP calls).shown
  rw [hd.runtimesBut, hd'.runtimesBut, hshown.runtimesBut fun h => h.runtimesBut]

/-- A selector that pauses between its two leaves, inverted twice, in front of a leaf that fails and
below a reset: the added nodes are resumed, end with the selector and are cleared with it. -/
theorem reinverts_below_reset :
    let b : Branch (Node Constant) := .node (.fresh ⟨0⟩ .root)
      [.node (.fresh ⟨1⟩ (.decorator .reset false))
        [.node (.fresh ⟨2⟩ (.composite .sequence false 0))
          [.node (.fresh ⟨3⟩ (.composite .selector false 0))
            [.node (.fresh ⟨10⟩ (.leaf .fail)) [], .node (.fresh ⟨11⟩ (.leaf .succeed)) []],
          .node (.fresh ⟨12⟩ (.leaf .fail)) []]]]
    let b' : Branch (Node Constant) := .node (.fresh ⟨0⟩ .root)
      [.node (.fresh ⟨1⟩ (.decorator .reset false))
        [.node (.fresh ⟨2⟩ (.composite .sequence false 0))
          [.node (.fresh ⟨3⟩ (.decorator .invert false))
            [.node (.fresh ⟨4⟩ (.decorator .invert false))
              [.node (.fresh ⟨5⟩ (.composite .selector false 0))
                [.node (.fresh ⟨10⟩ (.leaf .fail)) [], .node (.fresh ⟨11⟩ (.leaf .succeed)) []]]],
          .node (.fresh ⟨12⟩ (.leaf .fail)) []]]]
    let added : List NodeId := [⟨3⟩, ⟨4⟩]
    let calls : List (Call Unit) :=
      [.start, .update (), .update (), .update (), .rearm, .update ()]
    Tree.build .standard (some (.decorate .reset (.composite none .sequence (some false)
        [.composite none .selector (some false)
          [.leaf (some ⟨10⟩) Constant.fail, .leaf (some ⟨11⟩) .succeed],
        .leaf (some ⟨12⟩) .fail]))) = .ok (ofBranch b) ∧
      Tree.build .standard (some (.decorate .reset (.composite none .sequence (some false)
        [.decorate .invert (.decorate .invert (.composite none .selector (some false)
          [.leaf (some ⟨10⟩) Constant.fail, .leaf (some ⟨11⟩) .succeed])),
        .leaf (some ⟨12⟩) .fail]))) = .ok (ofBranch b') ∧
      b.Exchanged (Node.Kept added Node.Alias)
        (Reinverted added (Node.Kept added Node.Alias)) b' ∧
      ((ofBranch b).replies calls).map Reply.audible = [.done,
        .updated .running () [.hook ⟨10⟩ (.start true), .hook ⟨10⟩ (.update .failure),
          .hook ⟨10⟩ .stop],
        .updated .running () [.hook ⟨11⟩ (.start true), .hook ⟨11⟩ (.update .success),
          .hook ⟨11⟩ .stop],
        .updated .failure () [.hook ⟨12⟩ (.start true), .hook ⟨12⟩ (.update .failure),
          .hook ⟨12⟩ .stop],
        .done,
        .updated .running () [.hook ⟨10⟩ (.start false), .hook ⟨10⟩ (.update .failure),
          .hook ⟨10⟩ .stop]] ∧
      (((ofBranch b).performAll calls).1.runtimesBut []).map (fun r => (r.1.cursor?, r.2)) =
        [(none, ⟨.running, true, 2⟩), (none, ⟨.running, true, 2⟩),
        (some 0, ⟨.running, true, 2⟩), (some 1, ⟨.running, true, 2⟩),
        (none, ⟨.failure, false, 2⟩), (none, ⟨.running, false, 1⟩),
        (none, ⟨.running, false, 1⟩)] ∧
      (ofBranch b).RunsAlike (ofBranch b') calls ∧
      ((ofBranch b').performAll calls).1.runtimesBut added =
        ((ofBranch b).performAll calls).1.runtimesBut [] := by
  intro b b' added calls
  have hbuild : Tree.build .standard (some (.decorate .reset
      (.composite none .sequence (some false)
        [.composite none .selector (some false)
          [.leaf (some ⟨10⟩) Constant.fail, .leaf (some ⟨11⟩) .succeed],
        .leaf (some ⟨12⟩) .fail]))) = .ok (ofBranch b) := rfl
  have hbuild' : Tree.build .standard (some (.decorate .reset
      (.composite none .sequence (some false)
        [.decorate .invert (.decorate .invert (.composite none .selector (some false)
          [.leaf (some ⟨10⟩) Constant.fail, .leaf (some ⟨11⟩) .succeed])),
        .leaf (some ⟨12⟩) .fail]))) = .ok (ofBranch b') := rfl
  have hsame : ∀ (id id' : NodeId) (k : NodeKind Constant), k.leaf? = none → id' ∉ added →
      Node.Kept added Node.Alias (.fresh id k) (.fresh id' k) := fun _ _ _ hleaf hkept =>
    ⟨Node.alias_fresh _ _ hleaf, hkept⟩
  have hleaf : ∀ (id : NodeId) (l : Constant)
      {P : Branch (Node Constant) → Branch (Node Constant) → Prop}, id ∉ added →
      Exchanged (Node.Kept added Node.Alias) P (.node (.fresh id (.leaf l)) [])
        (.node (.fresh id (.leaf l)) []) := fun _ _ _ hkept =>
    .node ⟨⟨rfl, fun _ => rfl⟩, hkept⟩ .nil
  have hadded : b.Exchanged (Node.Kept added Node.Alias)
      (Reinverted added (Node.Kept added Node.Alias)) b' := by
    refine .node (hsame _ _ _ rfl (by decide)) (.cons (.node (hsame _ _ _ rfl (by decide))
      (.cons (.node (hsame _ _ _ rfl (by decide)) (.cons (.here ?_)
        (.cons (hleaf _ _ (by decide)) .nil))) .nil)) .nil)
    refine .mk ⟨false, rfl⟩ ⟨false, rfl⟩ (by decide) (by decide) ?_
    exact .node (hsame _ _ _ rfl (by decide))
      (.cons (hleaf _ _ (by decide)) (.cons (hleaf _ _ (by decide)) .nil))
  exact ⟨hbuild, hbuild', hadded, by decide +kernel, by decide +kernel,
    (Fresh.built .standard _ hbuild).reinverts (.built .standard _ hbuild') (branch?_ofBranch b)
      (branch?_ofBranch b') added hadded calls⟩

end Tree

end BehaviorTree
