import BehaviorTree.Proofs.Exchanging

/-!
# Composites and their duals

Inverting the results of its children turns a sequence into a selector that is inverted itself, and
the other way round: the one goes on where the other does, at the same child and in the same update,
and their results are opposite.

* `Branch.Mirrored` — an inverted composite, and the dual composite of the inverted children.
  `Node.Abreast`: the cursors agree while an activation is under way.
* **`interchange_mirrored`** — the two may stand for each other wherever they are.
* **`Fresh.mirrors`** — so trees that have them at the same places run alike.
-/

namespace BehaviorTree

open Branch

variable {L δ : Type}

/-! ## Dual composites -/

namespace CompositeKind

/-- The kind that goes on where this one stops. -/
def dual : CompositeKind → CompositeKind
  | sequence => selector
  | selector => sequence

/-- Inverting results turns what moves a composite on into what moves its dual on. -/
lemma invert_eq_advancesOn_dual (kind : CompositeKind) (status : Status) :
    status.invert = kind.dual.advancesOn ↔ status = kind.advancesOn := by
  cases kind <;> cases status <;> decide

end CompositeKind

/-- The node exchanges the results of its child. -/
def Node.Inverts (n : Node L) : Prop := ∃ gate, n.kind = .decorator .invert gate

/-- The nodes are composites of dual kinds that cascade alike. -/
def Node.Dual (n n' : Node L) : Prop :=
  ∃ kind cascade cursor cursor', n.kind = .composite kind cascade cursor ∧
    n'.kind = .composite kind.dual cascade cursor'

/-- Besides, an activation is under way of both or of neither, and if one is, the cursors agree. -/
def Node.Abreast (n n' : Node L) : Prop :=
  ∃ kind cascade cursor cursor', n.kind = .composite kind cascade cursor ∧
    n'.kind = .composite kind.dual cascade cursor' ∧ n'.state.started = n.state.started ∧
    (n.state.started = true → cursor' = cursor)

/-- The second tree inverts the first one, up to a relation of its nodes. -/
def Branch.Inverted (R : Node L → Node L → Prop) (t t' : Branch (Node L)) : Prop :=
  ∃ v u, v.Inverts ∧ t' = node v [u] ∧ t.Alike R u

/-- The first tree is an inverted composite, and the second one is a composite of the inverted
children. -/
inductive Branch.Mirrored (R Q : Node L → Node L → Prop) :
    Branch (Node L) → Branch (Node L) → Prop
  | mk {v n n' : Node L} {ts ts' : List (Branch (Node L))} : v.Inverts → Q n n' →
    List.Forall₂ (Inverted R) ts ts' → Mirrored R Q (.node v [.node n ts]) (.node n' ts')

/-! ## Inverting -/

section Inverts

variable [Behavior L δ] {v : Node L}

/-- A node that inverts passes the poll of its child on, with the opposite result. -/
lemma Node.Inverts.poll (hv : v.Inverts) (t : Branch (Node L)) (scene : Scene δ) :
    ((t.poll scene).mapStatus Status.invert).Matches
      (fun u b => ∃ v', v'.Inverts ∧ b = node v' [u]) ((node v [t]).poll scene) := by
  obtain ⟨id, kind, state⟩ := v
  obtain ⟨gate, rfl⟩ : ∃ gate, kind = .decorator .invert gate := hv
  obtain ⟨state', begun, hbegin⟩ : ∃ state' begun,
      (⟨id, .decorator .invert gate, state⟩ : Node L).begin scene =
        (⟨id, .decorator .invert gate, state'⟩, scene, begun) := by
    rw [Node.begin]
    split <;> exact ⟨_, _, rfl⟩
  have ho := poll_matches_run (n := ⟨id, .decorator .invert gate, state⟩) rfl (fun _ => rfl) [t]
    scene
  rw [hbegin, runBelow, Node.run_admitted rfl rfl] at ho
  obtain ⟨hstatus, hscene, hcalls, state'', -, hpart⟩ := ho
  exact ⟨hstatus, hscene, hcalls, ⟨id, .decorator .invert gate, state''⟩, ⟨gate, rfl⟩, hpart⟩

lemma Node.Inverts.rearm (hv : v.Inverts) : v.rearm.Inverts := by
  obtain ⟨gate, hkind⟩ := hv
  exact ⟨false, by rw [Node.rearm, hkind]; rfl⟩

lemma Node.Inverts.leafField? (hv : v.Inverts) : v.leafField? = none := by
  obtain ⟨gate, hkind⟩ := hv
  rw [Node.leafField?, hkind]
  rfl

end Inverts

section Inverted

variable [Behavior L δ] {t t' : Branch (Node L)}

/-- Polls of a tree and of an inverted one come to opposite results. -/
lemma Branch.Inverted.inStep (h : t.Inverted Node.Renamed t') :
    InStep (δ := δ) Status.invert (Inverted Node.Renamed) t t' := by
  refine ⟨h, fun scene => ?_⟩
  obtain ⟨v, u, hv, rfl, halike⟩ := h
  refine ((interchange_renamed.poll halike scene).mapStatus Status.invert).trans
    (hv.poll u scene) ?_
  rintro t u _ halike ⟨v', hv', rfl⟩
  exact ⟨v', u, hv', rfl, halike⟩

/-- Changing all nodes keeps a tree inverted if it keeps nodes related. -/
lemma Branch.Inverted.map {R : Node L → Node L → Prop} {f : Node L → Node L}
    (hinverts : ∀ {v}, v.Inverts → (f v).Inverts) (hR : ∀ {n n'}, R n n' → R (f n) (f n'))
    (h : t.Inverted R t') : (t.map f).Inverted R (t'.map f) := by
  obtain ⟨v, u, hv, rfl, halike⟩ := h
  exact ⟨f v, u.map f, hinverts hv, map_node _ _ _, halike.map hR fun h => h⟩

lemma Branch.Inverted.leafFields (h : t.Inverted Node.Renamed t') :
    t'.leafFields = t.leafFields := by
  obtain ⟨v, u, hv, rfl, halike⟩ := h
  have hfields := halike.leafFields (fun h => h.toAlias) fun h => h.elim
  rw [leafFields_node, hv.leafField?, leafFieldsAll_cons, hfields]
  exact List.append_nil _

end Inverted

/-! ## Mirrored trees -/

section Mirrored

variable [Behavior L δ]

/-- **Polls of mirrored trees** come to the same, and leave mirrored trees behind. -/
lemma Branch.Mirrored.poll {t t' : Branch (Node L)} (h : t.Mirrored Node.Renamed Node.Abreast t')
    (scene : Scene δ) :
    (t.poll scene).Matches (Mirrored Node.Renamed Node.Abreast) (t'.poll scene) := by
  obtain @⟨v, n, n', ts, ts', hv, habreast, hts⟩ := h
  obtain ⟨id, k, state⟩ := n
  obtain ⟨id', k', state'⟩ := n'
  obtain ⟨kind, cascade, cursor, cursor', hk, hk', hstarted, hcursor⟩ := habreast
  simp only at hk hk' hstarted hcursor
  subst hk hk'
  -- the children are polled from the same one on
  have hskip : (if state'.started then cursor' else 0) = if state.started then cursor else 0 := by
    rw [hstarted]
    split
    · next h => exact hcursor h
    · rfl
  have houter := hv.poll (node ⟨id, .composite kind cascade cursor, state⟩ ts) scene
  have hinner := poll_matches_composite id kind cascade cursor state ts scene
  have hmirror := poll_matches_composite id' kind.dual cascade cursor' state' ts' scene
  rw [hskip] at hmirror
  have hchildren := pollFrom_inStep kind.invert_eq_advancesOn_dual rfl
    (hts.imp fun _ _ h => h.inStep (δ := δ)) id id' cascade (if state.started then cursor else 0)
    scene
  have hopposite := hmirror.status.trans (hchildren.status.trans
    (congrArg Status.invert hinner.status.symm))
  refine ⟨hopposite.trans houter.status.symm, ?_, ?_, ?_⟩
  · rw [houter.scene, hmirror.scene, hchildren.scene]
    exact hinner.scene.symm
  · rw [houter.calls, hmirror.calls, hchildren.calls]
    exact hinner.calls.symm
  · obtain ⟨v', hv', hpart⟩ := houter.part
    obtain ⟨s, hs, hnow⟩ := hinner.part
    obtain ⟨s', hs', hnow'⟩ := hmirror.part
    rw [hpart, hnow', Outcome.mapStatus, hnow]
    refine .mk hv' ⟨kind, cascade, _, _, rfl, rfl, ?_, fun _ => ?_⟩ hchildren.part.2
    · rw [hs', hs]
      exact (congrArg Status.isRunning hopposite).trans (Status.isRunning_invert _)
    · rw [hchildren.part.1]
      rfl

/-- Changing all nodes keeps trees mirrored if it keeps the composites related. -/
lemma Branch.Mirrored.map {R Q : Node L → Node L → Prop} {f : Node L → Node L}
    {t t' : Branch (Node L)} (hinverts : ∀ {v}, v.Inverts → (f v).Inverts)
    (hQ : ∀ {n n'}, Q n n' → Q (f n) (f n')) (hR : ∀ {n n'}, R n n' → R (f n) (f n'))
    (h : t.Mirrored R Q t') : (t.map f).Mirrored R Q (t'.map f) := by
  obtain ⟨hv, hn, hts⟩ := h
  rw [map_node, map_node, List.map_singleton, map_node]
  refine .mk (hinverts hv) (hQ hn) ?_
  rw [List.forall₂_map_left_iff, List.forall₂_map_right_iff]
  exact hts.imp fun _ _ h => h.map hinverts hR

lemma Node.Abreast.clear {n n' : Node L} (h : n.Abreast n') : n.clear.Abreast n'.clear := by
  obtain ⟨kind, cascade, cursor, cursor', hk, hk', -⟩ := h
  exact ⟨kind, cascade, cursor, cursor', hk, hk', rfl, fun h => by cases h⟩

lemma Node.Abreast.rearm {n n' : Node L} (h : n.Abreast n') : n.rearm.Abreast n'.rearm := by
  obtain ⟨kind, cascade, cursor, cursor', hk, hk', -⟩ := h
  exact ⟨kind, cascade, 0, 0, congrArg NodeKind.rewind hk, congrArg NodeKind.rewind hk', rfl,
    fun _ => rfl⟩

lemma Branch.Mirrored.leafFields {t t' : Branch (Node L)}
    (h : t.Mirrored Node.Renamed Node.Abreast t') : t'.leafFields = t.leafFields := by
  obtain @⟨v, n, n', ts, ts', hv, ⟨kind, cascade, cursor, cursor', hk, hk', -⟩, hts⟩ := h
  have hn : n.leafField? = none := by
    rw [Node.leafField?, hk]
    rfl
  have hn' : n'.leafField? = none := by
    rw [Node.leafField?, hk']
    rfl
  have hbelow := leafFieldsAll_eq (hts.imp fun _ _ h => h.leafFields)
  rw [leafFields_node, leafFields_node, leafFieldsAll_cons, leafFields_node, hv.leafField?, hn, hn',
    hbelow]
  exact (List.append_nil _).symm

/-- **An inverted composite and the dual composite of its inverted children** may stand for each
other. -/
theorem interchange_mirrored :
    Interchange (δ := δ) (Mirrored (L := L) Node.Renamed Node.Abreast) where
  poll h scene := h.poll scene
  clear h := h.map (fun hv => hv) Node.Abreast.clear Node.Renamed.clear
  rearm h := h.map Node.Inverts.rearm Node.Abreast.rearm Node.Renamed.rearm
  leaves h := h.leafFields

end Mirrored

/-! ## Runs of mirrored trees -/

section Untouched

variable {R R' Q Q' : Node L → Node L → Prop} {F : Node L → Prop} {t t' : Branch (Node L)}

lemma Branch.Inverted.imp (hR : ∀ {n n'}, F n → F n' → R n n' → R' n n') (h : t.Inverted R t')
    (ht : ∀ n ∈ t.labels, F n) (ht' : ∀ n ∈ t'.labels, F n) : t.Inverted R' t' := by
  obtain ⟨v, u, hv, rfl, halike⟩ := h
  obtain ⟨-, hbelow⟩ := List.forall_mem_cons.mp ht'
  exact ⟨v, u, hv, rfl, halike.imp hR (fun _ _ h => h) ht (List.forall_mem_append.mp hbelow).1⟩

/-- More may be asked of related nodes where something is known of all of them. -/
lemma Branch.Mirrored.imp (hR : ∀ {n n'}, F n → F n' → R n n' → R' n n')
    (hQ : ∀ {n n'}, F n → F n' → Q n n' → Q' n n') (h : t.Mirrored R Q t')
    (ht : ∀ n ∈ t.labels, F n) (ht' : ∀ n ∈ t'.labels, F n) : t.Mirrored R' Q' t' := by
  obtain ⟨hv, hn, hts⟩ := h
  obtain ⟨-, hinner⟩ := List.forall_mem_cons.mp ht
  obtain ⟨hself, hbelow⟩ := List.forall_mem_cons.mp (List.forall_mem_append.mp hinner).1
  obtain ⟨hself', hbelow'⟩ := List.forall_mem_cons.mp ht'
  refine .mk hv (hQ hself hself' hn) ?_
  clear hinner ht ht'
  induction hts with
  | nil => exact .nil
  | cons h _ ih =>
      obtain ⟨hfirst, hrest⟩ := List.forall_mem_append.mp hbelow
      obtain ⟨hfirst', hrest'⟩ := List.forall_mem_append.mp hbelow'
      exact .cons (h.imp hR hfirst hfirst') (ih hrest hrest')

/-- Composites that have not been touched are abreast. -/
lemma Node.Dual.abreast {n n' : Node L} (hn : n.state = .fresh) (hn' : n'.state = .fresh)
    (h : n.Dual n') : n.Abreast n' := by
  obtain ⟨kind, cascade, cursor, cursor', hk, hk'⟩ := h
  refine ⟨kind, cascade, cursor, cursor', hk, hk', by rw [hn, hn'], fun h => ?_⟩
  rw [hn] at h
  cases h

end Untouched

namespace Tree

variable [Behavior L δ] {t t' : Tree L} {b b' : Branch (Node L)}

/-- **Sequence and selector are duals.**  The two trees are the same, except that in any places the
second one has the dual composite of the inverted children, with the same `cascade`, where the
first one has an inverted composite; the engine may have numbered other nodes than leaves
differently.  Then every run of the second one is like the run of the first one: call by call, the
same results, the same contexts of the driver and the same hooks in the same order, and after any
calls the same blackboard and the same leaves. -/
theorem Fresh.mirrors (h : t.Fresh) (h' : t'.Fresh) (hb : t.branch? = some b)
    (hb' : t'.branch? = some b')
    (hmirror : b.Exchanged Node.Alias (Mirrored Node.Alias Node.Dual) b')
    (calls : List (Call δ)) : t.RunsAlike t' calls := by
  obtain ⟨c, hc⟩ := h.pristine
  obtain ⟨c', hc'⟩ := h'.pristine
  rw [hc.toShows.branch?, Option.some.injEq] at hb
  rw [hc'.toShows.branch?, Option.some.injEq] at hb'
  subst hb hb'
  have hmirror' : c.Exchanged Node.Renamed (Mirrored Node.Renamed Node.Abreast) c' :=
    hmirror.imp Node.Alias.renamed
      (fun ht ht' h => h.imp Node.Alias.renamed Node.Dual.abreast ht ht')
      (fun _ hn => hc.state_eq_fresh hn) (fun _ hn => hc'.state_eq_fresh hn)
  exact (hc.standsFor hc' hmirror').runsAlike interchange_mirrored.exchanged calls

/-- A sequence of two leaves, the second of which fails, inverted and in front of another leaf of a
repeated sequence. -/
theorem mirrors_sequence :
    let b : Branch (Node Constant) := .node (.fresh ⟨0⟩ .root)
      [.node (.fresh ⟨1⟩ (.decorator .repeat false))
        [.node (.fresh ⟨2⟩ (.composite .sequence false 0))
          [.node (.fresh ⟨3⟩ (.decorator .invert false))
            [.node (.fresh ⟨4⟩ (.composite .sequence false 0))
              [.node (.fresh ⟨10⟩ (.leaf .succeed)) [], .node (.fresh ⟨11⟩ (.leaf .fail)) []]],
          .node (.fresh ⟨12⟩ (.leaf .succeed)) []]]]
    let b' : Branch (Node Constant) := .node (.fresh ⟨0⟩ .root)
      [.node (.fresh ⟨1⟩ (.decorator .repeat false))
        [.node (.fresh ⟨2⟩ (.composite .sequence false 0))
          [.node (.fresh ⟨3⟩ (.composite .selector false 0))
            [.node (.fresh ⟨4⟩ (.decorator .invert false))
              [.node (.fresh ⟨10⟩ (.leaf .succeed)) []],
            .node (.fresh ⟨5⟩ (.decorator .invert false)) [.node (.fresh ⟨11⟩ (.leaf .fail)) []]],
          .node (.fresh ⟨12⟩ (.leaf .succeed)) []]]]
    let calls : List (Call Unit) :=
      [.start, .update (), .update (), .update (), .rearm, .update ()]
    Tree.build .standard (some (.decorate .repeat (.composite none .sequence (some false)
        [.decorate .invert (.composite none .sequence (some false)
          [.leaf (some ⟨10⟩) Constant.succeed, .leaf (some ⟨11⟩) .fail]),
        .leaf (some ⟨12⟩) .succeed]))) = .ok (ofBranch b) ∧
      Tree.build .standard (some (.decorate .repeat (.composite none .sequence (some false)
        [.composite none .selector (some false)
          [.decorate .invert (.leaf (some ⟨10⟩) Constant.succeed),
          .decorate .invert (.leaf (some ⟨11⟩) .fail)],
        .leaf (some ⟨12⟩) .succeed]))) = .ok (ofBranch b') ∧
      b.Exchanged Node.Alias (Mirrored Node.Alias Node.Dual) b' ∧
      ((ofBranch b).replies calls).map Reply.audible = [.done,
        .updated .running () [.hook ⟨10⟩ (.start true), .hook ⟨10⟩ (.update .success),
          .hook ⟨10⟩ .stop],
        .updated .running () [.hook ⟨11⟩ (.start true), .hook ⟨11⟩ (.update .failure),
          .hook ⟨11⟩ .stop],
        .updated .running () [.hook ⟨12⟩ (.start true), .hook ⟨12⟩ (.update .success),
          .hook ⟨12⟩ .stop],
        .done,
        .updated .running () [.hook ⟨10⟩ (.start false), .hook ⟨10⟩ (.update .success),
          .hook ⟨10⟩ .stop]] ∧
      (ofBranch b).RunsAlike (ofBranch b') calls := by
  intro b b' calls
  have hbuild : Tree.build .standard (some (.decorate .repeat
      (.composite none .sequence (some false)
        [.decorate .invert (.composite none .sequence (some false)
          [.leaf (some ⟨10⟩) Constant.succeed, .leaf (some ⟨11⟩) .fail]),
        .leaf (some ⟨12⟩) .succeed]))) = .ok (ofBranch b) := rfl
  have hbuild' : Tree.build .standard (some (.decorate .repeat
      (.composite none .sequence (some false)
        [.composite none .selector (some false)
          [.decorate .invert (.leaf (some ⟨10⟩) Constant.succeed),
          .decorate .invert (.leaf (some ⟨11⟩) .fail)],
        .leaf (some ⟨12⟩) .succeed]))) = .ok (ofBranch b') := rfl
  have hsame : ∀ (id id' : NodeId) (k : NodeKind Constant), k.leaf? = none →
      (Node.fresh id k).Alias (.fresh id' k) := fun _ _ _ hleaf =>
    ⟨rfl, fun h => by rw [Node.fresh, hleaf] at h; cases h⟩
  have hinverted : ∀ (id id' : NodeId) (l : Constant),
      Inverted Node.Alias (.node (.fresh id (.leaf l)) [])
        (.node (.fresh id' (.decorator .invert false)) [.node (.fresh id (.leaf l)) []]) :=
    fun _ _ _ => ⟨_, _, ⟨false, rfl⟩, rfl, .node ⟨rfl, fun _ => rfl⟩ .nil⟩
  have hmirror : b.Exchanged Node.Alias (Mirrored Node.Alias Node.Dual) b' := by
    refine .node (hsame _ _ _ rfl) (.cons (.node (hsame _ _ _ rfl)
      (.cons (.node (hsame _ _ _ rfl) (.cons (.here ?_) (.cons ?_ .nil))) .nil)) .nil)
    · exact .mk ⟨false, rfl⟩ ⟨.sequence, false, 0, 0, rfl, rfl⟩
        (.cons (hinverted _ _ _) (.cons (hinverted _ _ _) .nil))
    · exact .node ⟨rfl, fun _ => rfl⟩ .nil
  exact ⟨hbuild, hbuild', hmirror, by decide +kernel,
    (Fresh.built .standard _ hbuild).mirrors (.built .standard _ hbuild') (branch?_ofBranch b)
      (branch?_ofBranch b') hmirror calls⟩

end Tree

end BehaviorTree
