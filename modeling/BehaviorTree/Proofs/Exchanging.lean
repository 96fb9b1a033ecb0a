import BehaviorTree.Proofs.Composites
import BehaviorTree.Proofs.Tandem

/-!
# Exchanging subtrees

Two subtrees may stand for each other wherever they are, if the polls of the one come to the same as
those of the other and leave subtrees behind that may stand for each other again, and so do the two
things besides polls that happen to a subtree: that it is cleared by a reset above it, and that the
tree is rearmed (`Interchange`).  What surrounds them does not matter.

The engine numbers the nodes of a tree that have no identity of their own, so the nodes around the
subtrees, and the nodes in them, may go by other names.  A leaf is told its identity, and keeps it.

* `Branch.Exchanged R P` — the trees are the same up to a relation of their nodes, except that
  subtrees related by `P` may stand for each other.  `Node.Renamed`: the nodes are the same but for
  the name.
* **`Interchange.exchanged`** — if subtrees may be exchanged, so may trees that they are part of.
  `interchange_renamed`: so may trees that are the same but for the names of their nodes.
* `Reply.audible` — what a reply tells apart from the engine's own events.
* **`StandsFor.runsAlike`** — every run of trees that stand for each other comes back with the same,
  as far as it can be told from outside, and leaves the same blackboard and the same leaves behind.
-/

namespace BehaviorTree

open Branch

variable {τ υ L δ : Type}

/-! ## Exchanged trees -/

/-- The nodes are of one kind, with the same fields, and a leaf has the same identity. -/
structure Node.Alias (n n' : Node L) : Prop where
  kind : n'.kind = n.kind
  leaf : n.kind.leaf?.isSome = true → n'.id = n.id

/-- The nodes are the same but for the identity, which a leaf keeps. -/
structure Node.Renamed (n n' : Node L) : Prop extends Node.Alias n n' where
  state : n'.state = n.state

/-- A relation of nodes that are the same but for the identity, of which it asks what it likes. -/
structure Node.Naming (R : Node L → Node L → Prop) : Prop where
  renamed : ∀ {n n'}, R n n' → n.Renamed n'
  keeps : ∀ {n n' m m'}, R n n' → m.id = n.id → m'.id = n'.id → m.Renamed m' → R m m'

/-- The trees have one shape and related nodes, except that subtrees related by `P` may stand for
each other in any places. -/
inductive Branch.Exchanged (R : Node L → Node L → Prop)
    (P : Branch (Node L) → Branch (Node L) → Prop) : Branch (Node L) → Branch (Node L) → Prop
  | here {t t' : Branch (Node L)} : P t t' → Exchanged R P t t'
  | node {n n' : Node L} {ts ts' : List (Branch (Node L))} : R n n' →
    List.Forall₂ (Exchanged R P) ts ts' → Exchanged R P (.node n ts) (.node n' ts')

/-- The trees have one shape and related nodes. -/
abbrev Branch.Alike (R : Node L → Node L → Prop) : Branch (Node L) → Branch (Node L) → Prop :=
  Branch.Exchanged R fun _ _ => False

/-- The leaf that a node is, with its identity. -/
def Node.leafField? (n : Node L) : Option (NodeId × L) := n.kind.leaf?.map fun l => (n.id, l)

/-- The leaves of a tree in order, with their identities and their private fields. -/
def Branch.leafFields (t : Branch (Node L)) : List (NodeId × L) :=
  t.labels.filterMap Node.leafField?

def Branch.leafFieldsAll (ts : List (Branch (Node L))) : List (NodeId × L) :=
  (labelsAll ts).filterMap Node.leafField?

/-- Subtrees that may stand for each other. -/
structure Interchange [Behavior L δ] (P : Branch (Node L) → Branch (Node L) → Prop) : Prop where
  poll : ∀ {t t'}, P t t' → ∀ scene : Scene δ, (t.poll scene).Matches P (t'.poll scene)
  clear : ∀ {t t'}, P t t' → P (t.map Node.clear) (t'.map Node.clear)
  rearm : ∀ {t t'}, P t t' → P (t.map Node.rearm) (t'.map Node.rearm)
  leaves : ∀ {t t'}, P t t' → t'.leafFields = t.leafFields

section Exchanged

variable {R R' : Node L → Node L → Prop} {P P' : Branch (Node L) → Branch (Node L) → Prop}
  {t t' : Branch (Node L)} {ts ts' : List (Branch (Node L))}

@[simp] lemma Branch.leafFields_node (n : Node L) (ts : List (Branch (Node L))) :
    (node n ts).leafFields = n.leafField?.toList ++ leafFieldsAll ts := by
  rw [leafFields, labels, List.filterMap_cons, leafFieldsAll]
  cases n.leafField? <;> rfl

@[simp] lemma Branch.leafFieldsAll_cons (t : Branch (Node L)) (ts : List (Branch (Node L))) :
    leafFieldsAll (t :: ts) = t.leafFields ++ leafFieldsAll ts := List.filterMap_append

lemma Branch.leafFieldsAll_eq (h : List.Forall₂ (fun t t' => t'.leafFields = t.leafFields) ts ts') :
    leafFieldsAll ts' = leafFieldsAll ts := by
  induction h with
  | nil => rfl
  | cons ht _ ih => rw [leafFieldsAll_cons, leafFieldsAll_cons, ht, ih]

/-- Nodes of one kind that have not been touched are the same but for the name. -/
lemma Node.Alias.renamed {n n' : Node L} (hn : n.state = .fresh) (hn' : n'.state = .fresh)
    (h : n.Alias n') : n.Renamed n' := ⟨h, hn'.trans hn.symm⟩

/-- The name of a node that is no leaf does not matter. -/
lemma Node.alias_fresh (id id' : NodeId) {k : NodeKind L} (hleaf : k.leaf? = none) :
    (Node.fresh id k).Alias (.fresh id' k) :=
  ⟨rfl, fun h => by rw [Node.fresh, hleaf] at h; cases h⟩

lemma Node.Alias.leafField? {n n' : Node L} (h : n.Alias n') : n'.leafField? = n.leafField? := by
  rw [Node.leafField?, Node.leafField?, h.kind]
  cases hleaf : n.kind.leaf? with
  | none => rfl
  | some l => rw [h.leaf (by rw [hleaf]; rfl)]

/-- What holds of the pairs that begin with one of the branches. -/
lemma forall₂_exchanged_imp {Q : Branch (Node L) → Branch (Node L) → Prop}
    (h : List.Forall₂ (Exchanged R P) ts ts')
    (himp : ∀ t ∈ ts, ∀ t', t.Exchanged R P t' → Q t t') : List.Forall₂ Q ts ts' := by
  refine ((List.forall₂_and_left (p := fun t => ∀ t', t.Exchanged R P t' → Q t t') ts ts').mpr
    ⟨himp, h⟩).imp ?_
  exact fun t t' hp => hp.1 t' hp.2

/-- Changing all nodes keeps trees exchanged if it keeps nodes and subtrees related. -/
lemma Branch.Exchanged.map {f : Node L → Node L} (hR : ∀ {n n'}, R n n' → R (f n) (f n'))
    (hP : ∀ {t t'}, P t t' → P (t.map f) (t'.map f)) (h : t.Exchanged R P t') :
    (t.map f).Exchanged R P (t'.map f) := by
  induction t generalizing t' with
  | node n ts ih =>
      cases h with
      | here h => exact .here (hP h)
      | node hn hts =>
          rw [map_node, map_node]
          refine .node (hR hn) ?_
          rw [List.forall₂_map_left_iff, List.forall₂_map_right_iff]
          exact forall₂_exchanged_imp hts fun t ht t' h => ih t ht h

/-- More may be asked of related nodes where something is known of all of them. -/
lemma Branch.Exchanged.imp {F : Node L → Prop} (hR : ∀ {n n'}, F n → F n' → R n n' → R' n n')
    (hP : ∀ {t t'}, (∀ n ∈ t.labels, F n) → (∀ n ∈ t'.labels, F n) → P t t' → P' t t')
    (h : t.Exchanged R P t') (ht : ∀ n ∈ t.labels, F n) (ht' : ∀ n ∈ t'.labels, F n) :
    t.Exchanged R' P' t' := by
  induction t generalizing t' with
  | node n ts ih =>
      cases h with
      | here h => exact .here (hP ht ht' h)
      | @node _ n' _ ts' hn hts =>
          obtain ⟨hself, hbelow⟩ := List.forall_mem_cons.mp ht
          obtain ⟨hself', hbelow'⟩ := List.forall_mem_cons.mp ht'
          refine .node (hR hself hself' hn) ?_
          clear hn hself hself' ht ht'
          induction hts with
          | nil => exact .nil
          | @cons u u' us us' hu _ ihs =>
              obtain ⟨hfirst, hrest⟩ := List.forall_mem_append.mp hbelow
              obtain ⟨hfirst', hrest'⟩ := List.forall_mem_append.mp hbelow'
              exact .cons (ih u List.mem_cons_self hu hfirst hfirst')
                (ihs (fun t ht => ih t (List.mem_cons_of_mem _ ht)) hrest hrest')

lemma Branch.Exchanged.leafFields (hR : ∀ {n n'}, R n n' → n.Alias n')
    (hP : ∀ {t t'}, P t t' → t'.leafFields = t.leafFields) (h : t.Exchanged R P t') :
    t'.leafFields = t.leafFields := by
  induction t generalizing t' with
  | node n ts ih =>
      cases h with
      | here h => exact hP h
      | node hn hts =>
          rw [leafFields_node, leafFields_node, (hR hn).leafField?,
            leafFieldsAll_eq (forall₂_exchanged_imp hts fun t ht t' h => ih t ht h)]

end Exchanged

/-! ## Matching outcomes -/

namespace Outcome

variable {ρ : Type}

/-- The outcome with another result. -/
def mapStatus (f : Status → Status) (o : Outcome τ δ) : Outcome τ δ :=
  { o with status := f o.status }

lemma mapStatus_map (o : Outcome τ δ) (f : Status → Status) (g : τ → υ) :
    (o.map g).mapStatus f = (o.mapStatus f).map g := rfl

lemma mapStatus_after (o : Outcome τ δ) (f : Status → Status) (earlier : Trace) :
    (o.after earlier).mapStatus f = (o.mapStatus f).after earlier := rfl

lemma Matches.mapStatus {R : τ → υ → Prop} {o : Outcome τ δ} {o' : Outcome υ δ}
    (h : o.Matches R o') (f : Status → Status) : (o.mapStatus f).Matches R (o'.mapStatus f) :=
  ⟨congrArg f h.status, h.scene, h.calls, h.part⟩

/-- The same for parts that the polled ones belong to. -/
lemma Matches.map {τ' υ' : Type} {R : τ → υ → Prop} {S : τ' → υ' → Prop} {o : Outcome τ δ}
    {o' : Outcome υ δ} (h : o.Matches R o') {f : τ → τ'} {g : υ → υ'}
    (hpart : ∀ a b, R a b → S (f a) (g b)) : (o.map f).Matches S (o'.map g) :=
  ⟨h.status, h.scene, h.calls, hpart _ _ h.part⟩

lemma Matches.imp {R S : τ → υ → Prop} {o : Outcome τ δ} {o' : Outcome υ δ} (h : o.Matches R o')
    (hpart : ∀ a b, R a b → S a b) : o.Matches S o' :=
  ⟨h.status, h.scene, h.calls, hpart _ _ h.part⟩

/-- Outcomes match through a third one. -/
lemma Matches.trans {R : τ → υ → Prop} {S : υ → ρ → Prop} {Q : τ → ρ → Prop} {o : Outcome τ δ}
    {o' : Outcome υ δ} {o'' : Outcome ρ δ} (h : o.Matches R o') (h' : o'.Matches S o'')
    (hpart : ∀ a b c, R a b → S b c → Q a c) : o.Matches Q o'' :=
  ⟨h'.status.trans h.status, h'.scene.trans h.scene, h'.calls.trans h.calls,
    hpart _ _ _ h.part h'.part⟩

end Outcome

/-! ## Polling children -/

/-- The branches are related, and so is what their polls come to, up to a change of the result. -/
def Branch.InStep [Behavior L δ] (f : Status → Status)
    (Q : Branch (Node L) → Branch (Node L) → Prop) (t t' : Branch (Node L)) : Prop :=
  Q t t' ∧ ∀ scene : Scene δ, ((t.poll scene).mapStatus f).Matches Q (t'.poll scene)

section Children

variable [Behavior L δ] {f : Status → Status} {Q : Branch (Node L) → Branch (Node L) → Prop}
  {ts ts' : List (Branch (Node L))}

lemma pollFirst_inStep (h : List.Forall₂ (InStep f Q) ts ts')
    (hsuccess : ts = [] → f .success = .success) (scene : Scene δ) :
    ((pollFirst ts scene).mapStatus f).Matches (List.Forall₂ Q) (pollFirst ts' scene) := by
  cases h with
  | nil => exact ⟨(hsuccess rfl).symm, rfl, rfl, .nil⟩
  | cons ht hts =>
      have ho := ht.2 scene
      exact ⟨ho.status, ho.scene, ho.calls, .cons ho.part (hts.imp fun _ _ h => h.1)⟩

/-- **Polling the children of two composites from the cursor on**, where what moves the one on is
what moves the other on. -/
lemma pollFrom_inStep {kind kind' : CompositeKind}
    (hf : ∀ s, f s = kind'.advancesOn ↔ s = kind.advancesOn) (hrunning : f .running = .running)
    (h : List.Forall₂ (InStep f Q) ts ts') (id id' : NodeId) (cascade : Bool) (skip : Nat)
    (scene : Scene δ) :
    ((Branch.pollFrom id kind cascade skip ts scene).mapStatus f).Matches
      (fun p p' => p'.1 = p.1 ∧ List.Forall₂ Q p.2 p'.2)
      (Branch.pollFrom id' kind' cascade skip ts' scene) := by
  have hadvances : f kind.advancesOn = kind'.advancesOn := (hf _).mpr rfl
  have hquiet : ∀ id : NodeId, Trace.hookCalls [.advance id] = [] := fun _ => rfl
  induction h generalizing skip scene with
  | nil =>
      rw [Branch.pollFrom, Branch.pollFrom]
      exact ⟨hadvances.symm, rfl, rfl, rfl, .nil⟩
  | @cons t t' us us' ht hus ih =>
      have hrest : List.Forall₂ Q us us' := hus.imp fun _ _ h => h.1
      cases skip with
      | succ skip =>
          rw [Branch.pollFrom, Branch.pollFrom, Outcome.mapStatus_map]
          exact (ih skip scene).map fun _ _ hp => ⟨hp.1, .cons ht.1 hp.2⟩
      | zero =>
          have ho := ht.2 scene
          by_cases hmoves : (t.poll scene).status = kind.advancesOn
          · have hmoves' : (t'.poll scene).status = kind'.advancesOn :=
              ho.status.trans ((hf _).mpr hmoves)
            cases hus with
            | nil =>
                rw [Branch.pollFrom_ends hmoves, Branch.pollFrom_ends hmoves',
                  Outcome.mapStatus_map]
                exact ho.map fun _ _ hp => ⟨rfl, .cons hp .nil⟩
            | @cons u u' us us' hu hus =>
                cases hc : cascade with
                | true =>
                    have hlater := ih 0 (t.poll scene).scene
                    rw [hc] at hlater
                    have hscene : (t'.poll scene).scene = (t.poll scene).scene := ho.scene
                    rw [Branch.pollFrom_cascades hmoves rfl, Branch.pollFrom_cascades hmoves' rfl,
                      hscene, Outcome.mapStatus_after, Outcome.mapStatus_map]
                    exact (hlater.map fun _ _ hp =>
                      ⟨congrArg (· + 1) hp.1, .cons ho.part hp.2⟩).after ho.calls
                | false =>
                    rw [Branch.pollFrom_pauses hmoves rfl, Branch.pollFrom_pauses hmoves' rfl]
                    refine ⟨hrunning.symm, ho.scene, ?_, rfl, .cons ho.part hrest⟩
                    simp only [Outcome.mapStatus, Trace.hookCalls_append, hquiet, List.append_nil]
                    exact ho.calls
          · have hmoves' : (t'.poll scene).status ≠ kind'.advancesOn := fun h =>
              hmoves ((hf _).mp (ho.status.symm.trans h))
            rw [Branch.pollFrom_stops hmoves, Branch.pollFrom_stops hmoves', Outcome.mapStatus_map]
            exact ho.map fun _ _ hp => ⟨rfl, .cons hp hrest⟩

end Children

/-! ## Polling a node -/

/-- The branches have roots that are the same but for the name, and related children. -/
def Branch.Around (Q : Branch (Node L) → Branch (Node L) → Prop) (t t' : Branch (Node L)) : Prop :=
  t.label.Renamed t'.label ∧ List.Forall₂ Q t.children t'.children

section Node

variable [Behavior L δ] {n n' : Node L} {Q : Branch (Node L) → Branch (Node L) → Prop}
  {ts ts' : List (Branch (Node L))}

lemma Node.Renamed.begin (h : n.Renamed n') (scene : Scene δ) :
    (n.begin scene).1.Renamed (n'.begin scene).1 ∧
      (n'.begin scene).2.1 = (n.begin scene).2.1 ∧
      (n'.begin scene).2.2.hookCalls = (n.begin scene).2.2.hookCalls := by
  obtain ⟨id, _, _⟩ := n
  obtain ⟨id', kind, state⟩ := n'
  obtain ⟨⟨rfl, hleaf⟩, rfl⟩ := h
  simp only at hleaf
  rw [Node.begin, Node.begin]
  split
  · exact ⟨⟨⟨rfl, hleaf⟩, rfl⟩, rfl, rfl⟩
  · cases kind with
    | leaf l =>
        obtain rfl := hleaf rfl
        exact ⟨⟨⟨rfl, fun _ => rfl⟩, rfl⟩, rfl, rfl⟩
    | _ => exact ⟨⟨⟨rfl, fun h => by cases h⟩, rfl⟩, rfl, rfl⟩

lemma Node.Renamed.conclude (h : n.Renamed n') (status : Status) (scene : Scene δ) :
    (n.conclude status scene).1.Renamed (n'.conclude status scene).1 ∧
      (n'.conclude status scene).2.1 = (n.conclude status scene).2.1 ∧
      (n'.conclude status scene).2.2.hookCalls = (n.conclude status scene).2.2.hookCalls := by
  obtain ⟨id, _, _⟩ := n
  obtain ⟨id', kind, state⟩ := n'
  obtain ⟨⟨rfl, hleaf⟩, rfl⟩ := h
  simp only at hleaf
  rw [Node.conclude, Node.conclude]
  split
  · cases kind with
    | leaf l =>
        obtain rfl := hleaf rfl
        exact ⟨⟨⟨rfl, fun _ => rfl⟩, rfl⟩, rfl, rfl⟩
    | _ => exact ⟨⟨⟨rfl, fun h => by cases h⟩, rfl⟩, rfl, rfl⟩
  · exact ⟨⟨⟨rfl, hleaf⟩, rfl⟩, rfl, rfl⟩

/-- The end of a poll records the result of a node that is no leaf, and does nothing else. -/
lemma Node.conclude_eq (hleaf : n.kind.leaf? = none) (status : Status) (scene : Scene δ) :
    n.conclude status scene =
      ({ n with state := (n.conclude status scene).1.state }, scene, []) := by
  obtain ⟨id, kind, state⟩ := n
  rw [Node.conclude]
  cases kind with
  | leaf l => cases hleaf
  | _ => split <;> rfl

/-- What a node clears is static about it. -/
lemma Node.clearsOn_of_static (h : n'.static = n.static) (status : Status) :
    n'.clearsOn status = n.clearsOn status := by
  have hkind : ∀ k k' : NodeKind L, k'.static = k.static → ∀ (id id' : NodeId)
      (state state' : NodeState), (⟨id', k', state'⟩ : Node L).clearsOn status =
        (⟨id, k, state⟩ : Node L).clearsOn status := by
    intro k k' hstatic id id' state state'
    cases k <;> cases k' <;> cases hstatic <;> rfl
  exact hkind _ _ (Node.kind_eq_of_static h) _ _ _ _

/-- The beginning of an activation calls no hook if the node is no leaf. -/
lemma Node.hookCalls_begin (hleaf : n.kind.leaf? = none) (scene : Scene δ) :
    (n.begin scene).2.2.hookCalls = [] := by
  obtain ⟨id, kind, state⟩ := n
  rw [Node.begin]
  split
  · rfl
  · cases kind with
    | leaf l => cases hleaf
    | _ => rfl

/-- **The poll of a node that is no leaf, and that clears nothing**, comes to what its run comes to,
and records whether the activation goes on. -/
lemma Branch.poll_matches_run (hleaf : n.kind.leaf? = none)
    (hclears : ∀ status, n.clearsOn status = false)
    (ts : List (Branch (Node L))) (scene : Scene δ) :
    (runBelow (node (n.begin scene).1 ts) (n.begin scene).2.1).Matches
      (fun t t' => ∃ state : NodeState,
        state.started = ((node n ts).poll scene).status.isRunning ∧ t' = t.withState state)
      ((node n ts).poll scene) := by
  have hstarted := started_poll (node n ts) scene
  have hbegun := Node.hookCalls_begin hleaf scene
  have hstatic := (static_label_run (n.begin scene).1 ts (n.begin scene).2.1).trans
    (n.static_begin scene)
  rw [poll_eq_conclude] at hstarted ⊢
  generalize hran : runBelow (node (n.begin scene).1 ts) (n.begin scene).2.1 = o at hstarted ⊢
  rw [runBelow] at hran
  rw [hran] at hstatic
  have hended := Node.conclude_eq (Tandem.leaf?_eq_none_of_static hstatic hleaf) o.status o.scene
  obtain ⟨status, ⟨m, us⟩, scene', trace⟩ := o
  refine ⟨rfl, ?_, ?_, _, hstarted, ?_⟩
  · exact congrArg (fun c => c.2.1) hended
  · rw [Outcome.calls_conclude, hbegun, hended]
    exact List.append_nil _
  · have hkeeps : (m.conclude status scene').1.clearsOn status = false :=
      (Node.clearsOn_of_static ((m.static_conclude status scene').trans hstatic) status).trans
        (hclears status)
    rw [Outcome.conclude]
    simp only [label_node, children_node, Node.settle, hkeeps, Bool.false_eq_true, if_false]
    exact congrArg (node · us) (congrArg Prod.fst hended)

/-- The poll of a composite comes to what polling its children from the one in turn on comes to. -/
lemma Branch.poll_matches_composite (id : NodeId) (kind : CompositeKind) (cascade : Bool)
    (cursor : Nat) (state : NodeState) (ts : List (Branch (Node L))) (scene : Scene δ) :
    (Branch.pollFrom id kind cascade (if state.started then cursor else 0) ts scene).Matches
      (fun p t => ∃ state' : NodeState, state'.started =
          ((node ⟨id, .composite kind cascade cursor, state⟩ ts).poll scene).status.isRunning ∧
        t = node ⟨id, .composite kind cascade ((if state.started then cursor else 0) + p.1), state'⟩
          p.2)
      ((node ⟨id, .composite kind cascade cursor, state⟩ ts).poll scene) := by
  have ho := poll_matches_run (n := ⟨id, .composite kind cascade cursor, state⟩) rfl
    (fun _ => rfl) ts scene
  rw [begin_composite, runBelow, Node.run_composite rfl] at ho
  obtain ⟨hstatus, hscene, hcalls, state', hstarted, hpart⟩ := ho
  exact ⟨hstatus, hscene, hcalls, state', hstarted, hpart⟩

/-- Running nodes that are the same but for the name. -/
lemma Node.Renamed.run (h : n.Renamed n') (hts : List.Forall₂ (InStep (fun s => s) Q) ts ts')
    (scene : Scene δ) :
    (runBelow (node n ts) scene).Matches (Around Q) (runBelow (node n' ts') scene) := by
  have hidle : List.Forall₂ Q ts ts' := hts.imp fun _ _ h => h.1
  have hfirst := pollFirst_inStep hts (fun _ => rfl) scene
  obtain ⟨id, _, _⟩ := n
  obtain ⟨id', kind, state⟩ := n'
  obtain ⟨⟨rfl, hleaf⟩, rfl⟩ := h
  simp only at hleaf
  rw [runBelow, runBelow]
  cases kind with
  | root =>
      rw [Node.run_root rfl, Node.run_root rfl]
      exact ⟨hfirst.status, hfirst.scene, hfirst.calls, ⟨⟨rfl, hleaf⟩, rfl⟩, hfirst.part⟩
  | composite kind cascade cursor =>
      have hsame : ∀ s, s = kind.advancesOn ↔ s = kind.advancesOn := fun _ => Iff.rfl
      have ho := pollFrom_inStep hsame rfl hts id id' cascade cursor scene
      rw [Node.run_composite rfl, Node.run_composite rfl]
      refine ⟨ho.status, ho.scene, ho.calls, ⟨⟨?_, fun h => by cases h⟩, rfl⟩, ho.part.2⟩
      exact congrArg (fun moves => NodeKind.composite kind cascade (cursor + moves)) ho.part.1
  | decorator rule gate =>
      cases ha : Node.admits rule gate scene.board with
      | true =>
          rw [Node.run_admitted rfl ha, Node.run_admitted rfl ha]
          exact ⟨congrArg rule.map hfirst.status, hfirst.scene, hfirst.calls,
            ⟨⟨rfl, hleaf⟩, rfl⟩, hfirst.part⟩
      | false =>
          rw [Node.run_refused rfl ha, Node.run_refused rfl ha]
          exact ⟨rfl, rfl, rfl, ⟨⟨rfl, hleaf⟩, rfl⟩, hidle⟩
  | leaf l =>
      obtain rfl := hleaf rfl
      rw [Node.run_leaf rfl, Node.run_leaf rfl]
      exact ⟨rfl, rfl, rfl, ⟨⟨rfl, fun _ => rfl⟩, rfl⟩, hidle⟩

/-- Ending the polls of nodes that are the same but for the name. -/
lemma Outcome.Matches.conclude {o o' : Outcome (Branch (Node L)) δ} (h : o.Matches (Around Q) o')
    (hclear : ∀ {t t'}, Q t t' → Q (t.map Node.clear) (t'.map Node.clear)) (id id' : NodeId)
    {begun begun' : Trace} (hbegun : begun'.hookCalls = begun.hookCalls) :
    (o.conclude id begun).Matches (Around Q) (o'.conclude id' begun') := by
  obtain ⟨hstatus, hscene, hcalls, hlabel, hchildren⟩ := h
  obtain ⟨hended, hscene', hcalls'⟩ := hlabel.conclude o.status o.scene
  refine ⟨hstatus, ?_, ?_, ?_, ?_⟩
  · simp only [Outcome.conclude, hstatus, hscene]
    exact hscene'
  · rw [Outcome.calls_conclude, Outcome.calls_conclude, hstatus, hscene, hbegun, hcalls, hcalls']
  · simp only [Outcome.conclude, hstatus, hscene]
    exact hended
  · have hclears : (o'.part.label.conclude o.status o.scene).1.clearsOn o.status =
        (o.part.label.conclude o.status o.scene).1.clearsOn o.status := by
      rw [Node.clearsOn, Node.clearsOn, hended.kind]
    simp only [Outcome.conclude, hstatus, hscene, children_node, Node.settle, hclears]
    split
    · rw [List.forall₂_map_left_iff, List.forall₂_map_right_iff]
      exact hchildren.imp fun _ _ h => hclear h
    · exact hchildren

end Node

/-! ## Exchanging subtrees of a tree -/

section Interchange

variable [Behavior L δ] {P : Branch (Node L) → Branch (Node L) → Prop}

lemma Node.Renamed.clear {n n' : Node L} (h : n.Renamed n') : n.clear.Renamed n'.clear :=
  ⟨⟨h.kind, h.leaf⟩, congrArg NodeState.clear h.state⟩

lemma Node.Renamed.rearm {n n' : Node L} (h : n.Renamed n') : n.rearm.Renamed n'.rearm := by
  refine ⟨⟨congrArg NodeKind.rewind h.kind, fun hleaf => h.leaf ?_⟩,
    congrArg NodeState.clear h.state⟩
  rwa [Node.rearm, NodeKind.leaf?_rewind] at hleaf

lemma Node.naming_renamed : Node.Naming (Node.Renamed (L := L)) where
  renamed h := h
  keeps _ _ _ h := h

/-- A poll keeps the identity of the node that it is made of. -/
lemma Branch.id_label_poll (t : Branch (Node L)) (scene : Scene δ) :
    (t.poll scene).part.label.id = t.label.id := by
  have hstatic := congrArg label (map_static_poll t scene)
  rw [label_map, label_map] at hstatic
  exact Node.id_eq_of_static hstatic

/-- Subtrees may be exchanged in trees whose other nodes are the same but for the identity. -/
theorem Node.Naming.exchanged {R : Node L → Node L → Prop} (hR : Node.Naming R)
    (hP : Interchange (δ := δ) P) : Interchange (δ := δ) (Exchanged R P) where
  clear h := h.map (fun hn => hR.keeps hn rfl rfl (hR.renamed hn).clear) hP.clear
  rearm h := h.map (fun hn => hR.keeps hn rfl rfl (hR.renamed hn).rearm) hP.rearm
  leaves h := h.leafFields (fun hn => (hR.renamed hn).toAlias) hP.leaves
  poll {t t'} h scene := by
    induction t generalizing t' scene with
    | node n ts ih =>
        cases h with
        | here h => exact (hP.poll h scene).imp fun _ _ h => .here h
        | @node _ n' _ ts' hn hts =>
            have hbelow : List.Forall₂ (InStep (δ := δ) (fun s => s) (Exchanged R P)) ts ts' :=
              forall₂_exchanged_imp hts fun t ht t' h => ⟨h, fun scene => ih t ht h scene⟩
            obtain ⟨hbegun, hscene, hcalls⟩ := (hR.renamed hn).begin scene
            have hran := hbegun.run hbelow (n.begin scene).2.1
            have ho := hran.conclude
              (fun h => h.map (fun hn => hR.keeps hn rfl rfl (hR.renamed hn).clear) hP.clear)
              (n.begin scene).1.id (n'.begin scene).1.id hcalls
            have hid := id_label_poll (node n ts) scene
            have hid' := id_label_poll (node n' ts') scene
            rw [poll_eq_conclude] at hid hid'
            rw [hscene] at hid'
            rw [poll_eq_conclude, poll_eq_conclude, hscene]
            refine ⟨ho.status, ho.scene, ho.calls, ?_⟩
            obtain ⟨hlabel, hchildren⟩ := ho.part
            exact .node (hR.keeps hn hid hid' hlabel) hchildren

/-- **Trees may be exchanged if they differ in subtrees that may be exchanged**, and in the names of
nodes. -/
theorem Interchange.exchanged (hP : Interchange (δ := δ) P) :
    Interchange (δ := δ) (Exchanged Node.Renamed P) := Node.naming_renamed.exchanged hP

/-- Trees that are the same but for the identities of their nodes may be exchanged. -/
theorem Node.Naming.interchange {R : Node L → Node L → Prop} (hR : Node.Naming R) :
    Interchange (δ := δ) (Branch.Alike R) :=
  hR.exchanged ⟨fun h => h.elim, fun h => h.elim, fun h => h.elim, fun h => h.elim⟩

/-- Trees that are the same but for the names of their nodes may be exchanged. -/
theorem interchange_renamed : Interchange (δ := δ) (Alike (L := L) Node.Renamed) :=
  Node.naming_renamed.interchange

end Interchange

/-! ## Runs -/

/-- The reply with the calls of hooks as its only events. -/
def Reply.audible : Reply δ → Reply δ
  | updated status driver trace =>
    updated status driver (trace.hookCalls.map fun call => .hook call.1 call.2)
  | reply => reply

namespace Tree

/-- The leaves in order, with their identities and their private fields. -/
def leafFields (t : Tree L) : List (NodeId × L) :=
  t.arena.filterMap fun slot => slot.label.leafField?

/-- The two trees show related nested trees, and they have the same blackboard and the same
result. -/
structure StandsFor (P : Branch (Node L) → Branch (Node L) → Prop) (t t' : Tree L) : Prop where
  shown : ∃ b b', t.Shows b ∧ t'.Shows b' ∧ P b b'
  board : t'.board = t.board
  state : t'.state = t.state

/-- A run of the two trees is the same as far as it can be told from outside the engine: it comes
back with the same results, the same contexts of the driver and the same calls of hooks, call by
call, and at its end the trees have the same result, the same blackboard and the same leaves. -/
structure RunsAlike [Behavior L δ] (t t' : Tree L) (calls : List (Call δ)) : Prop where
  replies : (t'.replies calls).map Reply.audible = (t.replies calls).map Reply.audible
  state : (t'.performAll calls).1.state = (t.performAll calls).1.state
  board : (t'.performAll calls).1.board = (t.performAll calls).1.board
  leaves : (t'.performAll calls).1.leafFields = (t.performAll calls).1.leafFields

lemma Shows.leafFields {t : Tree L} {b : Branch (Node L)} (h : t.Shows b) :
    t.leafFields = b.leafFields := by
  rw [Branch.leafFields, ← h.map_label, List.filterMap_map]
  rfl

/-- Trees that have not been touched are on a par. -/
lemma Pristine.standsFor {P : Branch (Node L) → Branch (Node L) → Prop} {t t' : Tree L}
    {b b' : Branch (Node L)} (hb : t.Pristine b) (hb' : t'.Pristine b') (h : P b b') :
    t.StandsFor P t' where
  shown := ⟨b, b', hb.toShows, hb'.toShows, h⟩
  board := hb'.board.trans hb.board.symm
  state := hb'.state.trans hb.state.symm

variable [Behavior L δ] {P : Branch (Node L) → Branch (Node L) → Prop} {t t' : Tree L}

/-- Trees as they come out of authoring are on a par if they may stand for each other untouched. -/
lemma Fresh.standsFor {b b' : Branch (Node L)} (h : t.Fresh) (h' : t'.Fresh)
    (hb : t.branch? = some b) (hb' : t'.branch? = some b')
    (hP : (∀ n ∈ b.labels, n.state = .fresh) → (∀ n ∈ b'.labels, n.state = .fresh) → P b b') :
    t.StandsFor P t' := by
  obtain ⟨c, hc⟩ := h.pristine
  obtain ⟨c', hc'⟩ := h'.pristine
  rw [hc.toShows.branch?, Option.some.injEq] at hb
  rw [hc'.toShows.branch?, Option.some.injEq] at hb'
  subst hb hb'
  exact hc.standsFor hc' (hP (fun _ hn => hc.state_eq_fresh hn) fun _ hn => hc'.state_eq_fresh hn)

/-- **A call on trees that stand for each other** sounds the same, and leaves such trees behind. -/
lemma StandsFor.perform (h : t.StandsFor P t') (hP : Interchange (δ := δ) P) (call : Call δ) :
    (t'.reply call).audible = (t.reply call).audible ∧
      (t.perform call).1.StandsFor P (t'.perform call).1 := by
  obtain ⟨b, b', hb, hb', hshown⟩ := h.shown
  have hrests : ∀ {u u' : Tree L}, u.arena = t.arena → u'.arena = t'.arena →
      ∃ c c', u.Shows c ∧ u'.Shows c' ∧ P c c' := fun hu hu' =>
    ⟨b, b', ⟨hu.trans hb.arena, hb.nodup⟩, ⟨hu'.trans hb'.arena, hb'.nodup⟩, hshown⟩
  have hboard := h.board
  have hstate := h.state
  cases call with
  | start =>
      rw [reply, reply, Tree.perform, Tree.perform, start, start, hboard]
      cases t.board with
      | none => exact ⟨rfl, hrests rfl rfl, rfl, hstate⟩
      | some board => exact ⟨rfl, h⟩
  | update driver =>
      cases ht : t.board with
      | none =>
          rw [reply, reply, Tree.perform, Tree.perform, Tree.update, Tree.update, hboard, ht]
          exact ⟨rfl, h⟩
      | some board =>
          have ht' := hboard.trans ht
          cases hterminal : t.state.isTerminal with
          | true =>
              rw [reply, reply, Tree.perform, Tree.perform, update_of_terminal ht hterminal,
                update_of_terminal ht' (hstate ▸ hterminal), hstate]
              exact ⟨rfl, h⟩
          | false =>
              have hrunning := Status.isTerminal_eq_false_iff.mp hterminal
              have ho := hP.poll hshown (⟨board, driver⟩ : Scene δ)
              rw [reply, reply, Tree.perform, Tree.perform, hb.update ht hrunning,
                hb'.update ht' (hstate.trans hrunning)]
              refine ⟨?_, ⟨_, _, hb.of_static (map_static_poll _ _) rfl,
                hb'.of_static (map_static_poll _ _) rfl, ho.part⟩, ?_, ho.status⟩
              · simp only [Reply.audible, ho.status, ho.scene, ho.calls]
              · simp only [ho.scene]
  | halt => exact ⟨rfl, hrests rfl rfl, hboard, rfl⟩
  | rearm => exact ⟨rfl, ⟨_, _, hb.rearm, hb'.rearm, hP.rearm hshown⟩, hboard, rfl⟩
  | edit f => exact ⟨rfl, hrests rfl rfl, congrArg (Option.map f) hboard, hstate⟩

/-- A run leaves trees behind that stand for each other. -/
lemma StandsFor.performAll (h : t.StandsFor P t') (hP : Interchange (δ := δ) P)
    (calls : List (Call δ)) :
    (t.performAll calls).1.StandsFor P (t'.performAll calls).1 := by
  induction calls generalizing t t' with
  | nil => exact h
  | cons call calls ih =>
      obtain ⟨-, hnow⟩ := h.perform hP call
      exact ih hnow

/-- **Trees that stand for each other run alike.** -/
theorem StandsFor.runsAlike (h : t.StandsFor P t') (hP : Interchange (δ := δ) P)
    (calls : List (Call δ)) : t.RunsAlike t' calls := by
  induction calls generalizing t t' with
  | nil =>
      obtain ⟨b, b', hb, hb', hshown⟩ := h.shown
      refine ⟨rfl, h.state, h.board, ?_⟩
      rw [Tree.performAll, Tree.performAll, hb.leafFields, hb'.leafFields, hP.leaves hshown]
  | cons call calls ih =>
      obtain ⟨hreply, hnow⟩ := h.perform hP call
      have hlater := ih hnow
      refine ⟨?_, hlater.state, hlater.board, hlater.leaves⟩
      rw [replies, replies, List.map_cons, List.map_cons, hreply, hlater.replies]

end Tree

end BehaviorTree
