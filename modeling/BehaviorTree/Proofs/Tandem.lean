import BehaviorTree.Proofs.Lockstep
import BehaviorTree.Proofs.Visits
import Mathlib.Data.List.Forall2

/-!
# Trees in tandem

Trees in lockstep do the same on one scene, whatever happens.  Here the scenes may differ as well:
they have the same context of the driver, and blackboards that are related.  And what is asked of
the nodes may be asked of polls that are calm alone, where it is for the user of a `Tandem` to say
what a poll of a node must not do.

* `Branch.Paired` — nested trees of one shape, whose nodes are related one by one.
* `Tandem` — the conditions on single nodes, and on leaves as wholes.
* **`Tandem.poll`** — polls of paired trees over related scenes come to the same, and leave paired
  trees and related scenes behind, if every visit in their course is calm.
* `Tandem.idle` — as long as nothing is polled, less is asked of the blackboards.
* **`Tandem.replies`** — the same of every run of which each call is allowed (`Tree.Along`), if that
  makes the updates calm and keeps edits of related blackboards related.
-/

namespace BehaviorTree

open Branch

variable {L δ : Type} {τ υ : Type}

/-! ## Related trees and scenes -/

/-- The nested trees have one shape, and their nodes are related one by one. -/
inductive Branch.Paired (R : Node L → Node L → Prop) : Branch (Node L) → Branch (Node L) → Prop
  | node {n n' : Node L} {ts ts' : List (Branch (Node L))} : R n n' →
    List.Forall₂ (Paired R) ts ts' → Paired R (.node n ts) (.node n' ts')

/-- The scenes have the same context of the driver, and their blackboards are related. -/
structure Scene.Paired (B : Blackboard → Blackboard → Prop) (scene scene' : Scene δ) : Prop where
  board : B scene.board scene'.board
  driver : scene'.driver = scene.driver

/-- The outcomes are the same but for what they leave behind. -/
structure Outcome.Paired (P : τ → υ → Prop) (B : Blackboard → Blackboard → Prop)
    (o : Outcome τ δ) (o' : Outcome υ δ) : Prop where
  status : o'.status = o.status
  part : P o.part o'.part
  scene : o.scene.Paired B o'.scene
  trace : o'.trace = o.trace

/-- The kinds run alike.  Cursors and gates matter only while an activation is under way. -/
inductive NodeKind.Concurs (underway : Prop) (B : Blackboard → Blackboard → Prop) :
    NodeKind L → NodeKind L → Prop
  | root : Concurs underway B .root .root
  | composite (kind : CompositeKind) (cascade : Bool) {cursor cursor' : Nat} :
    (underway → cursor' = cursor) →
    Concurs underway B (.composite kind cascade cursor) (.composite kind cascade cursor')
  | decorator {rule rule' : DecoratorRule} {gate gate' : Bool} :
    rule'.map = rule.map → rule'.resetsOn = rule.resetsOn →
    (underway → ∀ board board', B board board' →
      Node.admits rule' gate' board' = Node.admits rule gate board) →
    Concurs underway B (.decorator rule gate) (.decorator rule' gate')
  | leaf (l l' : L) : Concurs underway B (.leaf l) (.leaf l')

/-- Related nodes do the same on related scenes, as far as their polls are calm, and whatever
happens to them they remain related. -/
structure Tandem [Behavior L δ] (calm : Node L → Scene δ → Prop) (R : Node L → Node L → Prop)
    (B : Blackboard → Blackboard → Prop) : Prop where
  id : ∀ {n n'}, R n n' → n'.id = n.id
  started : ∀ {n n'}, R n n' → n'.state.started = n.state.started
  kind : ∀ {n n'}, R n n' → n.kind.Concurs (n.state.started = true) B n'.kind
  activate : ∀ {n n'}, R n n' → n.state.started = false → n.kind.leaf? = none →
    ∀ {scene scene' : Scene δ}, calm n scene → scene.Paired B scene' →
    R (n.activate scene).1 (n'.activate scene').1 ∧
      (n.activate scene).2.1.Paired B (n'.activate scene').2.1
  /-- A leaf does the same in a whole poll. -/
  leaf : ∀ {n n' l}, R n n' → n.kind.leaf? = some l → ∀ {scene scene' : Scene δ}, calm n scene →
    scene.Paired B scene' →
    ((Branch.node n []).poll scene).Paired (Branch.Paired R) B ((Branch.node n' []).poll scene')
  move : ∀ {n n'}, R n n' → ∀ cursor, R { n with kind := n.kind.withCursor cursor }
    { n' with kind := n'.kind.withCursor cursor }
  conclude : ∀ {n n'}, R n n' → n.kind.leaf? = none → ∀ (status : Status) (scene scene' : Scene δ),
    R (n.conclude status scene).1 (n'.conclude status scene').1
  clear : ∀ {n n'}, R n n' → R n.clear n'.clear
  rearm : ∀ {n n'}, R n n' → R n.rearm n'.rearm

/-! ## Paired branches -/

section Paired

variable {R Q : Node L → Node L → Prop} {t t' : Branch (Node L)} {ts ts' : List (Branch (Node L))}

lemma Branch.Paired.label (h : t.Paired R t') : R t.label t'.label := by
  cases h with
  | node hn _ => exact hn

lemma Branch.Paired.children (h : t.Paired R t') :
    List.Forall₂ (Paired R) t.children t'.children := by
  cases h with
  | node _ hts => exact hts

/-- What holds of the pairs that begin with one of the branches. -/
lemma forall₂_paired_imp {P : Branch (Node L) → Branch (Node L) → Prop}
    (h : List.Forall₂ (Branch.Paired R) ts ts')
    (himp : ∀ t ∈ ts, ∀ t', t.Paired R t' → P t t') : List.Forall₂ P ts ts' := by
  refine ((List.forall₂_and_left (p := fun t => ∀ t', t.Paired R t' → P t t') ts ts').mpr
    ⟨himp, h⟩).imp ?_
  exact fun t t' hp => hp.1 t' hp.2

lemma Branch.Paired.mono (hR : ∀ n n', R n n' → Q n n') (h : t.Paired R t') : t.Paired Q t' := by
  induction t generalizing t' with
  | node n ts ih =>
      cases h with
      | node hn hts => exact .node (hR _ _ hn) (forall₂_paired_imp hts fun t ht t' h => ih t ht h)

/-- Changing all nodes keeps branches paired if it keeps nodes related. -/
lemma Branch.Paired.map {f f' : Node L → Node L} (hf : ∀ {n n'}, R n n' → Q (f n) (f' n'))
    (h : t.Paired R t') : (t.map f).Paired Q (t'.map f') := by
  induction t generalizing t' with
  | node n ts ih =>
      cases h with
      | node hn hts =>
          rw [map_node, map_node]
          refine .node (hf hn) ?_
          rw [List.forall₂_map_left_iff, List.forall₂_map_right_iff]
          exact forall₂_paired_imp hts fun t ht t' h => ih t ht h

/-- A branch and what changing all nodes makes of it. -/
lemma Branch.paired_map {f : Node L → Node L} (hf : ∀ n ∈ t.labels, R n (f n)) :
    t.Paired R (t.map f) := by
  induction t with
  | node n ts ih =>
      rw [map_node]
      refine .node (hf n List.mem_cons_self) ?_
      rw [List.forall₂_map_right_iff]
      exact List.forall₂_same.mpr fun t ht => ih t ht fun m hm =>
        hf m (List.mem_cons_of_mem _ (mem_labelsAll.mpr ⟨t, ht, hm⟩))

lemma Branch.map_id (t : Branch (Node L)) : t.map (fun n => n) = t := by
  induction t with
  | node n ts ih => rw [map_node, List.map_congr_left ih, List.map_id']

/-- A branch and itself. -/
lemma Branch.paired_self (hR : ∀ n ∈ t.labels, R n n) : t.Paired R t := by
  have hpaired := paired_map (f := fun n => n) hR
  rwa [map_id] at hpaired

/-- What related nodes have in common is the same throughout paired branches. -/
lemma Branch.Paired.map_eq {α : Type} {f : Node L → α} (hf : ∀ n n', R n n' → f n' = f n)
    (h : t.Paired R t') : t'.map f = t.map f := by
  induction t generalizing t' with
  | node n ts ih =>
      cases h with
      | @node _ n' _ ts' hn hts =>
          rw [map_node, map_node, hf n n' hn]
          refine congrArg _ (Eq.symm ?_)
          rw [← List.forall₂_eq_eq_eq, List.forall₂_map_left_iff, List.forall₂_map_right_iff]
          exact forall₂_paired_imp hts fun t ht t' h => (ih t ht h).symm

end Paired

/-! ## Polls in tandem -/

namespace Tandem

section Poll

variable [Behavior L δ] {calm : Node L → Scene δ → Prop} {R : Node L → Node L → Prop}
  {B : Blackboard → Blackboard → Prop} {ts ts' : List (Branch (Node L))} {scene scene' : Scene δ}
  {n n' : Node L}

/-- The polls of a branch and of any branch that is paired with it come to the same. -/
def Agrees (R : Node L → Node L → Prop) (B : Blackboard → Blackboard → Prop)
    (t : Branch (Node L)) (scene : Scene δ) : Prop :=
  ∀ t' scene', t.Paired R t' → scene.Paired B scene' →
    (t.poll scene).Paired (Branch.Paired R) B (t'.poll scene')

lemma pollFirst (h : List.Forall₂ (Branch.Paired R) ts ts') (hs : scene.Paired B scene')
    (hpoll : ∀ t us, ts = t :: us → Agrees R B t scene) :
    (Branch.pollFirst ts scene).Paired (List.Forall₂ (Branch.Paired R)) B
      (Branch.pollFirst ts' scene') := by
  cases h with
  | nil => exact ⟨rfl, .nil, hs, rfl⟩
  | @cons t t' us us' ht hus =>
      have ho := hpoll t us rfl t' scene' ht hs
      exact ⟨ho.status, .cons ho.part hus, ho.scene, ho.trace⟩

/-- Polling the children of a composite from the cursor on. -/
lemma pollFrom (h : List.Forall₂ (Branch.Paired R) ts ts') (id : NodeId) (kind : CompositeKind)
    (cascade : Bool) (skip : Nat) (hs : scene.Paired B scene')
    (hpoll : ∀ turn, Turns kind cascade skip ts scene turn → Agrees R B turn.child turn.scene) :
    (Branch.pollFrom id kind cascade skip ts scene).Paired
      (fun p p' => p'.1 = p.1 ∧ List.Forall₂ (Branch.Paired R) p.2 p'.2) B
      (Branch.pollFrom id kind cascade skip ts' scene') := by
  induction h generalizing skip scene scene' with
  | nil => exact ⟨rfl, ⟨rfl, .nil⟩, hs, rfl⟩
  | @cons t t' us us' ht hus ih =>
      cases skip with
      | succ skip =>
          have ho := ih skip hs fun turn hturn =>
            hpoll { turn with done := t :: turn.done } (.skips hturn)
          rw [Branch.pollFrom, Branch.pollFrom]
          exact ⟨ho.status, ⟨ho.part.1, .cons ht ho.part.2⟩, ho.scene, ho.trace⟩
      | zero =>
          have ho : (t.poll scene).Paired (Branch.Paired R) B (t'.poll scene') :=
            hpoll ⟨[], 0, [], t, us, scene⟩ (.here t us scene) t' scene' ht hs
          by_cases hstop : (t.poll scene).status = kind.advancesOn
          · have hstop' := ho.status.trans hstop
            cases hus with
            | nil =>
                rw [Branch.pollFrom_ends hstop, Branch.pollFrom_ends hstop']
                exact ⟨ho.status, ⟨rfl, .cons ho.part .nil⟩, ho.scene, ho.trace⟩
            | @cons u u' us us' hu hus =>
                cases hc : cascade with
                | true =>
                    have hrest := ih 0 ho.scene fun turn hturn =>
                      hpoll ⟨(t.poll scene).trace ++ turn.early, turn.moves + 1,
                        (t.poll scene).part :: turn.done, turn.child, turn.rest, turn.scene⟩
                        (.onward hstop hc hturn)
                    rw [hc] at hrest
                    rw [Branch.pollFrom_cascades hstop rfl, Branch.pollFrom_cascades hstop' rfl]
                    refine ⟨hrest.status, ⟨?_, .cons ho.part hrest.part.2⟩, hrest.scene, ?_⟩
                    · exact congrArg (· + 1) hrest.part.1
                    · simp only [Outcome.trace_after, Outcome.trace_map, ho.trace, hrest.trace]
                | false =>
                    rw [Branch.pollFrom_pauses hstop rfl, Branch.pollFrom_pauses hstop' rfl]
                    refine ⟨rfl, ⟨rfl, .cons ho.part (.cons hu hus)⟩, ho.scene, ?_⟩
                    simp only [ho.trace]
          · have hstop' : (t'.poll scene').status ≠ kind.advancesOn := ho.status ▸ hstop
            rw [Branch.pollFrom_stops hstop, Branch.pollFrom_stops hstop']
            exact ⟨ho.status, ⟨rfl, .cons ho.part hus⟩, ho.scene, ho.trace⟩

/-- A leaf is related to leaves alone. -/
lemma exists_leaf (hT : Tandem calm R B) (hn : R n n') {l : L} (hleaf : n.kind.leaf? = some l) :
    ∃ l', n'.kind.leaf? = some l' := by
  have hkind := hT.kind hn
  obtain ⟨id, kind, state⟩ := n
  obtain ⟨id', kind', state'⟩ := n'
  cases hkind with
  | leaf l l' => exact ⟨l', rfl⟩
  | _ => cases hleaf

lemma leafless (hT : Tandem calm R B) (hn : R n n') (hleaf : n.kind.leaf? = none) :
    n'.kind.leaf? = none := by
  have hkind := hT.kind hn
  obtain ⟨id, kind, state⟩ := n
  obtain ⟨id', kind', state'⟩ := n'
  cases hkind with
  | leaf => cases hleaf
  | _ => rfl

/-- Beginning an activation, unless one is under way. -/
lemma begin (hT : Tandem calm R B) (hn : R n n') (hleaf : n.kind.leaf? = none)
    (hcalm : calm n scene) (hs : scene.Paired B scene') :
    R (n.begin scene).1 (n'.begin scene').1 ∧
      (n.begin scene).2.1.Paired B (n'.begin scene').2.1 ∧
      (n'.begin scene').2.2 = (n.begin scene).2.2 := by
  rw [Node.begin, Node.begin, hT.started hn]
  cases hstarted : n.state.started with
  | true => exact ⟨hn, hs, rfl⟩
  | false =>
      obtain ⟨hactive, hscene⟩ := hT.activate hn hstarted hleaf hcalm hs
      refine ⟨hactive, hscene, ?_⟩
      have hid := hT.id hn
      have hkind := hT.kind hn
      obtain ⟨id, kind, state⟩ := n
      obtain ⟨id', kind', state'⟩ := n'
      cases hkind with
      | leaf => cases hleaf
      | _ => exact congrArg (fun id => [Event.start id]) hid

/-- Running nodes that have an activation under way. -/
lemma run (hT : Tandem calm R B) (hn : R n n') (hleaf : n.kind.leaf? = none)
    (hstarted : n.state.started = true) (hts : List.Forall₂ (Branch.Paired R) ts ts')
    (hs : scene.Paired B scene')
    (hpoll : ∀ turn, n.Polls ts scene turn → Agrees R B turn.child turn.scene) :
    (runBelow (node n ts) scene).Paired (Branch.Paired R) B (runBelow (node n' ts') scene') := by
  have hid := hT.id hn
  have hkind := hT.kind hn
  have hmove := fun cursor => hT.move hn cursor
  rw [runBelow, runBelow]
  obtain ⟨id, kind, state⟩ := n
  obtain ⟨id', kind', state'⟩ := n'
  obtain rfl : id' = id := hid
  cases hkind with
  | root =>
      rw [Node.run_root rfl, Node.run_root rfl]
      have ho := pollFirst hts hs fun t us heq => hpoll ⟨[], 0, [], t, us, scene⟩ (heq ▸ .root rfl)
      exact ⟨ho.status, .node hn ho.part, ho.scene, ho.trace⟩
  | @composite kind cascade cursor cursor' hcursor =>
      obtain rfl := hcursor hstarted
      rw [Node.run_composite rfl, Node.run_composite rfl]
      have ho := pollFrom hts id' kind cascade cursor' hs fun turn hturn =>
        hpoll turn (.composite rfl hturn)
      refine ⟨ho.status, .node ?_ ho.part.2, ho.scene, ho.trace⟩
      rw [ho.part.1]
      exact hmove _
  | @decorator rule rule' gate gate' hmap _ hgate =>
      have hadmits := hgate hstarted _ _ hs.board
      cases ha : Node.admits rule gate scene.board with
      | true =>
          rw [Node.run_admitted rfl ha, Node.run_admitted rfl (hadmits.trans ha)]
          have ho := pollFirst hts hs fun t us heq =>
            hpoll ⟨[], 0, [], t, us, scene⟩ (heq ▸ .decorator rfl ha)
          refine ⟨?_, .node hn ho.part, ho.scene, ho.trace⟩
          simp only [ho.status, hmap]
      | false =>
          rw [Node.run_refused rfl ha, Node.run_refused rfl (hadmits.trans ha)]
          exact ⟨rfl, .node hn hts, hs, rfl⟩
  | leaf => cases hleaf

/-- The end of the poll of a node that is no leaf changes the node alone. -/
lemma conclude_of_leafless (hleaf : n.kind.leaf? = none) (status : Status) (scene : Scene δ) :
    (n.conclude status scene).2 = (scene, []) := by
  obtain ⟨id, kind, state⟩ := n
  rw [Node.conclude]
  cases kind with
  | leaf l => cases hleaf
  | _ => split <;> rfl

/-- Related nodes clear what is below them on the same results. -/
lemma clearsOn_eq (hT : Tandem calm R B) (hn : R n n') (status : Status) :
    n'.clearsOn status = n.clearsOn status := by
  have hkind := hT.kind hn
  obtain ⟨id, kind, state⟩ := n
  obtain ⟨id', kind', state'⟩ := n'
  cases hkind with
  | decorator _ hresets => exact congrFun hresets status
  | _ => rfl

lemma leaf?_eq_none_of_static (h : n'.static = n.static) (hleaf : n.kind.leaf? = none) :
    n'.kind.leaf? = none := by
  have hstatic : ∀ k : NodeKind L, k.static.leaf?.isNone = k.leaf?.isNone := by
    intro k
    cases k <;> rfl
  rw [← Option.isNone_iff_eq_none] at hleaf ⊢
  rw [← hstatic, Node.kind_eq_of_static h, hstatic, hleaf]

lemma settle (hT : Tandem calm R B) (hn : R n n') (hts : List.Forall₂ (Branch.Paired R) ts ts')
    (status : Status) :
    List.Forall₂ (Branch.Paired R) (n.settle status ts) (n'.settle status ts') := by
  rw [Node.settle, Node.settle, hT.clearsOn_eq hn]
  by_cases hclears : n.clearsOn status = true
  · rw [if_pos hclears, if_pos hclears, List.forall₂_map_left_iff, List.forall₂_map_right_iff]
    exact hts.imp fun _ _ h => h.map hT.clear
  · rw [if_neg hclears, if_neg hclears]
    exact hts

/-- Ending the polls of nodes that are no leaves. -/
lemma conclude_paired (hT : Tandem calm R B) {o o' : Outcome (Branch (Node L)) δ}
    (h : o.Paired (Branch.Paired R) B o') (hleaf : o.part.label.kind.leaf? = none)
    (id : NodeId) (begun : Trace) :
    (o.conclude id begun).Paired (Branch.Paired R) B (o'.conclude id begun) := by
  have hn := h.part.label
  have hended := hT.conclude hn hleaf o.status o.scene o'.scene
  have hquiet := conclude_of_leafless hleaf o.status o.scene
  have hquiet' := conclude_of_leafless (hT.leafless hn hleaf) o.status o'.scene
  rw [Outcome.conclude, Outcome.conclude, h.status]
  refine ⟨rfl, .node hended (hT.settle hended h.part.children o.status), ?_, ?_⟩
  · simp only [hquiet, hquiet']
    exact h.scene
  · simp only [hquiet, hquiet', h.trace]

/-- What is below a leaf stays out of its poll. -/
lemma poll_of_leaf {l : L} (hleaf : n.kind.leaf? = some l) (ts : List (Branch (Node L)))
    (scene : Scene δ) :
    (node n ts).poll scene = ((node n []).poll scene).map fun t => node t.label ts := by
  have hsettle : ∀ (id : NodeId) (l : L) (state : NodeState) (status : Status) (scene : Scene δ)
      (ts : List (Branch (Node L))),
      ((⟨id, .leaf l, state⟩ : Node L).conclude status scene).1.settle status ts = ts := by
    intro id l state status scene ts
    rw [Node.conclude]
    split <;> rfl
  have hkind : ∃ l, n.kind = .leaf l := by
    obtain ⟨id, kind, state⟩ := n
    cases kind with
    | leaf l => exact ⟨l, rfl⟩
    | _ => cases hleaf
  obtain ⟨l', hl'⟩ := Node.exists_leaf_of_static (n.static_begin scene).symm hkind
  rw [poll_node, poll_node, Node.run_leaf hl', Node.run_leaf hl', Outcome.conclude,
    Outcome.conclude]
  simp only [label_node, children_node, hsettle]
  rfl

/-- **Polls of paired trees over related scenes come to the same**, if every visit in their course
is calm. -/
theorem poll (hT : Tandem calm R B) {t t' : Branch (Node L)} (h : t.Paired R t')
    (hs : scene.Paired B scene') (hcalm : ∀ v, t.Visits scene v → calm v.branch.label v.scene) :
    (t.poll scene).Paired (Branch.Paired R) B (t'.poll scene') := by
  induction t generalizing t' scene scene' with
  | node n ts ih =>
      cases h with
      | @node _ n' _ ts' hn hts =>
          have hself : calm n scene := hcalm _ (.here _ scene)
          cases hleaf : n.kind.leaf? with
          | some l =>
              obtain ⟨l', hleaf'⟩ := hT.exists_leaf hn hleaf
              have ho := hT.leaf hn hleaf hself hs
              rw [poll_of_leaf hleaf, poll_of_leaf hleaf']
              exact ⟨ho.status, .node ho.part.label hts, ho.scene, ho.trace⟩
          | none =>
              obtain ⟨hbegun, hscene, htrace⟩ := hT.begin hn hleaf hself hs
              have hleaf' := leaf?_eq_none_of_static (n.static_begin scene) hleaf
              have ho := hT.run hbegun hleaf' (n.started_begin scene) hts hscene
                fun turn hturn t' scene' ht hs => by
                  refine ih turn.child hturn.child_mem ht hs fun v hv => ?_
                  have hbelow := hcalm _ (.under hturn hv)
                  exact hbelow
              have hlabel := leaf?_eq_none_of_static
                (static_label_run (n.begin scene).1 ts (n.begin scene).2.1) hleaf'
              have hended := hT.conclude_paired ho hlabel n.id (n.begin scene).2.2
              rw [poll_eq_conclude, poll_eq_conclude, htrace, Node.id_begin, Node.id_begin,
                hT.id hn]
              exact hended

end Poll

/-- Kinds that run alike do so on any scenes before an activation is under way. -/
lemma concurs_of_idle {p q : Prop} {B B' : Blackboard → Blackboard → Prop} {k k' : NodeKind L}
    (h : k.Concurs p B k') (hq : ¬q) : k.Concurs q B' k' := by
  cases h with
  | root => exact .root
  | composite kind cascade => exact .composite kind cascade fun hstarted => absurd hstarted hq
  | decorator hmap hresets => exact .decorator hmap hresets fun hstarted => absurd hstarted hq
  | leaf l l' => exact .leaf l l'

/-- **Idle nodes go in tandem** on any blackboards as long as nothing is polled. -/
theorem idle [Behavior L δ] {calm : Node L → Scene δ → Prop} {R : Node L → Node L → Prop}
    {B : Blackboard → Blackboard → Prop} (hT : Tandem calm R B)
    (B' : Blackboard → Blackboard → Prop) :
    Tandem (δ := δ) (fun _ _ => False) (fun n n' => R n n' ∧ n.state.started = false) B' where
  id h := hT.id h.1
  started h := hT.started h.1
  kind h := concurs_of_idle (hT.kind h.1) (by simp [h.2])
  activate _ _ _ _ _ hcalm := hcalm.elim
  leaf _ _ _ _ hcalm := hcalm.elim
  move h cursor := ⟨hT.move h.1 cursor, h.2⟩
  conclude {n _} h hleaf status scene scene' := by
    refine ⟨hT.conclude h.1 hleaf status scene scene', ?_⟩
    obtain ⟨id, kind, state⟩ := n
    rw [Node.conclude]
    cases kind with
    | leaf l => cases hleaf
    | _ =>
        split
        · rfl
        · exact h.2
  clear h := ⟨hT.clear h.1, rfl⟩
  rearm h := ⟨hT.rearm h.1, rfl⟩

end Tandem

/-! ## Runs in tandem -/

/-- What a blackboard holds, where a tree that has not been started counts as holding nothing. -/
def Tree.held (t : Tree L) : Blackboard := t.board.getD .empty

/-- The trees show paired nested trees, and their blackboards are related. -/
structure Tree.Paired (R : Node L → Node L → Prop) (B : Blackboard → Blackboard → Prop)
    (t t' : Tree L) : Prop where
  shown : ∃ b b', t.Shows b ∧ t'.Shows b' ∧ b.Paired R b'
  started : t'.isStarted = t.isStarted
  board : B t.held t'.held
  state : t'.state = t.state

/-- What related nodes have in common is the same throughout paired trees. -/
lemma Tree.Paired.map_eq {R : Node L → Node L → Prop} {B : Blackboard → Blackboard → Prop}
    {t t' : Tree L} {α : Type} {f : Node L → α} (hf : ∀ n n', R n n' → f n' = f n)
    (h : t.Paired R B t') :
    t'.arena.map (fun slot => (⟨f slot.label, slot.children⟩ : Slot α)) =
      t.arena.map fun slot => ⟨f slot.label, slot.children⟩ := by
  obtain ⟨b, b', hb, hb', hpaired⟩ := h.shown
  rw [hb.arena, hb'.arena, ← layout_map, ← layout_map, hpaired.map_eq hf]

/-- Every call of the run is allowed of the tree that it is made of. -/
def Tree.Along [Behavior L δ] (allowed : Tree L → Call δ → Prop) (t : Tree L) :
    List (Call δ) → Prop
  | [] => True
  | call :: calls => allowed t call ∧ (t.perform call).1.Along allowed calls

lemma Tree.Along.append_left [Behavior L δ] {allowed : Tree L → Call δ → Prop} {t : Tree L}
    {calls later : List (Call δ)} (h : t.Along allowed (calls ++ later)) :
    t.Along allowed calls := by
  induction calls generalizing t with
  | nil => trivial
  | cons call calls ih => exact ⟨h.1, ih h.2⟩

lemma Tree.along_of_forall [Behavior L δ] (allowed : Call δ → Prop) {calls : List (Call δ)}
    (h : ∀ call ∈ calls, allowed call) (t : Tree L) : t.Along (fun _ => allowed) calls := by
  induction calls generalizing t with
  | nil => trivial
  | cons call calls ih =>
      exact ⟨h call List.mem_cons_self, ih (fun c hc => h c (List.mem_cons_of_mem _ hc)) _⟩

namespace Tandem

section Tree

variable [Behavior L δ] {calm : Node L → Scene δ → Prop} {R : Node L → Node L → Prop}
  {B : Blackboard → Blackboard → Prop} {t t' : Tree L}

/-- The boards of trees in tandem: both are there and related, or neither is. -/
lemma board_cases (h : t.Paired R B t') : t.board = none ∧ t'.board = none ∨
    ∃ board board', t.board = some board ∧ t'.board = some board' ∧ B board board' := by
  have hstarted := h.started
  have hboard := h.board
  rw [Tree.isStarted, Tree.isStarted] at hstarted
  rw [Tree.held, Tree.held] at hboard
  cases ht : t.board with
  | none =>
      rw [ht, Option.isSome_none, Option.isSome_eq_false_iff, Option.isNone_iff_eq_none] at hstarted
      exact .inl ⟨rfl, hstarted⟩
  | some board =>
      rw [ht, Option.isSome_some, Option.isSome_iff_exists] at hstarted
      obtain ⟨board', ht'⟩ := hstarted
      rw [ht, ht'] at hboard
      exact .inr ⟨board, board', rfl, ht', hboard⟩

/-- **An update of trees in tandem** comes back with the same if it is calm, and leaves trees in
tandem behind. -/
lemma update (hT : Tandem calm R B) (h : t.Paired R B t') {driver : δ}
    (hcalm : ∀ v : Visit L δ, t.ComesTo driver v → calm v.branch.label v.scene) :
    t'.reply (.update driver) = t.reply (.update driver) ∧
      (t.perform (.update driver)).1.Paired R B (t'.perform (.update driver)).1 := by
  rcases board_cases h with ⟨hboard, hboard'⟩ | ⟨board, board', hboard, hboard', hrelated⟩
  · simp only [Tree.reply, Tree.perform, Tree.update, hboard, hboard']
    exact ⟨trivial, h⟩
  · obtain ⟨b, b', hb, hb', hpaired⟩ := h.shown
    cases hstate : t.state.isTerminal with
    | true =>
        have hstate' : t'.state.isTerminal = true := by rw [h.state, hstate]
        simp only [Tree.reply, Tree.perform, Tree.update_of_terminal hboard hstate,
          Tree.update_of_terminal hboard' hstate', h.state]
        exact ⟨trivial, h⟩
    | false =>
        have hrunning := Status.isTerminal_eq_false_iff.mp hstate
        have hs : Scene.Paired B (⟨board, driver⟩ : Scene δ) ⟨board', driver⟩ := ⟨hrelated, rfl⟩
        have ho := hT.poll hpaired hs fun v hv =>
          hcalm v ⟨b, board, hb.branch?, hboard, hrunning, hv⟩
        have hshown := hb.of_static (map_static_poll b ⟨board, driver⟩)
          (u := (t.perform (.update driver)).1) (by
            rw [Tree.perform, hb.update hboard hrunning])
        have hshown' := hb'.of_static (map_static_poll b' ⟨board', driver⟩)
          (u := (t'.perform (.update driver)).1) (by
            rw [Tree.perform, hb'.update hboard' (h.state.trans hrunning)])
        refine ⟨?_, ⟨_, _, hshown, hshown', ho.part⟩, ?_, ?_, ?_⟩ <;>
          simp only [Tree.reply, Tree.perform, hb.update hboard hrunning,
            hb'.update hboard' (h.state.trans hrunning)]
        · rw [ho.status, ho.trace, ho.scene.driver]
        · rfl
        · exact ho.scene.board
        · exact ho.status

/-- **A call on trees in tandem** comes back with the same, and leaves trees in tandem behind. -/
lemma perform (hT : Tandem calm R B) (h : t.Paired R B t') (call : Call δ)
    (hcalm : ∀ driver, call = .update driver → ∀ v : Visit L δ, t.ComesTo driver v →
      calm v.branch.label v.scene)
    (hedit : ∀ f, call = .edit f → B (t.editBoard f).held (t'.editBoard f).held) :
    t'.reply call = t.reply call ∧ (t.perform call).1.Paired R B (t'.perform call).1 := by
  obtain ⟨b, b', hb, hb', hpaired⟩ := h.shown
  have hrests : ∀ {u u' : Tree L}, u.arena = t.arena → u'.arena = t'.arena →
      ∃ c c', u.Shows c ∧ u'.Shows c' ∧ c.Paired R c' := fun hu hu' =>
    ⟨b, b', ⟨hu.trans hb.arena, hb.nodup⟩, ⟨hu'.trans hb'.arena, hb'.nodup⟩, hpaired⟩
  cases call with
  | start =>
      rcases board_cases h with ⟨hboard, hboard'⟩ | ⟨board, board', hboard, hboard', -⟩
      · have hrelated := h.board
        simp only [Tree.held, hboard, hboard'] at hrelated
        simp only [Tree.reply, Tree.perform, Tree.start, hboard, hboard']
        exact ⟨trivial, hrests rfl rfl, rfl, hrelated, h.state⟩
      · simp only [Tree.reply, Tree.perform, Tree.start, hboard, hboard']
        exact ⟨trivial, h⟩
  | update driver => exact hT.update h (hcalm driver rfl)
  | halt =>
      exact ⟨rfl, hrests rfl rfl, h.started, h.board, rfl⟩
  | rearm => exact ⟨rfl, ⟨_, _, hb.rearm, hb'.rearm, hpaired.map hT.rearm⟩, h.started, h.board, rfl⟩
  | edit f =>
      refine ⟨rfl, hrests rfl rfl, ?_, hedit f rfl, h.state⟩
      have hstarted := h.started
      simp only [Tree.isStarted] at hstarted
      simp only [Tree.perform, Tree.editBoard, Tree.isStarted, Option.isSome_map, hstarted]

/-- **A run of trees in tandem** comes back with the same, and leaves trees in tandem behind. -/
theorem replies (hT : Tandem calm R B) (allowed : Tree L → Call δ → Prop)
    (hcalm : ∀ {t driver}, allowed t (.update driver) → ∀ v : Visit L δ, t.ComesTo driver v →
      calm v.branch.label v.scene)
    (hedit : ∀ {t t' f}, t.Paired R B t' → allowed t (.edit f) →
      B (t.editBoard f).held (t'.editBoard f).held)
    (h : t.Paired R B t') {calls : List (Call δ)} (hcalls : t.Along allowed calls) :
    t'.replies calls = t.replies calls ∧
      (t.performAll calls).1.Paired R B (t'.performAll calls).1 := by
  induction calls generalizing t t' with
  | nil => exact ⟨rfl, h⟩
  | cons call calls ih =>
      obtain ⟨hreply, hnow⟩ := hT.perform h call (fun _ heq => hcalm (heq ▸ hcalls.1))
        fun _ heq => hedit h (heq ▸ hcalls.1)
      obtain ⟨hreplies, hlater⟩ := ih hnow hcalls.2
      refine ⟨?_, hlater⟩
      rw [Tree.replies, Tree.replies, hreply, hreplies]

end Tree

end Tandem

end BehaviorTree
