import BehaviorTree.Proofs.Footprint

/-!
# Gates that are evaluated once

A gate that is evaluated once is read off the blackboard when an activation begins, and what it was
is kept in the node, through pauses, until the activation ends or is broken off.  Any other gate is
read at every poll.  As long as nothing touches the key of the gate the two come to the same, so
that evaluating a gate once is a matter of speed alone.

* `Tree.switch` — the tree with the choice of some gates switched over.
* `Tree.Undisturbed` — a run in which nothing that happens changes what is under the given keys: no
  hook of a leaf, no counting decorator and no edit.
  **`Shows.undisturbed`**: so is every run, if leaves are blind, and counts and edits are elsewhere.
* `NodeKind.Switched` — what ties the two trees together: a cached gate is what the gate is on the
  blackboard that the undisturbed run began with.  **`tandem_switched`**: so they go in tandem.
* **`Fresh.switch_unobservable`** — the two trees come back with the same, and at every point of the
  run they are the same but for what is cached.
-/

namespace BehaviorTree

open Branch

variable {L δ : Type}

/-! ## Switching gates over -/

namespace DecoratorRule

/-- A gate that is evaluated once is to be evaluated at every poll, and the other way round. -/
def toggled : DecoratorRule → DecoratorRule
  | compare key op threshold once => compare key op threshold !once
  | hasValue key absent once => hasValue key absent !once
  | rule => rule

/-- The key that the gate of the rule reads. -/
def gateKey? : DecoratorRule → Option String
  | compare key _ _ _ => some key
  | hasValue key _ _ => some key
  | _ => none

end DecoratorRule

def NodeKind.toggled : NodeKind L → NodeKind L
  | decorator rule gate => decorator rule.toggled gate
  | kind => kind

def Node.switch (S : NodeId → Bool) (n : Node L) : Node L :=
  if S n.id then { n with kind := n.kind.toggled } else n

namespace Tree

/-- The tree with the gates of some nodes switched over. -/
def switch (S : NodeId → Bool) (t : Tree L) : Tree L :=
  { t with arena := t.arena.relabelAll (Node.switch S) }

/-- The keys that the gates of some nodes read. -/
def gateKeys (S : NodeId → Bool) (t : Tree L) : List String :=
  t.arena.filterMap fun slot =>
    if S slot.label.id then slot.label.kind.rule?.bind DecoratorRule.gateKey? else none

end Tree

/-! ## Runs that leave keys alone -/

/-- The blackboards hold the same under the keys. -/
def Blackboard.SameAt (keys : List String) (b b' : Blackboard) : Prop :=
  ∀ key ∈ keys, b'.get? key = b.get? key

/-- In a poll on the scene the node itself leaves alone what is under the keys: neither the
beginning of an activation nor, in a leaf, any hook in the poll changes it. -/
structure Node.Spares [Behavior L δ] (keys : List String) (n : Node L) (scene : Scene δ) :
    Prop where
  begin : scene.board.SameAt keys (n.begin scene).2.1.board
  leaf : ∀ l, n.kind.leaf? = some l →
    scene.board.SameAt keys ((Branch.node n []).poll scene).scene.board

namespace Tree

variable [Behavior L δ]

/-- The call leaves alone what is under the keys: every node does that an update comes to, and an
edit does. -/
def Spares (keys : List String) (t : Tree L) : Call δ → Prop
  | .update driver =>
    ∀ v : Visit L δ, t.ComesTo driver v → v.branch.label.Spares keys v.scene
  | .edit f => t.held.SameAt keys (t.editBoard f).held
  | _ => True

/-- Every call of the run leaves alone what is under the keys. -/
def Undisturbed (keys : List String) (t : Tree L) (calls : List (Call δ)) : Prop :=
  t.Along (Spares keys) calls

end Tree

/-- What is recorded about a node, but for a cached gate. -/
def Snapshot.ungated (s : Snapshot) : Snapshot := { s with cachedGate := none }

/-- Trees that are the same but for whether gates are evaluated once, and for what is cached. -/
structure Tree.Accords (t u : Tree L) : Prop where
  board : u.board = t.board
  state : u.state = t.state
  leaves : u.leaves = t.leaves
  snapshot : u.snapshot.map Snapshot.ungated = t.snapshot.map Snapshot.ungated

/-! ## Rules that are switched over -/

namespace DecoratorRule

variable (rule : DecoratorRule) {b b' fixed : Blackboard} {gate : Bool}

@[simp] lemma gate_toggled (b : Blackboard) : rule.toggled.gate b = rule.gate b := by
  cases rule <;> rfl

@[simp] lemma onStart_toggled (b : Blackboard) : rule.toggled.onStart b = rule.onStart b := by
  cases rule <;> rfl

@[simp] lemma map_toggled : rule.toggled.map = rule.map := by
  cases rule <;> rfl

@[simp] lemma resetsOn_toggled : rule.toggled.resetsOn = rule.resetsOn := by
  cases rule <;> rfl

@[simp] lemma tag_toggled : rule.toggled.tag = rule.tag := by
  cases rule <;> rfl

variable {rule}

/-- A gate reads what is under its key alone. -/
lemma gate_eq_of_key (h : ∀ key, rule.gateKey? = some key → b'.get? key = b.get? key) :
    rule.gate b' = rule.gate b := by
  cases rule with
  | compare key op threshold once =>
      rw [gate, gate, Blackboard.intOr, Blackboard.intOr, h key rfl]
  | hasValue key absent once =>
      rw [gate, gate, Blackboard.contains, Blackboard.contains, h key rfl]
  | _ => rfl

/-- A gate that has been cached where it was as it is now is as it is now. -/
lemma admits_of_cached (hgate : rule.evaluatesOnce = true → gate = rule.gate fixed)
    (hb : rule.gate b = rule.gate fixed) : Node.admits rule gate b = rule.gate fixed := by
  rw [Node.admits]
  split
  · next honce => exact hgate honce
  · exact hb

end DecoratorRule

/-! ## Nodes that are switched over -/

/-- The kinds are the same, or one evaluates its gate once and the other does at every poll.  While
an activation is under way, a cached gate is what the gate is on the fixed blackboard. -/
inductive NodeKind.Switched (keys : List String) (fixed : Blackboard) (underway : Prop) :
    NodeKind L → NodeKind L → Prop
  | same (kind : NodeKind L) : Switched keys fixed underway kind kind
  | toggled {rule : DecoratorRule} {gate gate' : Bool} :
    (∀ key, rule.gateKey? = some key → key ∈ keys) →
    (underway → rule.evaluatesOnce = true → gate = rule.gate fixed) →
    (underway → rule.toggled.evaluatesOnce = true → gate' = rule.gate fixed) →
    Switched keys fixed underway (.decorator rule gate) (.decorator rule.toggled gate')

/-- The nodes are the same but for whether the gate is evaluated once, and for what is cached. -/
structure Node.Switched (keys : List String) (fixed : Blackboard) (n n' : Node L) : Prop where
  id : n'.id = n.id
  state : n'.state = n.state
  kind : n.kind.Switched keys fixed (n.state.started = true) n'.kind

section Switched

variable {keys : List String} {fixed b : Blackboard} {p q : Prop} {k k' : NodeKind L}
  {n n' : Node L}

lemma NodeKind.Switched.mono (h : k.Switched keys fixed p k') (hqp : q → p) :
    k.Switched keys fixed q k' := by
  cases h with
  | same => exact .same k
  | toggled hkeys hgate hgate' =>
      exact .toggled hkeys (fun hq => hgate (hqp hq)) fun hq => hgate' (hqp hq)

/-- The gate reads the same of the fixed blackboard and of one that holds the same under the
keys. -/
lemma gate_eq_of_sameAt {rule : DecoratorRule} (h : fixed.SameAt keys b)
    (hkeys : ∀ key, rule.gateKey? = some key → key ∈ keys) : rule.gate b = rule.gate fixed :=
  DecoratorRule.gate_eq_of_key fun key hkey => h key (hkeys key hkey)

/-- Kinds that are switched over run alike: what one has cached the other reads. -/
lemma NodeKind.Switched.concurs (h : k.Switched keys fixed p k') :
    k.Concurs p (fun b b' => b' = b ∧ fixed.SameAt keys b) k' := by
  cases h with
  | same =>
      cases k with
      | root => exact .root
      | composite kind cascade cursor => exact .composite kind cascade fun _ => rfl
      | decorator rule gate =>
          refine .decorator rfl rfl ?_
          rintro _ b _ ⟨rfl, -⟩
          rfl
      | leaf l => exact .leaf l l
  | @toggled rule gate gate' hkeys hgate hgate' =>
      refine .decorator rule.map_toggled rule.resetsOn_toggled ?_
      rintro hp _ b ⟨rfl, hb⟩
      have hread := gate_eq_of_sameAt hb hkeys
      calc Node.admits rule.toggled gate' b
          = rule.toggled.gate fixed :=
            DecoratorRule.admits_of_cached (by simpa using hgate' hp) (by simpa using hread)
        _ = rule.gate fixed := rule.gate_toggled fixed
        _ = Node.admits rule gate b := (DecoratorRule.admits_of_cached (hgate hp) hread).symm

lemma Node.switched_refl (n : Node L) : n.Switched keys fixed n := ⟨rfl, rfl, .same _⟩

namespace Node.Switched

/-- There is nothing to be switched over in a leaf. -/
lemma eq_of_leaf (h : n.Switched keys fixed n') {l : L} (hleaf : n.kind.leaf? = some l) :
    n' = n := by
  obtain ⟨hid, hstate, hkind⟩ := h
  obtain ⟨id, kind, state⟩ := n
  obtain ⟨id', kind', state'⟩ := n'
  obtain rfl : id' = id := hid
  obtain rfl : state' = state := hstate
  cases hkind with
  | same => rfl
  | toggled => cases hleaf

lemma move (h : n.Switched keys fixed n') (cursor : Nat) :
    ({ n with kind := n.kind.withCursor cursor } : Node L).Switched keys fixed
      { n' with kind := n'.kind.withCursor cursor } := by
  obtain ⟨hid, hstate, hkind⟩ := h
  obtain ⟨id, kind, state⟩ := n
  obtain ⟨id', kind', state'⟩ := n'
  refine ⟨hid, hstate, ?_⟩
  cases hkind with
  | same => exact .same _
  | toggled hkeys hgate hgate' => exact .toggled hkeys hgate hgate'

lemma clear (h : n.Switched keys fixed n') : n.clear.Switched keys fixed n'.clear :=
  ⟨h.id, congrArg NodeState.clear h.state, h.kind.mono fun hstarted => by cases hstarted⟩

lemma rearm (h : n.Switched keys fixed n') : n.rearm.Switched keys fixed n'.rearm := by
  obtain ⟨hid, hstate, hkind⟩ := h
  obtain ⟨id, kind, state⟩ := n
  obtain ⟨id', kind', state'⟩ := n'
  refine ⟨hid, congrArg NodeState.clear hstate, ?_⟩
  cases hkind with
  | same => exact .same _
  | toggled hkeys => exact .toggled hkeys (fun h => by cases h) fun h => by cases h

variable [Behavior L δ]

/-- Nodes that are switched over and are no leaves begin an activation alike, if the node leaves
alone what is under the keys. -/
lemma activate (h : n.Switched keys fixed n') (hleaf : n.kind.leaf? = none) {scene : Scene δ}
    (hspares : scene.board.SameAt keys (n.activate scene).2.1.board)
    (hb : fixed.SameAt keys scene.board) :
    (n.activate scene).1.Switched keys fixed (n'.activate scene).1 ∧
      (n'.activate scene).2.1 = (n.activate scene).2.1 ∧
      fixed.SameAt keys (n.activate scene).2.1.board := by
  have hended : fixed.SameAt keys (n.activate scene).2.1.board :=
    fun key hkey => (hspares key hkey).trans (hb key hkey)
  obtain ⟨hid, hstate, hkind⟩ := h
  obtain ⟨id, kind, state⟩ := n
  obtain ⟨id', kind', state'⟩ := n'
  obtain rfl : id' = id := hid
  obtain rfl : state' = state := hstate
  cases hkind with
  | same => exact ⟨⟨rfl, rfl, .same _⟩, rfl, hended⟩
  | @toggled rule gate gate' hkeys _ _ =>
      have hread : rule.gate (rule.onStart scene.board) = rule.gate fixed :=
        gate_eq_of_sameAt hended hkeys
      refine ⟨⟨rfl, rfl, .toggled hkeys (fun _ honce => ?_) fun _ honce => ?_⟩, ?_, hended⟩
      · rw [if_pos honce, hread]
      · rw [if_pos honce, rule.gate_toggled, rule.onStart_toggled, hread]
      · simp only [Node.activate, rule.onStart_toggled]

/-- Nodes that are switched over and are no leaves end a poll alike. -/
lemma conclude (h : n.Switched keys fixed n') (hleaf : n.kind.leaf? = none) (status : Status)
    (scene scene' : Scene δ) :
    (n.conclude status scene).1.Switched keys fixed (n'.conclude status scene').1 := by
  obtain ⟨hid, hstate, hkind⟩ := h
  obtain ⟨id, kind, state⟩ := n
  obtain ⟨id', kind', state'⟩ := n'
  obtain rfl : id' = id := hid
  obtain rfl : state' = state := hstate
  rw [Node.conclude, Node.conclude]
  split
  · have hdone : kind.Switched keys fixed ((state'.record status).finish.started = true) kind' :=
      hkind.mono fun hstarted => by cases hstarted
    cases hkind with
    | same =>
        cases kind with
        | leaf l => cases hleaf
        | _ => exact ⟨rfl, rfl, hdone⟩
    | toggled => exact ⟨rfl, rfl, hdone⟩
  · exact ⟨rfl, rfl, hkind⟩

end Node.Switched

/-- **Trees whose gates are switched over go in tandem** where their nodes leave alone what is under
the keys of these gates. -/
theorem tandem_switched [Behavior L δ] (keys : List String) (fixed : Blackboard) :
    Tandem (δ := δ) (L := L) (Node.Spares keys) (Node.Switched keys fixed)
      (fun b b' => b' = b ∧ fixed.SameAt keys b) := by
  constructor
  case id => exact Node.Switched.id
  case started => exact fun h => congrArg NodeState.started h.state
  case kind => exact fun h => h.kind.concurs
  case activate =>
    rintro n n' h hidle hleaf ⟨board, driver⟩ ⟨board', driver'⟩ hspares ⟨⟨hboard, hb⟩, hdriver⟩
    obtain rfl : board' = board := hboard
    obtain rfl : driver' = driver := hdriver
    have hbegin := hspares.begin
    rw [Node.begin, hidle] at hbegin
    obtain ⟨hnode, hscene, hended⟩ := h.activate hleaf hbegin hb
    rw [hscene]
    exact ⟨hnode, ⟨rfl, hended⟩, rfl⟩
  case leaf =>
    rintro n n' l h hleaf ⟨board, driver⟩ ⟨board', driver'⟩ hspares ⟨⟨hboard, hb⟩, hdriver⟩
    obtain rfl : board' = board := hboard
    obtain rfl : driver' = driver := hdriver
    have hsame : n' = n := h.eq_of_leaf hleaf
    subst hsame
    have hended := hspares.leaf l hleaf
    exact ⟨rfl, Branch.paired_self fun m _ => Node.switched_refl m,
      ⟨⟨rfl, fun key hkey => (hended key hkey).trans (hb key hkey)⟩, rfl⟩, rfl⟩
  case move => exact fun h => h.move
  case conclude => exact fun h => h.conclude
  case clear => exact Node.Switched.clear
  case rearm => exact Node.Switched.rearm

end Switched

/-! ## What leaves keys alone -/

section Spares

variable [Behavior L δ] {keys : List String} {rules : List DecoratorRule}

/-- A node leaves keys alone if its rule counts under none of them and its leaf is blind. -/
lemma Node.Tracked.spares {n : Node L} (h : n.Tracked rules)
    (hrules : ∀ rule ∈ rules, ∀ key ∈ keys, rule.counter? ≠ some key) (scene : Scene δ) :
    n.Spares keys scene := by
  obtain ⟨id, kind, state⟩ := n
  obtain ⟨board, driver⟩ := scene
  cases kind with
  | leaf l =>
      obtain ⟨l', state', driver', begun, -, hbegin⟩ := (h.leaf l rfl).begin id state driver
      obtain ⟨status, l'', state'', driver'', trace, -, hpoll⟩ :=
        (h.leaf l rfl).poll id state driver
      refine ⟨fun _ _ => ?_, fun _ _ _ _ => ?_⟩
      · rw [hbegin board]
      · rw [hpoll board]
  | decorator rule gate =>
      refine ⟨fun key hkey => ?_, fun l hl => by cases hl⟩
      rw [Node.begin]
      split
      · rfl
      · exact (Blackboard.Keeps.onStart (fun _ _ => rfl) (h.rule rule rfl)) key
          fun rule' hrule' => hrules rule' hrule' key hkey
  | _ =>
      refine ⟨fun key hkey => ?_, fun l hl => by cases hl⟩
      rw [Node.begin]
      split <;> rfl

/-- **Blind leaves, counting elsewhere and editing elsewhere** leave keys alone in every run. -/
theorem Tree.Shows.undisturbed {t : Tree L} {b : Branch (Node L)} (h : t.Shows b)
    (htracked : ∀ slot ∈ t.arena, slot.label.Tracked rules)
    (hrules : ∀ rule ∈ rules, ∀ key ∈ keys, rule.counter? ≠ some key) {calls : List (Call δ)}
    (hedits : ∀ f, .edit f ∈ calls → ∀ board : Blackboard, board.SameAt keys (f board)) :
    t.Undisturbed keys calls := by
  induction calls generalizing t b with
  | nil => trivial
  | cons call calls ih =>
      obtain ⟨c, hc, -⟩ := h.perform call
      have hlater := (Node.lasting_tracked rules).performAll htracked [call]
      refine ⟨?_, ih hc hlater fun f hf => hedits f (List.mem_cons_of_mem _ hf)⟩
      cases call with
      | update driver =>
          intro v hv
          obtain ⟨board, -, -, hvisits⟩ := h.exists_visits hv
          have hslot := getElem?_layout_part hvisits.part
          rw [← h.arena] at hslot
          exact (htracked _ (List.mem_of_getElem? hslot)).spares hrules v.scene
      | edit f =>
          intro key hkey
          rw [Tree.held, Tree.held, Tree.editBoard]
          cases hboard : t.board with
          | none => rfl
          | some board => exact hedits f List.mem_cons_self board key hkey
      | _ => trivial

end Spares

/-! ## Runs of trees that are switched over -/

namespace Tree

variable {t u : Tree L} {b : Branch (Node L)} {keys : List String} {fixed : Blackboard}

section Related

variable {R : Node L → Node L → Prop} {B : Blackboard → Blackboard → Prop}

/-- Trees that hold the same have the same blackboard. -/
lemma Paired.board_eq (h : t.Paired R B u) (hB : ∀ {b b'}, B b b' → b' = b) :
    u.board = t.board := by
  rcases Tandem.board_cases h with ⟨hboard, hboard'⟩ | ⟨board, board', hboard, hboard', hrelated⟩
  · rw [hboard, hboard']
  · rw [hboard, hboard', hB hrelated]

lemma Paired.held_editBoard (h : t.Paired R B u) (hB : ∀ {b b'}, B b b' → b' = b)
    (f : Blackboard → Blackboard) : (u.editBoard f).held = (t.editBoard f).held := by
  rw [held, held, editBoard, editBoard, h.board_eq hB]

/-- What is recorded about trees whose nodes are switched over, and what their leaves are. -/
lemma Paired.accords (h : t.Paired R B u) (hB : ∀ {b b'}, B b b' → b' = b)
    (hR : ∀ {n n'}, R n n' → n.Switched keys fixed n') : t.Accords u where
  board := h.board_eq hB
  state := h.state
  leaves := by
    have hsame : ∀ n n', R n n' → n'.kind.leaf? = n.kind.leaf? := by
      intro n n' hn
      have hkind := (hR hn).kind
      obtain ⟨id, kind, state⟩ := n
      obtain ⟨id', kind', state'⟩ := n'
      cases hkind <;> rfl
    have harena := congrArg (List.map Slot.label) (h.map_eq hsame)
    rwa [List.map_map, List.map_map] at harena
  snapshot := by
    let record : Node L → Snapshot := fun n =>
      ⟨n.id, n.kind.tag, n.state, n.kind.cursor?, none⟩
    have hsame : ∀ n n', R n n' → record n' = record n := by
      intro n n' hn
      obtain ⟨hid, hstate, hkind⟩ := hR hn
      obtain ⟨id, kind, state⟩ := n
      obtain ⟨id', kind', state'⟩ := n'
      obtain rfl : id' = id := hid
      obtain rfl : state' = state := hstate
      cases hkind with
      | same => rfl
      | @toggled rule => simp only [record, NodeKind.tag, rule.tag_toggled, NodeKind.cursor?]
    have harena := congrArg (List.map Slot.label) (h.map_eq hsame)
    rw [List.map_map, List.map_map] at harena
    rw [Tree.snapshot, Tree.snapshot, List.map_map, List.map_map]
    exact harena

end Related

/-! ### Switching a fresh tree over -/

lemma Node.switched_switch {S : NodeId → Bool} {n : Node L} (hidle : n.state.started = false)
    (hkeys : S n.id = true →
      ∀ key, n.kind.rule?.bind DecoratorRule.gateKey? = some key → key ∈ keys) :
    n.Switched keys fixed (n.switch S) := by
  rw [Node.switch]
  split
  · next hS =>
    obtain ⟨id, kind, state⟩ := n
    cases kind with
    | decorator rule gate =>
        have hnever : ¬state.started = true := by rw [hidle]; exact Bool.false_ne_true
        exact ⟨rfl, rfl, .toggled (hkeys hS) (fun h => absurd h hnever) fun h => absurd h hnever⟩
    | _ => exact ⟨rfl, rfl, .same _⟩
  · exact Node.switched_refl n

lemma Shows.switch (h : t.Shows b) (S : NodeId → Bool) :
    (t.switch S).Shows (b.map (Node.switch S)) where
  arena := by
    rw [layout_map, ← h.arena]
    rfl
  nodup := by
    have hid : Node.id ∘ Node.switch S = Node.id (L := L) := by
      funext n
      simp only [Function.comp_apply, Node.switch]
      split <;> rfl
    rw [ids, labels_map, List.map_map, hid]
    exact h.nodup

/-- A fresh tree and what switching gates over makes of it. -/
lemma Pristine.paired_switch (h : t.Pristine b) (S : NodeId → Bool) (fixed : Blackboard) :
    t.Paired (fun n n' => n.Switched (t.gateKeys S) fixed n' ∧ n.state.started = false)
      (fun b b' => b' = b) (t.switch S) := by
  refine ⟨⟨b, _, h.toShows, h.toShows.switch S, paired_map fun n hn => ?_⟩, rfl, rfl, rfl⟩
  have hidle : n.state.started = false := congrArg (fun n => n.state.started) (h.nodes n hn).symm
  obtain ⟨slot, hslot, rfl⟩ := h.toShows.exists_of_label hn
  refine ⟨Node.switched_switch hidle fun hS key hkey => ?_, hidle⟩
  refine List.mem_filterMap.mpr ⟨slot, hslot, ?_⟩
  rw [if_pos hS, hkey]

variable [Behavior L δ]

lemma performAll_append (t : Tree L) (calls later : List (Call δ)) :
    (t.performAll (calls ++ later)).1 = ((t.performAll calls).1.performAll later).1 := by
  induction calls generalizing t with
  | nil => rfl
  | cons call calls ih => exact ih _

lemma replies_append (t : Tree L) (calls later : List (Call δ)) :
    t.replies (calls ++ later) = t.replies calls ++ (t.performAll calls).1.replies later := by
  induction calls generalizing t with
  | nil => rfl
  | cons call calls ih => exact congrArg _ (ih _)

/-- A run that is undisturbed from its first update on, of a fresh tree and of the tree with gates
switched over. -/
lemma Fresh.switch_run (h : t.Fresh) (S : NodeId → Bool) (before after : List (Call δ))
    (hbefore : ∀ driver, .update driver ∉ before)
    (hafter : (t.performAll before).1.Undisturbed (t.gateKeys S) after) :
    (t.switch S).replies (before ++ after) = t.replies (before ++ after) ∧
      (t.performAll (before ++ after)).1.Accords ((t.switch S).performAll (before ++ after)).1 := by
  obtain ⟨b, hb⟩ := h.pristine
  let fixed := (t.performAll before).1.held
  have hT := tandem_switched (L := L) (δ := δ) (t.gateKeys S) fixed
  -- Nothing is under way before the first update, and edits may change what gates read.
  have hidle := along_of_forall (fun call : Call δ => ∀ driver, call ≠ .update driver)
    (fun call hcall driver heq => hbefore driver (heq ▸ hcall)) t
  obtain ⟨hearly, hmid⟩ := (hT.idle fun b b' => b' = b).replies _
    (fun hcall => absurd rfl (hcall _)) (fun hpaired _ => hpaired.held_editBoard id _)
    (hb.paired_switch S fixed) hidle
  -- From then on a cached gate is what the gate is on the blackboard as it was then.
  have hnow : (t.performAll before).1.Paired (Node.Switched (t.gateKeys S) fixed)
      (fun b b' => b' = b ∧ fixed.SameAt (t.gateKeys S) b) ((t.switch S).performAll before).1 := by
    obtain ⟨⟨c, c', hc, hc', hpaired⟩, hstarted, hheld, hstate⟩ := hmid
    exact ⟨⟨c, c', hc, hc', hpaired.mono fun _ _ hn => hn.1⟩, hstarted,
      ⟨hheld, fun _ _ => rfl⟩, hstate⟩
  obtain ⟨hlate, hend⟩ := hT.replies (Spares (t.gateKeys S)) (fun hspares => hspares)
    (fun hpaired hspares => ⟨hpaired.held_editBoard And.left _,
      fun key hkey => (hspares key hkey).trans (hpaired.board.2 key hkey)⟩) hnow hafter
  rw [replies_append, replies_append, performAll_append, performAll_append, hearly, hlate]
  exact ⟨rfl, hend.accords And.left fun hn => hn⟩

/-- **Evaluating a gate once cannot be observed** where nothing touches the key.  Switch any gates
of a fresh tree over, and take a run in which, from the first update on, nothing changes what is
under the keys of these gates.  Then every call comes back with the same, with all that happens in
its course, and at every point of the run the two trees have the same blackboard, the same private
fields of leaves, and the same recorded about every node but for its cached gate. -/
theorem Fresh.switch_unobservable (h : t.Fresh) (S : NodeId → Bool) {before after : List (Call δ)}
    (hbefore : ∀ driver, .update driver ∉ before)
    (hafter : (t.performAll before).1.Undisturbed (t.gateKeys S) after) :
    (t.switch S).replies (before ++ after) = t.replies (before ++ after) ∧
      ∀ done, done <+: before ++ after →
        (t.performAll done).1.Accords ((t.switch S).performAll done).1 := by
  refine ⟨(h.switch_run S before after hbefore hafter).1, ?_⟩
  rintro done ⟨rest, hdone⟩
  rcases List.append_eq_append_iff.mp hdone with ⟨waiting, rfl, -⟩ | ⟨late, rfl, rfl⟩
  · have hrun := h.switch_run S done []
      (fun driver hmem => hbefore driver (List.mem_append_left _ hmem)) trivial
    rw [List.append_nil] at hrun
    exact hrun.2
  · exact (h.switch_run S before late hbefore (Along.append_left hafter)).2

/-- A gate that has been cached over several updates, and the same gate read at each of them. -/
theorem switch_unobservable_flag :
    let t : Tree Constant := ofBranch (.node (.fresh ⟨0⟩ .root)
      [.node (.fresh ⟨1⟩ (.composite .sequence true 0))
        [.node (.fresh ⟨2⟩ (.decorator (.increment "n") false))
          [.node (.fresh ⟨3⟩ (.leaf .succeed)) []],
        .node (.fresh ⟨4⟩ (.decorator (.hasValue "flag" false true) false))
          [.node (.fresh ⟨5⟩ (.leaf .running)) []]]])
    let S : NodeId → Bool := fun id => id == ⟨4⟩
    let before : List (Call Unit) := [.start, .edit (·.set "flag" (.bool true))]
    let after : List (Call Unit) :=
      [.update (), .edit (·.set "other" (.int 1)), .update (), .halt, .rearm, .update ()]
    let now := (t.performAll (before ++ after)).1
    let other := ((t.switch S).performAll (before ++ after)).1
    Tree.build .standard (some (.sequence [
        .decorate (.increment "n") (.leaf none Constant.succeed),
        .decorate (.hasValue "flag" false true) (.leaf none .running)])) = .ok t ∧
      t.gateKeys S = ["flag"] ∧
      (t.performAll before).1.Undisturbed ["flag"] after ∧
      now.snapshot.map Snapshot.cachedGate = [none, none, some false, none, some true, none] ∧
      other.snapshot.map Snapshot.cachedGate = [none, none, some false, none, some false, none] ∧
      (t.switch S).replies (before ++ after) = t.replies (before ++ after) ∧ now.Accords other := by
  intro t S before after now other
  have hbuild : Tree.build .standard (some (.sequence [
      .decorate (.increment "n") (.leaf none Constant.succeed),
      .decorate (.hasValue "flag" false true) (.leaf none .running)])) = .ok t := rfl
  have hfresh : t.Fresh := .built .standard _ hbuild
  have hundisturbed : (t.performAll before).1.Undisturbed ["flag"] after := by
    obtain ⟨b, hb⟩ := hfresh.pristine
    obtain ⟨c, hc, -⟩ := hb.toShows.performAll before
    refine hc.undisturbed (tracked_of_blind fun l _ => l.blind) ?_ ?_
    · have hrules : (t.performAll before).1.rules =
          [.increment "n", .hasValue "flag" false true] := rfl
      rw [hrules]
      decide
    · intro f hf board key hkey
      obtain rfl : f = (·.set "other" (.int 1)) := by simpa [after] using hf
      obtain rfl := List.mem_singleton.mp hkey
      rw [Blackboard.get?_set, if_neg (by decide)]
  obtain ⟨hreplies, halike⟩ := hfresh.switch_unobservable S (by simp [before]) hundisturbed
  exact ⟨hbuild, rfl, hundisturbed, by decide +kernel, by decide +kernel, hreplies,
    halike _ List.prefix_rfl⟩

end Tree

end BehaviorTree
