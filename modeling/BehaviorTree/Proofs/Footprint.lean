import BehaviorTree.Proofs.Copying
import BehaviorTree.Proofs.Tandem

/-!
# What the engine reads of a blackboard, and what it writes

Apart from the hooks of leaves, the engine reads a blackboard in two ways: as an integer, under the
keys of comparing and of counting decorators, and for whether there is something, under the keys of
the other gates.  It writes under the keys of counting decorators alone.

* `DecoratorRule.Sees` — a rule reads the same of two blackboards.
* `Behavior.Blind` — the hooks of the leaf neither read nor write a blackboard, now and whatever
  they make of the leaf.
* **`sees_onStart`** — counting keeps what the rules read the same, also where they share keys.
  **`tandem_tracked`**: so copies of a tree go in tandem.
* **`Fresh.footprint`** — two copies of a tree of which every rule reads the same do the same for
  ever (`Tree.Twins`), if the leaves are blind.
-/

namespace BehaviorTree

open Relation

variable {L δ : Type}

/-! ## The specification -/

/-- What the rule reads of the blackboards is the same. -/
def DecoratorRule.Sees : DecoratorRule → Blackboard → Blackboard → Prop
  | compare key _ _ _, b, b' => b'.intOr key 0 = b.intOr key 0
  | hasValue key _ _, b, b' => b'.contains key = b.contains key
  | increment key, b, b' => b'.intOr key 0 = b.intOr key 0
  | _, _, _ => True

instance (rule : DecoratorRule) (b b' : Blackboard) : Decidable (rule.Sees b b') :=
  match rule with
  | .compare key _ _ _ => inferInstanceAs (Decidable (b'.intOr key 0 = b.intOr key 0))
  | .hasValue key _ _ => inferInstanceAs (Decidable (b'.contains key = b.contains key))
  | .increment key => inferInstanceAs (Decidable (b'.intOr key 0 = b.intOr key 0))
  | .invert | .repeat | .reset | .alwaysSucceed => inferInstanceAs (Decidable True)

/-- The key under which the rule counts. -/
def DecoratorRule.counter? : DecoratorRule → Option String
  | increment key => some key
  | _ => none

def NodeKind.rule? : NodeKind L → Option DecoratorRule
  | decorator rule _ => some rule
  | _ => none

/-- The rules of the decorators. -/
def Tree.rules (t : Tree L) : List DecoratorRule :=
  t.arena.filterMap fun slot => slot.label.kind.rule?

/-- The blackboard is as the first one was, but for the keys under which one of the rules counts. -/
def Blackboard.Keeps (rules : List DecoratorRule) (b₀ b : Blackboard) : Prop :=
  ∀ key, (∀ rule ∈ rules, rule.counter? ≠ some key) → b.get? key = b₀.get? key

namespace Behavior

variable [Behavior L δ]

/-- No hook of the leaf reads or writes the blackboard. -/
structure IgnoresBoard (l : L) : Prop where
  start : ∀ (id : NodeId) (first : Bool) (driver : δ), ∃ l' driver', ∀ board,
    onStart id first l ⟨board, driver⟩ = (l', ⟨board, driver'⟩)
  update : ∀ (id : NodeId) (driver : δ), ∃ status l' driver', ∀ board,
    onUpdate id l ⟨board, driver⟩ = (status, l', ⟨board, driver'⟩)
  stop : ∀ (id : NodeId) (driver : δ), ∃ l' driver', ∀ board,
    onStop id l ⟨board, driver⟩ = (l', ⟨board, driver'⟩)

/-- No hook reads or writes the blackboard, as the leaf is and as its hooks may leave it behind. -/
def Blind (l : L) : Prop := ∀ l', ReflTransGen Hooked l l' → IgnoresBoard l'

end Behavior

/-- The trees have the same nodes, with everything that is recorded about them, and the same cached
result.  Their blackboards look the same to the rules, and each is what it was but for the keys
under which one of the rules counts. -/
structure Tree.Twins (rules : List DecoratorRule) (b₀ b₀' : Blackboard) (t t' : Tree L) : Prop where
  arena : t'.arena = t.arena
  state : t'.state = t.state
  boards : ∃ b b', t.board = some b ∧ t'.board = some b' ∧ (∀ rule ∈ rules, rule.Sees b b') ∧
    b₀.Keeps rules b ∧ b₀'.Keeps rules b'

/-! ## Rules -/

namespace DecoratorRule

variable {rule rule' : DecoratorRule} {b b' : Blackboard}

lemma gate_eq_of_sees (h : rule.Sees b b') : rule.gate b' = rule.gate b := by
  cases rule with
  | compare key op threshold once => rw [gate, gate, show b'.intOr key 0 = b.intOr key 0 from h]
  | hasValue key absent once => rw [gate, gate, show b'.contains key = b.contains key from h]
  | _ => rfl

lemma admits_eq_of_sees (h : rule.Sees b b') (gate : Bool) :
    Node.admits rule gate b' = Node.admits rule gate b := by
  rw [Node.admits, Node.admits, gate_eq_of_sees h]

/-- The same value under a key looks the same. -/
lemma sees_set (h : rule.Sees b b') (key : String) (value : Value) :
    rule.Sees (b.set key value) (b'.set key value) := by
  have hint : ∀ k, b'.intOr k 0 = b.intOr k 0 →
      (b'.set key value).intOr k 0 = (b.set key value).intOr k 0 := by
    intro k hk
    simp only [Blackboard.intOr, Blackboard.get?_set] at hk ⊢
    by_cases heq : key = k
    · rw [if_pos heq, if_pos heq]
    · rwa [if_neg heq, if_neg heq]
  cases rule with
  | compare k op threshold once => exact hint k h
  | increment k => exact hint k h
  | hasValue k absent once =>
      have hk : b'.contains k = b.contains k := h
      simp only [Blackboard.contains] at hk
      simp only [Sees, Blackboard.contains, Blackboard.get?_set]
      by_cases heq : key = k
      · rw [if_pos heq, if_pos heq]
      · rwa [if_neg heq, if_neg heq]
  | _ => trivial

/-- **Counting keeps what a rule reads the same.**  Both blackboards come to hold the same integer
under the counter. -/
theorem sees_onStart (h : rule.Sees b b') (h' : rule'.Sees b b') :
    rule'.Sees (rule.onStart b) (rule.onStart b') := by
  cases rule with
  | increment key =>
      rw [onStart, onStart, show b'.intOr key 0 = b.intOr key 0 from h]
      exact sees_set h' key _
  | _ => exact h'

end DecoratorRule

lemma Blackboard.Keeps.onStart {rules : List DecoratorRule} {b₀ b : Blackboard}
    (h : b₀.Keeps rules b) {rule : DecoratorRule} (hrule : rule ∈ rules) :
    b₀.Keeps rules (rule.onStart b) := by
  intro key hkey
  cases rule with
  | increment k =>
      have hne : k ≠ key := fun heq => hkey _ hrule (heq ▸ rfl)
      rw [DecoratorRule.onStart, Blackboard.get?_set, if_neg hne]
      exact h key hkey
  | _ => exact h key hkey

/-! ## Blind leaves -/

section Blind

variable [Behavior L δ] {l l' : L}

lemma Behavior.Blind.hooked (h : Behavior.Blind l) (hl : Behavior.Hooked l l') :
    Behavior.Blind l' := fun l'' hl' => h l'' (.head hl hl')

lemma Behavior.Blind.begin (h : Behavior.Blind l) (id : NodeId) (state : NodeState) (driver : δ) :
    ∃ l' state' driver' trace, Behavior.Blind l' ∧ ∀ board,
      (⟨id, .leaf l, state⟩ : Node L).begin ⟨board, driver⟩ =
        (⟨id, .leaf l', state'⟩, ⟨board, driver'⟩, trace) := by
  obtain ⟨l', driver', hstart⟩ := (h l .refl).start id (state.activations == 0) driver
  cases hs : state.started with
  | true => exact ⟨l, state, driver, [], h, fun board => by rw [Node.begin, hs]; rfl⟩
  | false =>
      have hl' : Behavior.Blind l' := by
        have hhooked := h.hooked (.start id (state.activations == 0) l ⟨.empty, driver⟩)
        rwa [hstart] at hhooked
      refine ⟨l', state.activate, driver', [.start id, .hook id (.start (state.activations == 0))],
        hl', fun board => ?_⟩
      simp only [Node.begin, hs, Bool.false_eq_true, if_false, Node.activate, hstart board]

lemma Behavior.Blind.conclude (h : Behavior.Blind l) (id : NodeId) (state : NodeState)
    (status : Status) (driver : δ) :
    ∃ l' state' driver' trace, Behavior.Blind l' ∧ ∀ board,
      (⟨id, .leaf l, state⟩ : Node L).conclude status ⟨board, driver⟩ =
        (⟨id, .leaf l', state'⟩, ⟨board, driver'⟩, trace) := by
  obtain ⟨l', driver', hstop⟩ := (h l .refl).stop id driver
  cases hs : status.isTerminal with
  | true =>
      have hl' : Behavior.Blind l' := by
        have hhooked := h.hooked (.stop id l ⟨.empty, driver⟩)
        rwa [hstop] at hhooked
      refine ⟨l', (state.record status).finish, driver', [.hook id .stop], hl', fun board => ?_⟩
      simp only [Node.conclude, hs, if_true, hstop board]
  | false =>
      refine ⟨l, state.record status, driver, [], h, fun board => ?_⟩
      simp only [Node.conclude, hs, Bool.false_eq_true, if_false]

/-- **The poll of a blind leaf** is the same on every blackboard, and leaves it as it is. -/
theorem Behavior.Blind.poll (h : Behavior.Blind l) (id : NodeId) (state : NodeState) (driver : δ) :
    ∃ status l' state' driver' trace, Behavior.Blind l' ∧ ∀ board,
      (Branch.node (⟨id, .leaf l, state⟩ : Node L) []).poll ⟨board, driver⟩ =
        ⟨status, .node ⟨id, .leaf l', state'⟩ [], ⟨board, driver'⟩, trace⟩ := by
  obtain ⟨l₁, state₁, driver₁, begun, hl₁, hbegin⟩ := h.begin id state driver
  obtain ⟨status, l₂, driver₂, hupdate⟩ := (hl₁ l₁ .refl).update id driver₁
  have hl₂ : Behavior.Blind l₂ := by
    have hhooked := hl₁.hooked (.update id l₁ ⟨.empty, driver₁⟩)
    rwa [hupdate] at hhooked
  obtain ⟨l₃, state₃, driver₃, ended, hl₃, hconclude⟩ := hl₂.conclude id state₁ status driver₂
  have hsettle : (⟨id, .leaf l₃, state₃⟩ : Node L).settle status [] = [] := rfl
  refine ⟨status, l₃, state₃, driver₃,
    .enter id :: begun ++ [.hook id (.update status)] ++ ended ++ [.leave id status], hl₃,
    fun board => ?_⟩
  rw [Branch.poll_node, hbegin board, Node.run_leaf rfl]
  simp only [hupdate board, Outcome.conclude, Branch.label_node, Branch.children_node,
    hconclude board, hsettle]

/-- A constant leaf is blind. -/
lemma Constant.blind (l : Constant) : Behavior.Blind l := fun l' _ =>
  ⟨fun _ _ driver => ⟨l', driver, fun _ => rfl⟩,
    fun _ driver => ⟨l'.status, l', driver, fun _ => rfl⟩,
    fun _ driver => ⟨l', driver, fun _ => rfl⟩⟩

end Blind

/-! ## Copies of a tree -/

namespace Node

variable [Behavior L δ] {rules : List DecoratorRule}

/-- The decorator's rule is one of the given ones, and the leaf is blind. -/
structure Tracked (rules : List DecoratorRule) (n : Node L) : Prop where
  rule : ∀ rule, n.kind.rule? = some rule → rule ∈ rules
  leaf : ∀ l, n.kind.leaf? = some l → Behavior.Blind l

lemma tracked_leaf {l : L} (h : Behavior.Blind l) (id : NodeId) (state : NodeState) :
    Tracked rules (⟨id, .leaf l, state⟩ : Node L) where
  rule rule hrule := by cases hrule
  leaf l' hl' := by
    cases hl'
    exact h

lemma rule?_eq_of_static {n n' : Node L} (h : n'.static = n.static) :
    n'.kind.rule? = n.kind.rule? := by
  have hstatic : ∀ k : NodeKind L, k.static.rule? = k.rule? := by
    intro k
    cases k <;> rfl
  rw [← hstatic, ← hstatic, kind_eq_of_static h]

/-- The rule of a node lasts, and so does the blindness of a leaf. -/
lemma lasting_tracked (rules : List DecoratorRule) :
    Lasting (δ := δ) fun n : Node L => n.Tracked rules := by
  have hleaf : Lasting (δ := δ) fun n : Node L => ∀ l, n.kind.leaf? = some l → Behavior.Blind l :=
    lasting_of_hooked (Q := fun _ => Behavior.Blind) fun _ _ _ hl h => h.hooked hl
  have hrule : ∀ {n n' : Node L}, n'.static = n.static → n.Tracked rules →
      ∀ rule, n'.kind.rule? = some rule → rule ∈ rules := by
    intro n n' hstatic h rule hr
    exact h.rule rule (rule?_eq_of_static hstatic ▸ hr)
  constructor
  case activate =>
    exact fun h scene => ⟨hrule (static_activate _ scene) h, hleaf.activate h.leaf scene⟩
  case work => exact fun h hl scene => ⟨hrule (static_worked hl _) h, hleaf.work h.leaf hl scene⟩
  case move =>
    refine fun {n} h cursor => ⟨hrule ?_ h, hleaf.move h.leaf cursor⟩
    obtain ⟨id, kind, state⟩ := n
    cases kind <;> rfl
  case conclude =>
    exact fun h status scene => ⟨hrule (static_conclude _ status scene) h,
      hleaf.conclude h.leaf status scene⟩
  case clear => exact fun h => ⟨h.rule, h.leaf⟩
  case rearm => exact fun {n} h => ⟨hrule (static_rearm n) h, hleaf.rearm h.leaf⟩

end Node

/-- The blackboards look the same to the rules, and each is as it was first, but for counters. -/
structure Blackboard.Looks (rules : List DecoratorRule) (b₀ b₀' b b' : Blackboard) : Prop where
  sees : ∀ rule ∈ rules, rule.Sees b b'
  keeps : b₀.Keeps rules b
  keeps' : b₀'.Keeps rules b'

lemma Blackboard.Looks.onStart {rules : List DecoratorRule} {b₀ b₀' b b' : Blackboard}
    (h : Looks rules b₀ b₀' b b') {rule : DecoratorRule} (hrule : rule ∈ rules) :
    Looks rules b₀ b₀' (rule.onStart b) (rule.onStart b') where
  sees rule' hrule' := DecoratorRule.sees_onStart (h.sees rule hrule) (h.sees rule' hrule')
  keeps := h.keeps.onStart hrule
  keeps' := h.keeps'.onStart hrule

/-- **Copies of a tree go in tandem** as long as their blackboards look the same to the rules. -/
theorem tandem_tracked [Behavior L δ] (rules : List DecoratorRule) (b₀ b₀' : Blackboard) :
    Tandem (δ := δ) (L := L) (fun _ _ => True) (fun n n' => n' = n ∧ n.Tracked rules)
      (Blackboard.Looks rules b₀ b₀') := by
  have hlasts := Node.lasting_tracked (L := L) (δ := δ) rules
  constructor
  case id => exact fun h => congrArg Node.id h.1
  case started => exact fun h => congrArg (fun n => n.state.started) h.1
  case kind =>
    rintro _ n ⟨rfl, h⟩
    obtain ⟨id, kind, state⟩ := n
    cases kind with
    | root => exact .root
    | composite kind cascade cursor => exact .composite kind cascade fun _ => rfl
    | decorator rule gate =>
        exact .decorator rfl rfl fun _ board board' hb =>
          DecoratorRule.admits_eq_of_sees (hb.sees rule (h.rule rule rfl)) gate
    | leaf l => exact .leaf l l
  case activate =>
    rintro _ n ⟨rfl, h⟩ _ hleaf scene scene' - hs
    have htracked := hlasts.activate h scene
    obtain ⟨id, kind, state⟩ := n
    cases kind with
    | leaf l => cases hleaf
    | decorator rule gate =>
        have hlooks := hs.board.onStart (h.rule rule rfl)
        refine ⟨⟨?_, htracked⟩, hlooks, hs.driver⟩
        simp only [Node.activate,
          DecoratorRule.gate_eq_of_sees (hlooks.sees rule (h.rule rule rfl))]
    | _ => exact ⟨⟨rfl, htracked⟩, hs⟩
  case leaf =>
    rintro _ ⟨id, kind, state⟩ l ⟨rfl, h⟩ hleaf ⟨board, driver⟩ ⟨board', driver'⟩ - hs
    obtain rfl : driver' = driver := hs.driver
    cases kind with
    | leaf l =>
        obtain ⟨status, l', state', driver'', trace, hl', hpoll⟩ :=
          (h.leaf l rfl).poll id state driver'
        rw [hpoll board, hpoll board']
        exact ⟨rfl, .node ⟨rfl, Node.tracked_leaf hl' _ _⟩ .nil, ⟨hs.board, rfl⟩, rfl⟩
    | _ => cases hleaf
  case move =>
    rintro _ n ⟨rfl, h⟩ cursor
    exact ⟨rfl, hlasts.move h cursor⟩
  case conclude =>
    rintro _ n ⟨rfl, h⟩ hleaf status scene scene'
    refine ⟨?_, hlasts.conclude h status scene⟩
    obtain ⟨id, kind, state⟩ := n
    cases kind with
    | leaf l => cases hleaf
    | _ =>
        rw [Node.conclude, Node.conclude]
        split <;> rfl
  case clear =>
    rintro _ n ⟨rfl, h⟩
    exact ⟨rfl, hlasts.clear h⟩
  case rearm =>
    rintro _ n ⟨rfl, h⟩
    exact ⟨rfl, hlasts.rearm h⟩

/-! ## Runs of copies -/

namespace Tree

variable [Behavior L δ] {t : Tree L}

lemma tracked_of_blind (hleaves : ∀ l, some l ∈ t.leaves → Behavior.Blind l) :
    ∀ slot ∈ t.arena, slot.label.Tracked t.rules := fun slot hslot =>
  ⟨fun _ hr => List.mem_filterMap.mpr ⟨slot, hslot, hr⟩,
    fun l hl => hleaves l (hl ▸ List.mem_map_of_mem hslot)⟩

/-- A tree that has been started remains so. -/
lemma isStarted_performAll (h : t.isStarted = true) (calls : List (Call δ)) :
    (t.performAll calls).1.isStarted = true := by
  induction calls generalizing t with
  | nil => exact h
  | cons call calls ih =>
      refine ih ?_
      obtain ⟨board, hboard⟩ := Option.isSome_iff_exists.mp h
      cases call with
      | start => simpa only [perform, start, hboard] using h
      | update driver =>
          cases hstate : t.state.isTerminal with
          | true => simpa only [perform, update_of_terminal hboard hstate] using h
          | false => simp [update, hboard, hstate, isStarted]
      | edit f => simp only [isStarted, editBoard, hboard, Option.map_some, Option.isSome_some]
      | _ => exact h

/-- **The footprint of the engine on a blackboard.**  Two copies of an instance whose leaves are
blind, and whose blackboards look the same to the rules of its decorators, come back with the same
for ever, as long as nobody edits the blackboards: with the same statuses, calls of hooks and
contexts of the driver.  They remain twins, and of their blackboards the run changes nothing but
what is under the keys of counting rules. -/
theorem Fresh.footprint (h : t.Fresh) (calls : List (Call δ)) {board board' : Blackboard}
    (hboard : (t.performAll calls).1.board = some board)
    (hleaves : ∀ l, some l ∈ (t.performAll calls).1.leaves → Behavior.Blind l)
    (hsees : ∀ rule ∈ (t.performAll calls).1.rules, rule.Sees board board')
    (later : List (Call δ)) (hlater : ∀ f, .edit f ∉ later) :
    let now := (t.performAll calls).1
    let other := { now with board := some board' }
    other.replies later = now.replies later ∧
      Twins now.rules board board' (now.performAll later).1 (other.performAll later).1 := by
  intro now other
  obtain ⟨b, hb⟩ := h.pristine
  obtain ⟨c, hc, -⟩ := hb.toShows.performAll calls
  have htracked : ∀ n ∈ c.labels, n.Tracked now.rules := by
    intro n hn
    obtain ⟨slot, hslot, rfl⟩ := hc.exists_of_label hn
    exact tracked_of_blind hleaves slot hslot
  have hlooks : Blackboard.Looks now.rules board board' board board' :=
    ⟨hsees, fun _ _ => rfl, fun _ _ => rfl⟩
  have hpaired : now.Paired (fun n n' => n' = n ∧ n.Tracked now.rules)
      (Blackboard.Looks now.rules board board') other := by
    refine ⟨⟨c, c, hc, ⟨hc.arena, hc.nodup⟩, Branch.paired_self fun n hn => ⟨rfl, htracked n hn⟩⟩,
      ?_, ?_, rfl⟩
    · rw [isStarted, isStarted, hboard]
      rfl
    · rwa [held, held, hboard]
  have hnoEdit := along_of_forall (fun call => ∀ f, call ≠ .edit f)
    (fun call hcall f heq => hlater f (heq ▸ hcall)) now
  obtain ⟨hreplies, hend⟩ := (tandem_tracked now.rules board board').replies _
    (fun _ _ _ => trivial) (fun _ hedit => absurd rfl (hedit _)) hpaired hnoEdit
  refine ⟨hreplies, ?_, hend.state, ?_⟩
  · have harena := hend.map_eq (f := fun n => n) fun _ _ hn => hn.1
    rwa [List.map_id', List.map_id'] at harena
  · have hstarted : now.isStarted = true := by rw [isStarted, hboard, Option.isSome_some]
    have hlast := isStarted_performAll hstarted later
    rcases Tandem.board_cases hend with ⟨hnone, -⟩ | ⟨d, d', hd, hd', hlook⟩
    · rw [isStarted, hnone] at hlast
      cases hlast
    · exact ⟨d, d', hd, hd', hlook.sees, hlook.keeps, hlook.keeps'⟩

/-- Counting under a key and comparing what is there: a truth value counts like the integer 1, and
what is under other keys does not matter. -/
theorem footprint_counter :
    let t : Tree Constant := ofBranch (.node (.fresh ⟨0⟩ .root)
      [.node (.fresh ⟨1⟩ (.composite .sequence true 0))
        [.node (.fresh ⟨2⟩ (.decorator (.increment "n") false))
          [.node (.fresh ⟨3⟩ (.leaf .succeed)) []],
        .node (.fresh ⟨4⟩ (.decorator (.compare "n" .less 3 false) false))
          [.node (.fresh ⟨5⟩ (.leaf .running)) []]]])
    let board := Blackboard.empty.set "n" (.bool true)
    let board' := (Blackboard.empty.set "n" (.int 1)).set "free" (.int 7)
    let now := (t.performAll [.start, .edit (·.set "n" (.bool true))]).1
    let other := { now with board := some board' }
    let later : List (Call Unit) := [.update (), .halt, .rearm, .update ()]
    Tree.build .standard (some (.sequence [
        .decorate (.increment "n") (.leaf none Constant.succeed),
        .decorate (.compare "n" .less 3 false) (.leaf none .running)])) = .ok t ∧
      now.rules = [.increment "n", .compare "n" .less 3 false] ∧
      (∀ rule ∈ now.rules, rule.Sees board board') ∧
      (now.performAll later).1.state = .failure ∧
      other.replies later = now.replies later ∧
      Twins now.rules board board' (now.performAll later).1 (other.performAll later).1 := by
  intro t board board' now other later
  have hbuild : Tree.build .standard (some (.sequence [
      .decorate (.increment "n") (.leaf none Constant.succeed),
      .decorate (.compare "n" .less 3 false) (.leaf none .running)])) = .ok t := rfl
  have hrules : now.rules = [.increment "n", .compare "n" .less 3 false] := rfl
  have hsees : ∀ rule ∈ now.rules, rule.Sees board board' := by
    rw [hrules]
    decide +kernel
  have hlater : ∀ f, Call.edit f ∉ later := by simp [later]
  exact ⟨hbuild, hrules, hsees, by decide +kernel, (Fresh.built .standard _ hbuild).footprint _ rfl
    (fun l _ => l.blind) hsees later hlater⟩

end Tree

end BehaviorTree
