import BehaviorTree.Proofs.Cursors
import BehaviorTree.Proofs.Marks
import BehaviorTree.Proofs.Registry

/-!
# Updates do not fail

`BehaviorTree.Poll` is written such that it cannot go wrong: it guards its references, it goes
through a list of children, and it keeps hold of a node while the children of the node are polled.
An executor that works on the arena in place does none of this.  It goes where the references lead,
it looks a node up anew after a child of it has been polled, it asks a composite for its next child
until there is a result, and it clears what is below a node with a stack of positions.

`Executor.update` is that executor, with a `Fault` for everything that can go wrong on the way, and
a time that bounds how deep its calls are nested and how often its loops go round.

* **`Executor.update_layout`** — on a laid out tree whose cursors are within, it returns in time
  and without a fault, and it does what a poll does.
* `Trace.marked` — who is entered, and whose hooks are called.  **`Branch.marked_poll`**: in the
  course of a poll this happens to every node at most once, and in pre-order.
* **`Tree.Fresh.updatesSafely`** — both hold of every update of a tree, whatever it has been
  through.
-/

namespace BehaviorTree

open Branch

variable {L δ : Type}

/-! ## The executor -/

/-- What can go wrong in the course of an update. -/
inductive Fault
  /-- A position outside of the arena is asked for. -/
  | outside (position : Nat)
  /-- A node is taken for a composite, and it is none. -/
  | notComposite (position : Nat)
  | notDecorator (position : Nat)
  /-- A composite that has children is asked for one behind the last, or moves its cursor past
  it. -/
  | pastEnd (position : Nat)
  | outOfTime
  deriving DecidableEq

namespace Executor

def slot (a : Arena L) (i : Nat) : Except Fault (Slot (Node L)) :=
  match a[i]? with
  | some slot => .ok slot
  | none => .error (.outside i)

/-- A composite with the positions of its children. -/
structure Composite where
  id : NodeId
  kind : CompositeKind
  cascade : Bool
  cursor : Nat
  children : List Nat

/-- The composite at a position. -/
def composite (a : Arena L) (i : Nat) : Except Fault Composite := do
  let s ← slot a i
  match s.label.kind with
  | .composite kind cascade cursor => .ok ⟨s.label.id, kind, cascade, cursor, s.children⟩
  | _ => .error (.notComposite i)

/-- The rule of the decorator at a position. -/
def decorator (a : Arena L) (i : Nat) : Except Fault DecoratorRule := do
  let s ← slot a i
  match s.label.kind with
  | .decorator rule _ => .ok rule
  | _ => .error (.notDecorator i)

/-- The child that the composite at position `i` polls next.  There may be none left only if there
are no children at all. -/
def Composite.next (c : Composite) (i : Nat) : Except Fault (Option Nat) :=
  match c.children[c.cursor]? with
  | some child => .ok (some child)
  | none => if c.children.isEmpty then .ok none else .error (.pastEnd i)

/-- What the composite at position `i` makes of the poll of a child: its own result, or another
round. -/
def resolve (i : Nat) (again : World L δ → Except Fault (Polled L δ)) (p : Polled L δ) :
    Except Fault (Polled L δ) := do
  let c ← composite p.world.arena i
  if p.status ≠ c.kind.advancesOn then return p
  else if c.children.length < c.cursor + 1 then .error (.pastEnd i)
  else if c.cursor + 1 = c.children.length then return ⟨p.status, p.passed i c.cursor, p.trace⟩
  else if c.cascade then
    let later ← again (p.passed i c.cursor)
    return later.after p.trace
  else return ⟨.running, p.passed i c.cursor, p.trace ++ [.advance c.id]⟩

section Nodes

variable (child : Nat → World L δ → Except Fault (Polled L δ))

/-- Polls the children of the composite at position `i` until there is a result. -/
def loop (i : Nat) : (time : Nat) → World L δ → Except Fault (Polled L δ)
  | 0, _ => .error .outOfTime
  | time + 1, w => do
    let c ← composite w.arena i
    match ← c.next i with
    | none => return ⟨c.kind.advancesOn, w, []⟩
    | some position =>
      let p ← child position w
      resolve i (loop i time) p

/-- Polls the first of the children; a missing one counts as a success. -/
def first (children : List Nat) (w : World L δ) : Except Fault (Polled L δ) :=
  match children with
  | [] => .ok ⟨.success, w, []⟩
  | c :: _ => child c w

/-- Runs the node at a position. -/
def run [Behavior L δ] (time : Nat) (i : Nat) (w : World L δ) : Except Fault (Polled L δ) := do
  let s ← slot w.arena i
  match s.label.kind with
  | .root => first child s.children w
  | .composite .. => loop child i time w
  | .decorator rule gate =>
    if Node.admits rule gate w.scene.board then
      let p ← first child s.children w
      let rule ← decorator p.world.arena i
      return { p with status := rule.map p.status }
    else return ⟨.failure, w, []⟩
  | .leaf l =>
    let (status, l, scene) := Behavior.onUpdate s.label.id l w.scene
    return ⟨status, ⟨w.arena.relabel i fun n => { n with kind := .leaf l }, scene⟩,
      [.hook s.label.id (.update status)]⟩

end Nodes

/-- Puts the nodes on a stack of positions back to idle, and everything below them. -/
def reset : (time : Nat) → (stack : List Nat) → Arena L → Except Fault (Arena L)
  | 0, _, _ => .error .outOfTime
  | _ + 1, [], a => .ok a
  | time + 1, i :: stack, a => do
    let s ← slot a i
    reset time (s.children ++ stack) (a.relabel i Node.clear)

variable [Behavior L δ]

/-- Ends the poll of the node at a position with a status. -/
def conclude (time : Nat) (i : Nat) (status : Status) (w : World L δ) :
    Except Fault (World L δ × Trace) := do
  let s ← slot w.arena i
  let (n, scene, trace) := s.label.conclude status w.scene
  let a := w.arena.relabel i fun _ => n
  if n.clearsOn status then
    let a ← reset time s.children a
    return (⟨a, scene⟩, trace)
  else return (⟨a, scene⟩, trace)

/-- Polls the node at a position. -/
def update : (time : Nat) → Nat → World L δ → Except Fault (Polled L δ)
  | 0, _, _ => .error .outOfTime
  | time + 1, i, w => do
    let s ← slot w.arena i
    let (begun, activation) := w.activate i s.label
    let p ← run (update time) (time + 1) i begun
    let (ended, conclusion) ← conclude (time + 1) i p.status p.world
    return ⟨p.status, ended,
      .enter s.label.id :: activation ++ p.trace ++ conclusion ++ [.leave s.label.id p.status]⟩

end Executor

/-! ## Clearing below a node -/

namespace Slot

/-- The loop over a stack sees nothing but the references. -/
lemma stackWalk_congr {α β : Type} {slots : List (Slot α)} {slots' : List (Slot β)}
    (h : slots.map Slot.children = slots'.map Slot.children) (time : Nat)
    (stack : List (Nat × Nat)) : stackWalk slots time stack = stackWalk slots' time stack := by
  induction time generalizing stack with
  | zero => rfl
  | succ time ih =>
      cases stack with
      | nil => rfl
      | cons top stack =>
          obtain ⟨i, depth⟩ := top
          have hi := congrArg (·[i]?) h
          simp only [List.getElem?_map] at hi
          rw [stackWalk, stackWalk]
          cases hs : slots[i]? with
          | none =>
              rw [hs, Option.map_none, eq_comm, Option.map_eq_none_iff] at hi
              rw [hi]
          | some s =>
              rw [hs, Option.map_some, eq_comm, Option.map_eq_some_iff] at hi
              obtain ⟨s', hs', hchildren⟩ := hi
              rw [hs']
              simp only [hchildren, ih]

end Slot

namespace Executor

lemma slot_eq_ok {a : Arena L} {i : Nat} {s : Slot (Node L)} (h : a[i]? = some s) :
    slot a i = .ok s := by
  rw [slot, h]

/-- Clearing what is on a stack visits what the walk over the stack visits. -/
lemma reset_of_stackWalk {time : Nat} {stack visited : List (Nat × Nat)} {a : Arena L}
    (h : Slot.stackWalk a time stack = some visited) :
    reset time (stack.map Prod.fst) a =
      .ok (visited.foldl (fun a p => a.relabel p.1 Node.clear) a) := by
  induction time generalizing stack visited a with
  | zero => cases h
  | succ time ih =>
      cases stack with
      | nil => cases h; rfl
      | cons top stack =>
          obtain ⟨i, depth⟩ := top
          rw [Slot.stackWalk] at h
          cases hs : a[i]? with
          | none => rw [hs] at h; cases h
          | some s =>
              rw [hs] at h
              obtain ⟨rest, hrest, rfl⟩ := Option.map_eq_some_iff.mp h
              rw [Slot.stackWalk_congr (Arena.children_relabel a i Node.clear).symm] at hrest
              have hstack : (Slot.push s.children (depth + 1) stack).map Prod.fst =
                  s.children ++ stack.map Prod.fst := by
                rw [Slot.push_eq, List.map_append, List.map_map]
                simp [Function.comp_def]
              have htail := ih hrest
              rw [hstack] at htail
              rw [List.map_cons, reset, slot_eq_ok hs]
              exact htail

/-- **Clearing with a stack is clearing below.** -/
lemma reset_eq_clearBelow {a : Arena L} {i time : Nat} {t : Branch (Node L)}
    (h : Slot.Holds a i t) (htime : sizeAll t.children < time) :
    reset time (slotAt i t).children a = .ok (a.clearBelow i) := by
  obtain ⟨rest, rfl⟩ := Nat.exists_eq_add_of_lt htime
  have hwalk := Slot.stackWalk_of_holdsAll t.children h.children (rest + 1) 1 []
  have hend : Slot.stackWalk a (rest + 1) [] = some [] := rfl
  rw [hend, List.append_nil, ← Nat.add_assoc] at hwalk
  have hreset := reset_of_stackWalk hwalk
  rw [List.map_map] at hreset
  have hbelow : Slot.below a i =
      (((roots (i + 1) t.children).flatMap fun c => Slot.walk a c 1) ++ []).map Prod.fst := by
    obtain ⟨n, ts⟩ := t
    rw [Slot.below, Slot.walk_of_holds_node h, List.tail_cons, List.append_nil]
    rfl
  rw [Arena.clearBelow, hbelow, List.foldl_map]
  simpa [Function.comp_def, slotAt] using hreset

/-! ## The executor on a laid out tree -/

lemma composite_layout (id : NodeId) (kind : CompositeKind) (cascade : Bool) (cursor : Nat)
    (state : NodeState) (ts : List (Branch (Node L))) (pre post : Arena L) :
    composite (pre ++ (node ⟨id, .composite kind cascade cursor, state⟩ ts).layout pre.length ++
      post) pre.length = .ok ⟨id, kind, cascade, cursor, roots (pre.length + 1) ts⟩ := by
  rw [composite, slot_eq_ok (Slot.Holds.getElem? ⟨pre, post, rfl, rfl⟩)]
  rfl

lemma decorator_layout (id : NodeId) (rule : DecoratorRule) (gate : Bool) (state : NodeState)
    (ts : List (Branch (Node L))) (pre post : Arena L) :
    decorator (pre ++ (node ⟨id, .decorator rule gate, state⟩ ts).layout pre.length ++ post)
      pre.length = .ok rule := by
  rw [decorator, slot_eq_ok (Slot.Holds.getElem? ⟨pre, post, rfl, rfl⟩)]
  rfl

lemma getElem?_roots_append (base : Nat) (done rest : List (Branch (Node L)))
    (t : Branch (Node L)) :
    (roots base (done ++ t :: rest))[done.length]? = some (base + sizeAll done) := by
  induction done generalizing base with
  | nil => rfl
  | cons u done ih =>
      rw [List.cons_append, roots, List.length_cons, List.getElem?_cons_succ, ih, sizeAll_cons,
        Nat.add_assoc]

/-! ### One round of the loop of a composite -/

section Turn

variable {id : NodeId} {kind : CompositeKind} {cascade : Bool} {state : NodeState}
  {done rest : List (Branch (Node L))} {pre post : Arena L}
  {o : Outcome (Branch (Node L)) δ} {again : World L δ → Except Fault (Polled L δ)}

/-- The poll of a child, seen in the arena of the composite above it. -/
def turn (id : NodeId) (kind : CompositeKind) (cascade : Bool) (state : NodeState)
    (done rest : List (Branch (Node L))) (pre post : Arena L) (o : Outcome (Branch (Node L)) δ)
    (cursor : Nat) : Polled L δ :=
  (o.map fun u => node ⟨id, .composite kind cascade cursor, state⟩ (done ++ u :: rest)).inArena
    pre post

lemma composite_turn (cursor : Nat) :
    composite (turn id kind cascade state done rest pre post o cursor).world.arena pre.length =
      .ok ⟨id, kind, cascade, cursor, roots (pre.length + 1) (done ++ o.part :: rest)⟩ :=
  composite_layout _ _ _ _ _ _ _ _

lemma passed_turn (cursor : Nat) :
    (turn id kind cascade state done rest pre post o cursor).passed pre.length cursor =
      (turn id kind cascade state done rest pre post o (cursor + 1)).world :=
  passed_inArena o id kind cascade cursor state (fun u => done ++ u :: rest) pre post

lemma resolve_stops (h : o.status ≠ kind.advancesOn) (cursor : Nat) :
    resolve pre.length again (turn id kind cascade state done rest pre post o cursor) =
      .ok (turn id kind cascade state done rest pre post o cursor) := by
  rw [resolve, composite_turn]
  simp only [bind, Except.bind]
  exact if_pos h

/-- A child has been left behind: with the last one the poll is over, and with any other one it goes
on in another round or pauses. -/
lemma resolve_advances (h : o.status = kind.advancesOn) :
    resolve pre.length again (turn id kind cascade state done rest pre post o done.length) =
      match rest with
      | [] => .ok (turn id kind cascade state done [] pre post o (done.length + 1))
      | u :: rest =>
        let next := turn id kind cascade state done (u :: rest) pre post o (done.length + 1)
        if cascade then (again next.world).map (·.after o.trace)
        else .ok ⟨.running, next.world, o.trace ++ [.advance id]⟩ := by
  have hstatus : (turn id kind cascade state done rest pre post o done.length).status =
      kind.advancesOn := h
  rw [resolve, composite_turn]
  simp only [bind, Except.bind, length_roots, List.length_append, List.length_cons, passed_turn,
    hstatus, ne_eq, not_true_eq_false, if_false]
  rw [if_neg (by omega)]
  cases rest with
  | nil =>
      rw [← hstatus]
      exact if_pos rfl
  | cons u rest =>
      rw [if_neg (by rw [List.length_cons]; omega)]
      cases cascade with
      | true =>
          simp only [if_true]
          cases again _ <;> rfl
      | false => rfl

end Turn

section Layout

variable [Behavior L δ] {child : Nat → World L δ → Except Fault (Polled L δ)}
  {t : Branch (Node L)} {ts : List (Branch (Node L))}

/-- Wherever the tree is laid out, it is polled without a fault. -/
def Polls (child : Nat → World L δ → Except Fault (Polled L δ)) (t : Branch (Node L)) : Prop :=
  ∀ (pre post : Arena L) (scene : Scene δ),
    child pre.length ⟨pre ++ t.layout pre.length ++ post, scene⟩ =
      .ok ((t.poll scene).inArena pre post)

/-- Polling one child of a laid out node. -/
lemma polls_child (h : Polls child t) (m : Node L) (done rest : List (Branch (Node L)))
    (pre post : Arena L) (scene : Scene δ) :
    child (pre.length + 1 + sizeAll done)
        ⟨pre ++ (node m (done ++ t :: rest)).layout pre.length ++ post, scene⟩ =
      .ok (((t.poll scene).map fun u => node m (done ++ u :: rest)).inArena pre post) := by
  obtain ⟨front, back, hfront, -, harena⟩ := exists_around_child m done rest t pre post
  rw [harena t rfl, ← hfront, h front back scene]
  simp only [Outcome.inArena, Outcome.status_map, Outcome.part_map, Outcome.scene_map,
    Outcome.trace_map, harena _ (t.size_poll scene)]

section Composite

variable {id : NodeId} {kind : CompositeKind} {cascade : Bool} {scene : Scene δ}

/-- One round of the loop of a composite whose cursor is at a child. -/
lemma loop_child (h : Polls child t) (state : NodeState) (done rest : List (Branch (Node L)))
    (pre post : Arena L) (time : Nat) :
    loop child pre.length (time + 1)
        ⟨pre ++ (node ⟨id, .composite kind cascade done.length, state⟩ (done ++ t :: rest)).layout
          pre.length ++ post, scene⟩ =
      resolve pre.length (loop child pre.length time)
        (turn id kind cascade state done rest pre post (t.poll scene) done.length) := by
  rw [loop, composite_layout]
  simp only [bind, Except.bind, Composite.next, getElem?_roots_append, polls_child h]
  rfl

/-- **The loop of a composite** does what polling from the cursor on does.  Its cursor is at a
child, or there is none, so it never asks for one behind the last. -/
lemma onward_loop {skip : Nat} {o : Outcome (Nat × List (Branch (Node L))) δ}
    (h : Onward id kind cascade skip ts scene o) (ih : ∀ t ∈ ts, Polls child t)
    (state : NodeState) (pre post : Arena L) :
    ∀ (done : List (Branch (Node L))) (time : Nat),
      skip < ts.length ∨ done = [] ∧ ts = [] → ts.length - skip ≤ time →
      loop child pre.length (time + 1)
          ⟨pre ++ (node ⟨id, .composite kind cascade (done.length + skip), state⟩
            (done ++ ts)).layout pre.length ++ post, scene⟩ =
        .ok ((o.map fun p => node ⟨id, .composite kind cascade (done.length + skip + p.1), state⟩
          (done ++ p.2)).inArena pre post) := by
  induction h with
  | exhausted skip scene =>
      intro done time hcursor _
      obtain ⟨rfl, -⟩ := hcursor.resolve_left (Nat.not_lt_zero skip)
      rw [loop, composite_layout]
      rfl
  | @skips skip t ts scene o _ ihs =>
      intro done time hcursor htime
      rw [List.length_cons] at hcursor htime
      have hless : skip + 1 < ts.length + 1 := by
        rcases hcursor with hless | ⟨-, hnil⟩
        · exact hless
        · cases hnil
      have hrest := ihs (fun u hu => ih u (List.mem_cons_of_mem _ hu)) (done ++ [t]) time
        (.inl (by omega)) (by omega)
      simpa [Nat.add_assoc, Nat.add_comm 1, Outcome.map] using hrest
  | @stops t ts scene hs =>
      intro done time _ _
      rw [Nat.add_zero done.length, loop_child (ih t List.mem_cons_self), resolve_stops hs]
      rfl
  | @ends t scene hs =>
      intro done time _ _
      rw [Nat.add_zero done.length, loop_child (ih t List.mem_cons_self), resolve_advances hs]
      rfl
  | @cascades t u us scene o hs hc _ ihs =>
      intro done time _ htime
      rw [List.length_cons, List.length_cons] at htime
      obtain ⟨time, rfl⟩ := Nat.exists_eq_succ_of_ne_zero (by omega : time ≠ 0)
      have hrest := ihs (fun v hv => ih v (List.mem_cons_of_mem _ hv))
        (done ++ [(t.poll scene).part]) time (.inl (by simp)) (by rw [List.length_cons]; omega)
      have happend : ∀ rest, done ++ [(t.poll scene).part] ++ rest =
          done ++ (t.poll scene).part :: rest := by simp
      have hmoves : ∀ moves, done.length + 1 + moves = done.length + (moves + 1) := by omega
      simp only [happend, List.length_append, List.length_singleton, hmoves] at hrest
      rw [Nat.add_zero done.length, loop_child (ih t List.mem_cons_self), resolve_advances hs]
      exact (if_pos hc).trans (congrArg (Except.map (·.after (t.poll scene).trace)) hrest)
  | @pauses t u us scene hs hc =>
      intro done time _ _
      rw [Nat.add_zero done.length, loop_child (ih t List.mem_cons_self), resolve_advances hs]
      exact if_neg (by simp [hc])

end Composite

/-- Polling the first child of a laid out node. -/
lemma first_layout (m : Node L) (pre post : Arena L) (scene : Scene δ)
    (ih : ∀ t ∈ ts, Polls child t) :
    first child (roots (pre.length + 1) ts)
        ⟨pre ++ (node m ts).layout pre.length ++ post, scene⟩ =
      .ok (((pollFirst ts scene).map (node m)).inArena pre post) := by
  cases ts with
  | nil => rfl
  | cons t ts => exact polls_child (ih t List.mem_cons_self) m [] ts pre post scene

/-- Running a laid out node that has an activation under way. -/
lemma run_layout (m : Node L) (pre post : Arena L) (scene : Scene δ)
    (ih : ∀ t ∈ ts, Polls child t) (hstarted : m.state.started = true)
    (hcursor : m.CursorWithin ts) {time : Nat} (htime : ts.length ≤ time) :
    run child (time + 1) pre.length ⟨pre ++ (node m ts).layout pre.length ++ post, scene⟩ =
      .ok ((m.run ts (pollFirst ts) (fun kind cascade cursor =>
        Branch.pollFrom m.id kind cascade cursor ts) scene).inArena pre post) := by
  have hfirst := first_layout m pre post scene ih
  obtain ⟨id, kind, state⟩ := m
  rw [run, slot_eq_ok (Slot.Holds.getElem? ⟨pre, post, rfl, rfl⟩)]
  simp only [bind, Except.bind, slotAt_node]
  cases kind with
  | root =>
      rw [Node.run_root rfl, ← hfirst]
  | composite kind cascade cursor =>
      rw [Node.run_composite rfl]
      obtain ⟨-, hless⟩ := hcursor kind cascade cursor rfl
      have hplace : cursor < ts.length ∨ ([] : List (Branch (Node L))) = [] ∧ ts = [] := by
        by_cases hnil : ts = []
        · exact .inr ⟨rfl, hnil⟩
        · exact .inl (hless hstarted hnil)
      have hloop := onward_loop (pollFrom_onward id kind cascade cursor ts scene) ih state pre post
        [] time hplace (by omega)
      rw [List.length_nil, Nat.zero_add] at hloop
      exact hloop
  | decorator rule gate =>
      cases ha : Node.admits rule gate scene.board with
      | false =>
          rw [Node.run_refused rfl ha]
          simp only [ha, Bool.false_eq_true, if_false]
          rfl
      | true =>
          have hrule : decorator (((pollFirst ts scene).map
              (node ⟨id, .decorator rule gate, state⟩)).inArena pre post).world.arena pre.length =
              .ok rule := decorator_layout _ _ _ _ _ _ _
          rw [Node.run_admitted rfl ha]
          simp only [ha, if_true, hfirst, hrule]
          rfl
  | leaf l =>
      rw [Node.run_leaf rfl]
      simp only [Arena.relabel_layout]
      rfl

/-- Ending a poll without a fault. -/
lemma conclude_layout (n : Node L) (ts : List (Branch (Node L))) (pre post : Arena L)
    (status : Status) (scene : Scene δ) {time : Nat} (htime : sizeAll ts < time) :
    conclude time pre.length status ⟨pre ++ (node n ts).layout pre.length ++ post, scene⟩ =
      .ok (World.conclude ⟨pre ++ (node n ts).layout pre.length ++ post, scene⟩ pre.length
        status) := by
  have hslot : (pre ++ (node n ts).layout pre.length ++ post)[pre.length]? =
      some (slotAt pre.length (node n ts)) := Slot.Holds.getElem? ⟨pre, post, rfl, rfl⟩
  set ended := (n.conclude status scene).1 with hended
  have hreset : reset time (roots (pre.length + 1) ts)
      (pre ++ (node ended ts).layout pre.length ++ post) =
      .ok ((pre ++ (node ended ts).layout pre.length ++ post).clearBelow pre.length) :=
    reset_eq_clearBelow (t := node ended ts) ⟨pre, post, rfl, rfl⟩ htime
  rw [conclude, slot_eq_ok hslot, World.conclude_of_slot hslot]
  simp only [bind, Except.bind, slotAt_node, Arena.relabel_layout, ← hended]
  split
  · simp only [hreset]
    rfl
  · rfl

/-- **On a laid out tree whose cursors are within, the executor returns in time and without a
fault, and it does what a poll does.** -/
theorem update_layout (t : Branch (Node L)) (ht : t.Every Node.CursorWithin) {time : Nat}
    (htime : t.size ≤ time) : Polls (update (δ := δ) time) t := by
  induction t generalizing time with
  | node n ts ih =>
      intro pre post scene
      obtain ⟨hn, hts⟩ := every_node.mp ht
      rw [size_node] at htime
      obtain ⟨time, rfl⟩ := Nat.exists_eq_succ_of_ne_zero (by omega : time ≠ 0)
      have hbelow : ∀ t ∈ ts, Polls (update (δ := δ) time) t := by
        intro t hmem
        have hle := size_le_sizeAll hmem
        exact ih t hmem (hts t hmem) (by omega)
      have hcount := length_le_sizeAll ts
      have hslot : (pre ++ (node n ts).layout pre.length ++ post)[pre.length]? =
          some (slotAt pre.length (node n ts)) := Slot.Holds.getElem? ⟨pre, post, rfl, rfl⟩
      have hran := run_layout (n.begin scene).1 pre post (n.begin scene).2.1 hbelow
        (n.started_begin scene) (hn.begin scene) (by omega : ts.length ≤ time)
      have hsize := size_run (n.begin scene).1 ts (n.begin scene).2.1
      rw [update, poll_node, slot_eq_ok hslot]
      simp only [bind, Except.bind, slotAt_node, World.activate_layout, hran]
      generalize (n.begin scene).1.run ts _ _ _ = o at hsize ⊢
      obtain ⟨status, ⟨m', ts'⟩, scene', trace⟩ := o
      rw [size_node, size_node] at hsize
      have hconclude := conclude_layout m' ts' pre post status scene'
        (by omega : sizeAll ts' < time + 1)
      simp only [Outcome.inArena, hconclude]
      simp only [World.conclude_append, Outcome.conclude, label_node, children_node, Node.id_begin]
      rfl

end Layout

end Executor

/-! ## The updates of a tree -/

namespace Tree

variable [Behavior L δ] {t : Tree L}

/-- The update of a tree that wants to be polled, done in place. -/
structure UpdatesSafely (t : Tree L) (board : Blackboard) (driver : δ) (p : Polled L δ) :
    Prop where
  /-- The executor returns in time, and without a fault. -/
  returns : ∀ time, t.size ≤ time →
    Executor.update time 0 ⟨t.arena, ⟨board, driver⟩⟩ = .ok p
  /-- What it returns is what the update answers with. -/
  answers : t.update driver = .ok ⟨p.status,
    ⟨p.world.arena, some p.world.scene.board, p.status⟩, p.world.scene.driver, p.trace⟩
  /-- Nodes are polled and hooks are called in pre-order. -/
  ordered : ∀ m, (p.trace.marked m).Sublist (t.arena.map fun slot => slot.label.id)
  /-- No node is polled twice, and none of its hooks is called twice. -/
  once : ∀ m, (p.trace.marked m).Nodup
  cursors : t.arena.CursorsWithin
  cursors_after : p.world.arena.CursorsWithin

/-- **Every update of a tree returns in time and without a fault**, whatever the tree has been
through and whatever its leaves do. -/
theorem Fresh.updatesSafely (h : t.Fresh) (calls : List (Call δ)) {board : Blackboard}
    (hboard : (t.performAll calls).1.board = some board)
    (hstate : (t.performAll calls).1.state = .running) (driver : δ) :
    ∃ p, (t.performAll calls).1.UpdatesSafely board driver p := by
  obtain ⟨c, hc, hcursors⟩ := h.exists_cursors calls
  set now := (t.performAll calls).1
  set o := c.poll ⟨board, driver⟩ with ho
  have hids : (now.arena.map fun slot => slot.label.id) = c.ids := hc.map_id
  refine ⟨o.inArena [] [], ?_, ?_, ?_, ?_, ?_, ?_⟩
  case refine_1 =>
    intro time htime
    have hreturns := Executor.update_layout c hcursors (hc.size_eq ▸ htime) [] [] ⟨board, driver⟩
    rwa [List.nil_append, List.append_nil, List.length_nil, ← hc.arena] at hreturns
  case refine_2 =>
    rw [hc.update hboard hstate driver]
    simp [Outcome.inArena, ho]
  case refine_3 => exact fun m => hids ▸ marked_poll m c _
  case refine_4 => exact fun m => hc.nodup.sublist (marked_poll m c _)
  case refine_5 => exact hc.arena ▸ Arena.cursorsWithin_layout hcursors
  case refine_6 =>
    have hafter := Arena.cursorsWithin_layout (c.cursors_poll ⟨board, driver⟩ hcursors)
    simpa [Outcome.inArena, ho] using hafter

/-- The second update of a sequence whose cursor has moved on in the first one. -/
theorem updatesSafely_of_paused :
    let t : Tree Constant := ofBranch (.node (.fresh ⟨0⟩ .root)
      [.node (.fresh ⟨1⟩ (.composite .sequence false 0))
        [.node (.fresh ⟨2⟩ (.leaf .succeed)) [], .node (.fresh ⟨3⟩ (.leaf .running)) []]])
    let now := (t.performAll [.start, .update ()]).1
    Tree.build ⟨false, .everyTick⟩ (some (.sequence [.leaf none Constant.succeed,
      .leaf none .running])) = .ok t ∧
    now.arena.map (fun slot => slot.label.kind.cursor?) = [none, some 1, none, none] ∧
      ∃ board p, now.board = some board ∧ now.state = .running ∧
        now.UpdatesSafely board () p := by
  intro t now
  have hbuild : Tree.build ⟨false, .everyTick⟩ (some (.sequence [.leaf none Constant.succeed,
      .leaf none .running])) = .ok t := rfl
  have hstate : now.state = .running := by decide +kernel
  obtain ⟨board, hboard⟩ : ∃ board, now.board = some board :=
    Option.isSome_iff_exists.mp (by decide +kernel)
  obtain ⟨p, hp⟩ := (Fresh.built _ _ hbuild).updatesSafely [.start, .update ()] hboard hstate ()
  refine ⟨hbuild, ?_, board, p, hboard, hstate, hp⟩
  decide +kernel

end Tree

end BehaviorTree
