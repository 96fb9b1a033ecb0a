import BehaviorTree.Decorator
import BehaviorTree.Leaf

/-!
# Scripted leaves

A scripted leaf plays a list of statuses, one per poll, and performs a list of acts in each hook.
The driver's context of such leaves is a `Journal`: a counter, and the entries that their hooks
have written.  Together they are enough to drive a tree through any run and to watch, from outside,
which hook of which node was called when.

* `Ending` says what a script plays past its end.
* `Act` is a small language of edits of the blackboard and the journal.
* `ScriptedLeaf` gathers scripts, conditions, actions and constants in one type of leaves.
-/

namespace BehaviorTree

/-- An entry that a hook writes into the journal. -/
inductive Entry
  /-- An activation of a labelled leaf began, `first` on its first one. -/
  | started (id : NodeId) (first : Bool) (label : String)
  /-- A labelled leaf was polled at a step of its script. -/
  | updated (id : NodeId) (label : String) (step : Nat) (status : Status)
  /-- An activation of a labelled leaf ended. -/
  | stopped (id : NodeId) (label : String)
  /-- A note of what a key and the counter hold. -/
  | noted (id : NodeId) (key : String) (value : Option Value) (counter : Int64)

/-- The driver's context of scripted leaves. -/
structure Journal where
  /-- The entries, newest first. -/
  newest : List Entry
  counter : Int64

namespace Journal

def empty : Journal := ⟨[], 0⟩

/-- The entries, oldest first. -/
def entries (j : Journal) : List Entry := j.newest.reverse

def write (j : Journal) (e : Entry) : Journal := { j with newest := e :: j.newest }

def emptied (j : Journal) : Journal := { j with newest := [] }

@[simp] theorem entries_write (j : Journal) (e : Entry) :
    (j.write e).entries = j.entries ++ [e] := by
  simp [entries, write]

/-- Adds to the counter, held at the ends of the 64-bit range. -/
def count (j : Journal) (n : Int64) : Journal := { j with counter := saturatingAdd j.counter n }

end Journal

/-- One thing that a hook does to the scene. -/
inductive Act
  | set (key : String) (value : Value)
  | remove (key : String)
  | clear
  /-- Adds to the integer under a key, an absent key counting as zero. -/
  | add (key : String) (n : Int64)
  /-- Copies the value of one key, if it has one, under another. -/
  | copy (source target : String)
  | count (n : Int64)
  /-- Notes what a key and the counter hold. -/
  | note (key : String)

namespace Act

/-- Does the act on behalf of a node. -/
def perform (id : NodeId) (act : Act) (scene : Scene Journal) : Scene Journal :=
  let board := scene.board
  match act with
  | set key value => { scene with board := board.set key value }
  | remove key => { scene with board := board.remove key }
  | clear => { scene with board := .empty }
  | add key n => { scene with board := board.set key (.int (saturatingAdd (board.intOr key 0) n)) }
  | copy source target =>
    match board.get? source with
    | some value => { scene with board := board.set target value }
    | none => scene
  | count n => { scene with driver := scene.driver.count n }
  | note key =>
    let entry := Entry.noted id key (board.get? key) scene.driver.counter
    { scene with driver := scene.driver.write entry }

def performAll (id : NodeId) (acts : List Act) (scene : Scene Journal) : Scene Journal :=
  acts.foldl (fun scene act => act.perform id scene) scene

end Act

/-- What a script plays past its end. -/
inductive Ending
  /-- Its last status again. -/
  | last
  /-- `running`. -/
  | running
  /-- The script from its beginning. -/
  | loop
  deriving DecidableEq

/-- The status that a script plays at a step.  An empty script plays success, unless its ending is
to run on. -/
def Ending.pick (ending : Ending) (script : List Status) (step : Nat) : Status :=
  match script[step]? with
  | some status => status
  | none =>
    match ending with
    | last => script.getLast?.getD .success
    | running => .running
    | loop => script[step % script.length]?.getD .success

/-- A labelled script and what its hooks do besides writing the journal. -/
structure Script where
  /-- The name of the leaf, also in its journal entries. -/
  label : String
  statuses : List Status
  /-- What is played past the last status. -/
  ending : Ending
  /-- Whether an activation plays the script from the beginning. -/
  restart : Bool
  onStart : List Act
  onUpdate : List Act
  onStop : List Act
  /-- How many polls have been played. -/
  step : Nat

namespace Script

/-- Begins an activation: the entry first, then the rewinding, then the acts. -/
def start (id : NodeId) (first : Bool) (leaf : Script) (scene : Scene Journal) :
    Script × Scene Journal :=
  let scene := { scene with driver := scene.driver.write (.started id first leaf.label) }
  let leaf := if leaf.restart then { leaf with step := 0 } else leaf
  (leaf, Act.performAll id leaf.onStart scene)

/-- Plays one poll: the entry first, then the acts. -/
def update (id : NodeId) (leaf : Script) (scene : Scene Journal) :
    Status × Script × Scene Journal :=
  let status := leaf.ending.pick leaf.statuses leaf.step
  let entry := Entry.updated id leaf.label leaf.step status
  let scene := { scene with driver := scene.driver.write entry }
  (status, { leaf with step := leaf.step + 1 }, Act.performAll id leaf.onUpdate scene)

/-- Ends an activation: the entry first, then the acts. -/
def stop (id : NodeId) (leaf : Script) (scene : Scene Journal) : Script × Scene Journal :=
  let scene := { scene with driver := scene.driver.write (.stopped id leaf.label) }
  (leaf, Act.performAll id leaf.onStop scene)

end Script

/-- The leaves of scripted runs. -/
inductive ScriptedLeaf
  | constant (leaf : Constant)
  /-- A constant outcome under the default name. -/
  | plain (status : Status)
  | script (leaf : Script)
  | condition (leaf : Condition Journal)
  /-- A step function that remembers its step. -/
  | action (leaf : Action Nat Journal)

namespace ScriptedLeaf

/-- A condition that compares the integer under a key, or the counter where no key is given. -/
def comparing (name : String) (key : Option String) (op : CompareOp) (rhs : Int64) : ScriptedLeaf :=
  condition
    { name
      holds := fun board journal =>
        let lhs := match key with
          | some key => board.intOr key 0
          | none => journal.counter
        op.apply lhs rhs }

/-- An action that plays statuses and does the same acts at every poll. -/
def playing (name : String) (statuses : List Status) (acts : List Act) : ScriptedLeaf :=
  action
    { name
      memory := 0
      run := fun id step scene =>
        (Ending.last.pick statuses step, step + 1, Act.performAll id acts scene) }

instance : Behavior ScriptedLeaf Journal where
  name
    | constant leaf => leaf.name
    | plain _ => "leaf"
    | script leaf => leaf.label
    | condition leaf => leaf.name
    | action leaf => leaf.name
  onStart id first
    | script leaf, scene => let (leaf, scene) := leaf.start id first scene; (script leaf, scene)
    | leaf, scene => (leaf, scene)
  onUpdate id
    | constant leaf, scene => (leaf.status, constant leaf, scene)
    | plain status, scene => (status, plain status, scene)
    | script leaf, scene =>
      let (status, leaf, scene) := leaf.update id scene
      (status, script leaf, scene)
    | condition leaf, scene =>
      let (status, leaf, scene) := Behavior.onUpdate id leaf scene
      (status, condition leaf, scene)
    | action leaf, scene =>
      let (status, leaf, scene) := Behavior.onUpdate id leaf scene
      (status, action leaf, scene)
  onStop id
    | script leaf, scene => let (leaf, scene) := leaf.stop id scene; (script leaf, scene)
    | leaf, scene => (leaf, scene)

end ScriptedLeaf

end BehaviorTree
