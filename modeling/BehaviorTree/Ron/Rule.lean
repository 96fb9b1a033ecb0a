import BehaviorTree.Composite
import BehaviorTree.Decorator
import BehaviorTree.Ron.Document
import BehaviorTree.Ron.Reader

/-!
# Statuses, kinds and rules in RON

Statuses, composite kinds and comparison operators are bare words.  A decorator rule is a word, or a
word with named fields, as in `Compare(key: "armies", op: Greater, threshold: 3)`; a flag that is
left out is false.
-/

namespace BehaviorTree

open Ron

/-- Takes one of some bare words. -/
def Ron.Reader.word {α : Type} (members : List α) (word : α → String) : Reader α :=
  Reader.variant fun name =>
    match members.find? fun member => word member == name with
    | some member => .pure member
    | none => .fail

def Status.reader : Reader Status := Reader.word Vocabulary.members Status.name

def CompositeKind.word : CompositeKind → String
  | sequence => "Sequence"
  | selector => "Selector"

def CompositeKind.reader : Reader CompositeKind := Reader.word Vocabulary.members CompositeKind.word

def CompareOp.word : CompareOp → String
  | equal => "Equal"
  | notEqual => "NotEqual"
  | greater => "Greater"
  | less => "Less"

def CompareOp.reader : Reader CompareOp := Reader.word Vocabulary.members CompareOp.word

namespace DecoratorRule

def document : DecoratorRule → Document
  | invert => .word "Invert"
  | .repeat => .word "Repeat"
  | reset => .word "Reset"
  | alwaysSucceed => .word "AlwaysSucceed"
  | compare key op threshold once =>
    .record (some "Compare") [("key", .text key), ("op", .word op.word),
      ("threshold", .int threshold.toInt), ("evaluate_once", .bool once)]
  | hasValue key absent once =>
    .record (some "HasValue") [("key", .text key), ("invert", .bool absent),
      ("evaluate_once", .bool once)]
  | increment key => .record (some "Increment") [("key", .text key)]

structure Fields where
  key : Option String
  op : Option CompareOp
  threshold : Option Int64
  /-- Whether the key has to be absent. -/
  absent : Option Bool
  /-- Whether the gate is evaluated once. -/
  once : Option Bool

def field (name : String) (r : Fields) : Reader Fields :=
  match name with
  | "key" => Reader.once r.key Reader.text fun v => { r with key := some v }
  | "op" => Reader.once r.op CompareOp.reader fun v => { r with op := some v }
  | "threshold" => Reader.once r.threshold Reader.int64 fun v => { r with threshold := some v }
  | "invert" => Reader.once r.absent Reader.bool fun v => { r with absent := some v }
  | "evaluate_once" => Reader.once r.once Reader.bool fun v => { r with once := some v }
  | _ => .fail

/-- Takes the fields of a rule, of which it knows those listed. -/
def fields (known : List String) : Reader Fields :=
  Reader.body (fun name => if known.contains name then some (field name) else none)
    ⟨none, none, none, none, none⟩

def reader : Reader DecoratorRule :=
  Reader.variant fun name =>
    match name with
    | "Invert" => .pure invert
    | "Repeat" => .pure .repeat
    | "Reset" => .pure reset
    | "AlwaysSucceed" => .pure alwaysSucceed
    | "Compare" => do
      match ← fields ["key", "op", "threshold", "evaluate_once"] with
      | ⟨some key, some op, some threshold, _, once⟩ =>
        return compare key op threshold (once.getD false)
      | _ => .fail
    | "HasValue" => do
      match ← fields ["key", "invert", "evaluate_once"] with
      | ⟨some key, _, _, absent, once⟩ => return hasValue key (absent.getD false) (once.getD false)
      | _ => .fail
    | "Increment" => do
      match ← fields ["key"] with
      | ⟨some key, _, _, _, _⟩ => return increment key
      | _ => .fail
    | _ => .fail

end DecoratorRule

end BehaviorTree
