import BehaviorTree.Binary.Shortest
import BehaviorTree.Blackboard
import BehaviorTree.Ron.Document
import BehaviorTree.Ron.Reader

/-!
# Values and blackboards in RON

A value is a variant around its content, as in `Int(5)` or `List([Bool(true), Text("a")])`, and a
blackboard is a record with one map, `(values: …)`.
-/

namespace BehaviorTree

open Ron

namespace Value

mutual

def document : Value → Document
  | int n => .wrapped "Int" (.int n.toInt)
  | bool b => .wrapped "Bool" (.bool b)
  | float x => .wrapped "Float" (.float x.render)
  | list items => .wrapped "List" (.list (documents items))
  | text s => .wrapped "Text" (.text s)

def documents : List Value → List Document
  | [] => []
  | v :: vs => document v :: documents vs

end

/-- Takes a value whose lists nest at most `fuel` deep. -/
def readerUpTo : (fuel : Nat) → Reader Value
  | 0 => .fail
  | fuel + 1 =>
    Reader.variant fun name =>
      match name with
      | "Int" => Reader.wrapped do return int (← Reader.int64)
      | "Bool" => Reader.wrapped do return bool (← Reader.bool)
      | "Float" => Reader.wrapped do return float (← Reader.binary64)
      | "List" => Reader.wrapped do return list (← Reader.list (readerUpTo fuel))
      | "Text" => Reader.wrapped do return text (← Reader.text)
      | _ => .fail

/-- Takes a value.  A list takes several levels of depth, so it cannot nest as deep as values
may. -/
def reader : Reader Value := readerUpTo maxDepth

end Value

namespace Blackboard

def document (b : Blackboard) : Document :=
  .record none [("values", .map (b.toList.map fun (key, value) => (key, value.document)))]

/-- Takes the entries of a blackboard; where a key occurs again, the later value counts. -/
def entriesReader : Reader Blackboard := do
  return ofList (← Reader.map Reader.text Value.reader)

def reader : Reader Blackboard := do
  let field (name : String) : Option (Option Blackboard → Reader (Option Blackboard)) :=
    match name with
    | "values" => some fun found => Reader.once found entriesReader some
    | _ => none
  match ← Reader.record "Blackboard" field none with
  | some b => return b
  | none => .fail

end Blackboard

end BehaviorTree
