import BehaviorTree.Binary.Format

/-!
# Values on a blackboard

A `Value` is an integer, a truth value, a number, a list of values or a text.  Gates compare
values as integers, so every value has a **coercion** to one (`Value.toInt64`): an integer is
itself, a truth value is zero or one, a number goes to the nearest integer, a list counts its items
and a text is zero.

`Value.same` is equality as the program compares values: numeric on numbers, hence false on a value
that holds a NaN anywhere.
-/

namespace BehaviorTree

/-- A value stored under a key of a blackboard. -/
inductive Value
  | int (n : Int64)
  | bool (b : Bool)
  | float (x : Binary64)
  /-- A list of values, of which only the length counts in a comparison. -/
  | list (items : List Value)
  | text (s : String)

/-- The sum of two integers, held at the ends of the 64-bit range. -/
def saturatingAdd (a b : Int64) : Int64 := Int64.ofIntClamp (a.toInt + b.toInt)

namespace Value

instance : Inhabited Value := ⟨int 0⟩

/-- The integer that a gate sees. -/
def toInt64 : Value → Int64
  | int n => n
  | bool b => if b then 1 else 0
  | float x => x.toInt64
  | list items => Int64.ofIntClamp items.length
  | text _ => 0

def kind : Value → String
  | int _ => "int"
  | bool _ => "bool"
  | float _ => "float"
  | list _ => "list"
  | text _ => "text"

/-- A narrow integer as a value. -/
def ofInt32 (n : Int32) : Value := int n.toInt64

/-- A narrow number as a value: the same number in the wider format. -/
def ofBinary32 (x : Binary32) : Value := float x.widen

mutual

/-- Equality of values, numeric on numbers. -/
def same : Value → Value → Bool
  | int m, int n => m == n
  | bool a, bool b => a == b
  | float x, float y => x.same y
  | list xs, list ys => sameAll xs ys
  | text s, text t => s == t
  | _, _ => false

/-- Equality of lists of values, item by item. -/
def sameAll : List Value → List Value → Bool
  | [], [] => true
  | x :: xs, y :: ys => same x y && sameAll xs ys
  | _, _ => false

end

end Value

end BehaviorTree
