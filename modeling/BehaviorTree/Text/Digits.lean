import BehaviorTree.Binary.Format

/-!
# Reading digits and decimals

* `digit?` is the value of a digit up to sixteen, and `ofDigits?` that of a run of digits in a base.
* `Decimal.read?` reads a decimal with an optional sign, point and exponent, with digits on at least
  one side of the point.
-/

namespace BehaviorTree.Text

/-- The value of a hexadecimal digit. -/
def digit? (c : Char) : Option Nat :=
  if '0' ≤ c ∧ c ≤ '9' then some (c.toNat - '0'.toNat)
  else if 'a' ≤ c ∧ c ≤ 'f' then some (c.toNat - 'a'.toNat + 10)
  else if 'A' ≤ c ∧ c ≤ 'F' then some (c.toNat - 'A'.toNat + 10)
  else none

/-- The value of a run of digits of a base up to sixteen, read behind the digits `acc`. -/
def ofDigitsFrom? (base : Nat) : (acc : Nat) → List Char → Option Nat
  | acc, [] => some acc
  | acc, c :: cs =>
    match digit? c with
    | some d => if d < base then ofDigitsFrom? base (acc * base + d) cs else none
    | none => none

/-- The value of a run of at least one digit of a base up to sixteen. -/
def ofDigits? (base : Nat) (cs : List Char) : Option Nat :=
  if cs.isEmpty then none else ofDigitsFrom? base 0 cs

/-- A leading sign, whether it is a minus, and the rest. -/
def takeSign : List Char → Bool × List Char
  | '-' :: cs => (true, cs)
  | '+' :: cs => (false, cs)
  | cs => (false, cs)

/-- A decimal number `± digits · 10 ^ exponent`. -/
structure Decimal where
  /-- Whether it is negative; zero has both signs. -/
  negative : Bool
  /-- Its digits as a natural. -/
  digits : Nat
  /-- The power of ten. -/
  exponent : Int

namespace Decimal

/-- Reads the exponent at the end of a decimal: nothing, or a letter `e` with a signed number. -/
def exponent? : List Char → Option Int
  | [] => some 0
  | c :: cs =>
    if c == 'e' || c == 'E' then
      let (negative, digits) := takeSign cs
      (ofDigits? 10 digits).map fun n => if negative then -n else n
    else none

/-- Reads a decimal. -/
def read? (cs : List Char) : Option Decimal :=
  let (negative, cs) := takeSign cs
  let whole := cs.takeWhile Char.isDigit
  let afterWhole := cs.dropWhile Char.isDigit
  let (fraction, tail) := match afterWhole with
    | '.' :: rest => (rest.takeWhile Char.isDigit, rest.dropWhile Char.isDigit)
    | rest => ([], rest)
  match ofDigits? 10 (whole ++ fraction), exponent? tail with
  | some digits, some e => some ⟨negative, digits, e - fraction.length⟩
  | _, _ => none

end Decimal

end BehaviorTree.Text

namespace BehaviorTree

/-- The 64-bit number nearest to a decimal. -/
def Binary64.nearest (d : Text.Decimal) : Binary64 := .ofDecimal d.negative d.digits d.exponent

/-- The 32-bit number nearest to a decimal. -/
def Binary32.nearest (d : Text.Decimal) : Binary32 := .ofDecimal d.negative d.digits d.exponent

end BehaviorTree
