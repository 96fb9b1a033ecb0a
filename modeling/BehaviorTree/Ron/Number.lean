import BehaviorTree.Text.Digits

/-!
# Numbers in RON

The characters of a number token are converted as a whole.

* An integer has an optional sign, an optional base (`0x`, `0o`, `0b`), digits, and underscores
  anywhere but in front of the first digit.  Behind decimal or binary digits it may name its type,
  which has to be the type that is read.
* A number with a fraction is a decimal, with underscores allowed behind a digit or the letter of
  the exponent; infinity and NaN are written `inf` and `NaN`.  It may name its type too.
-/

namespace BehaviorTree.Ron.Number

open BehaviorTree.Text

/-! ## Integers -/

/-- A base and the digits in it. -/
def takeBase : List Char → Nat × List Char
  | '0' :: 'x' :: cs => (16, cs)
  | '0' :: 'o' :: cs => (8, cs)
  | '0' :: 'b' :: cs => (2, cs)
  | cs => (10, cs)

/-- The value of digits with underscores, none of them in front. -/
def digits? (base : Nat) (cs : List Char) : Option Nat :=
  if cs.head? = some '_' then none
  else if cs.isEmpty then none
  else ofDigitsFrom? base 0 (cs.filter (· != '_'))

/-- A number of a type, if it lies in the type's range. -/
def inRange (low high n : Int) : Option Int := if low ≤ n ∧ n ≤ high then some n else none

/-- An integer without the name of a type. -/
def plainInteger? (low high : Int) (cs : List Char) : Option Int :=
  let (negative, cs) := takeSign cs
  let (base, cs) := takeBase cs
  match digits? base cs with
  | some n => inRange low high (if negative then -n else n)
  | none => none

/-- The number and the name of its type behind it, if it has one: the name begins behind a run of
hexadecimal digits and underscores. -/
def splitSuffix (cs : List Char) : List Char × List Char :=
  let isDigit (c : Char) : Bool := (digit? c).isSome || c == '_'
  let (sign, body) := match cs with
    | '+' :: body => (['+'], body)
    | '-' :: body => (['-'], body)
    | body => ([], body)
  let rest := body.dropWhile isDigit
  match rest with
  | 'i' :: _ | 'u' :: _ => (sign ++ body.takeWhile isDigit, rest)
  | _ => (cs, [])

/-- An integer of the type called `suffix`, which reaches from `low` to `high`. -/
def integer? (suffix : String) (low high : Int) (text : String) : Option Int :=
  let (number, name) := splitSuffix text.toList
  if name.isEmpty || name == suffix.toList then plainInteger? low high number else none

/-! ## Decimals -/

/-- Takes out underscores; `allowed` says whether one may stand at the beginning. -/
def dropUnderscores? : (allowed : Bool) → List Char → Option (List Char)
  | _, [] => some []
  | allowed, c :: cs =>
    if c == '_' then (if allowed then dropUnderscores? allowed cs else none)
    else
      let allowed := if c.isDigit || c == 'e' || c == 'E' then true
        else if c == '.' then false
        else allowed
      (dropUnderscores? allowed cs).map (c :: ·)

/-- A number other than infinity and NaN, without the name of a type. -/
def decimal? (cs : List Char) : Option Decimal :=
  match dropUnderscores? false cs with
  | some cs => Decimal.read? cs
  | none => none

/-- What is written as a word: infinity or NaN, with an optional sign. -/
def word? (cs : List Char) : Option Binary.Datum :=
  let (negative, name) := takeSign cs
  if name == "inf".toList then some (.infinity negative)
  else if name == "NaN".toList then some (.nan negative)
  else none

/-- Drops the name of a type from the end of a number, if it is there. -/
def dropSuffix (suffix : String) (cs : List Char) : List Char :=
  let body := cs.take (cs.length - suffix.length)
  if body ++ suffix.toList == cs then body else cs

/-- A number of the type called `suffix`, given the nearest number of the type to a decimal and the
number that a datum is. -/
def float? {α : Type} (suffix : String) (ofDecimal : Decimal → α) (ofDatum : Binary.Datum → α)
    (text : String) : Option α :=
  let cs := dropSuffix suffix text.toList
  match word? cs with
  | some d => some (ofDatum d)
  | none => (decimal? cs).map ofDecimal

/-! ## Numbers of no particular type -/

/-- The types that an integer may name, with their ranges. -/
def integerTypes : List (String × Int × Int) :=
  [("i8", Int8.minValue.toInt, Int8.maxValue.toInt),
    ("i16", Int16.minValue.toInt, Int16.maxValue.toInt),
    ("i32", Int32.minValue.toInt, Int32.maxValue.toInt),
    ("i64", Int64.minValue.toInt, Int64.maxValue.toInt),
    ("u8", 0, UInt8.size - 1), ("u16", 0, UInt16.size - 1),
    ("u32", 0, UInt32.size - 1), ("u64", 0, UInt64.size - 1)]

/-- Whether a text is a number of some type. -/
def isAny (text : String) : Bool :=
  integerTypes.any (fun (suffix, low, high) => (integer? suffix low high text).isSome) ||
    ["f32", "f64"].any fun suffix => (float? suffix (fun _ => ()) (fun _ => ()) text).isSome

end BehaviorTree.Ron.Number
