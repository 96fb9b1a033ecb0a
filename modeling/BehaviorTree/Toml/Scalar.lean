import BehaviorTree.Toml.Value

/-!
# Scalars of TOML documents

Truth values, numbers, dates and times are written without quotation marks; `Scalar.read?` reads the
characters of one as a whole.

* Digits may be grouped by single underscores, each between two digits.  A decimal integer has no
  leading zero; one in another base has no sign.
* Of an integer only the form of its groups is checked here.  Text such as `1_a` or `0x` passes for
  one, whose value is missing (`Value.integer none`).
* A time may leave out its seconds.  A date has to exist in the calendar, and a second may be the
  sixtieth.
-/

namespace BehaviorTree.Toml.Scalar

open BehaviorTree.Text

/-! ## Numbers -/

/-- The parts of a text between underscores, of which there is at least one. -/
def groups : List Char → List Char × List (List Char)
  | [] => ([], [])
  | c :: cs =>
    let (first, others) := groups cs
    if c == '_' then ([], first :: others) else (c :: first, others)

/-- Whether underscores stand only between digits: each group but the last ends with a digit, and
each but the first begins with one. -/
def isGrouped (isDigit : Char → Bool) (cs : List Char) : Bool :=
  let (first, others) := groups cs
  (first :: others).dropLast.all (fun group => group.getLast?.any isDigit) &&
    others.all fun group => group.head?.any isDigit

/-- A text without its underscores. -/
def ungroup (cs : List Char) : List Char := cs.filter (· != '_')

/-- Whether a character is a hexadecimal digit. -/
def isHexDigit (c : Char) : Bool := (digit? c).isSome

/-- The integer that a text with an optional sign in front is in decimal. -/
def decimalInteger? (cs : List Char) : Option Int :=
  let (negative, digits) := takeSign cs
  (ofDigits? 10 digits).map fun n => if negative then -n else n

/-- Reads the digits of an integer in a base.  There may be none, as far as the notation goes. -/
def based? (base : Nat) (digits : List Char) : Option Value :=
  let isDigit (c : Char) : Bool := (digit? c).any (· < base)
  if digits.all (fun c => isDigit c || c == '_') && isGrouped isDigit digits then
    some (.integer ((ofDigits? base (ungroup digits)).map Int.ofNat))
  else none

/-- What follows decimal digits and underscores, with at least one digit among them, of which the
first is no zero in front of others unless `leadingZero` allows it. -/
def afterDigits? (leadingZero : Bool) (cs : List Char) : Option (List Char) :=
  let isPart (c : Char) : Bool := c.isDigit || c == '_'
  let digits := (cs.takeWhile isPart).countP Char.isDigit
  if digits == 0 || (!leadingZero && digits > 1 && cs.head? == some '0') then none
  else some (cs.dropWhile isPart)

/-- Whether a text is a decimal with a fraction, an exponent or both, apart from its sign. -/
def isDecimal (cs : List Char) : Bool :=
  let afterFraction? : List Char → Option (List Char)
    | '.' :: cs => afterDigits? true cs
    | cs => some cs
  let afterExponent? : List Char → Option (List Char)
    | c :: cs =>
      if c == 'e' || c == 'E' then afterDigits? true (takeSign cs).2 else some (c :: cs)
    | [] => some []
  ((afterDigits? false cs).bind fun cs => (afterFraction? cs).bind afterExponent?) == some []

/-- Reads a decimal given with its sign and without. -/
def decimal? (signed cs : List Char) : Option Value :=
  if isDecimal cs && isGrouped Char.isDigit signed then
    (Decimal.read? (ungroup signed)).map .decimal
  else none

/-- Reads a decimal integer given with its sign and without.  Beside its digits only its groups are
looked at; whether all their characters are digits shows where it is used. -/
def integer? (signed cs : List Char) : Option Value :=
  if cs.head? == some '0' && cs.length > 1 || !isGrouped isHexDigit signed then none
  else some (.integer (decimalInteger? (ungroup signed)))

/-! ## Dates and times -/

/-- The number of days of a month. -/
def daysOf (year month : Nat) : Nat :=
  if month = 2 then
    if year % 4 = 0 ∧ (year % 100 ≠ 0 ∨ year % 400 = 0) then 29 else 28
  else if month = 4 ∨ month = 6 ∨ month = 9 ∨ month = 11 then 30
  else 31

/-- A number of exactly `n` decimal digits, and what follows it. -/
def fixed? (n : Nat) (cs : List Char) : Option (Nat × List Char) :=
  let digits := cs.take n
  if digits.length = n ∧ digits.all Char.isDigit then
    (ofDigits? 10 digits).map fun value => (value, cs.drop n)
  else none

/-- What follows a date at the beginning of a text. -/
def afterDate? (cs : List Char) : Option (List Char) :=
  match fixed? 4 cs with
  | some (year, '-' :: cs) =>
    match fixed? 2 cs with
    | some (month, '-' :: cs) =>
      match fixed? 2 cs with
      | some (day, rest) =>
        if 1 ≤ month ∧ month ≤ 12 ∧ 1 ≤ day ∧ day ≤ daysOf year month then some rest else none
      | none => none
    | _ => none
  | _ => none

/-- What follows hours and minutes at the beginning of a text. -/
def afterMinutes? (cs : List Char) : Option (List Char) :=
  match fixed? 2 cs with
  | some (hour, ':' :: cs) =>
    match fixed? 2 cs with
    | some (minute, rest) => if hour ≤ 23 ∧ minute ≤ 59 then some rest else none
    | none => none
  | _ => none

/-- What follows a time at the beginning of a text. -/
def afterTime? (cs : List Char) : Option (List Char) :=
  match afterMinutes? cs with
  | some (':' :: cs) =>
    match fixed? 2 cs with
    | some (second, rest) =>
      if second ≤ 60 then
        match rest with
        | '.' :: cs =>
          if (cs.takeWhile Char.isDigit).isEmpty then none else some (cs.dropWhile Char.isDigit)
        | rest => some rest
      else none
    | none => none
  | rest => rest

/-- Whether a text is an offset from universal time, or nothing at all. -/
def isOffset : List Char → Bool
  | [] => true
  | ['Z'] => true
  | ['z'] => true
  | '+' :: cs => afterMinutes? cs == some []
  | '-' :: cs => afterMinutes? cs == some []
  | _ => false

/-- Whether a text is a date, a time, or both with an optional offset. -/
def isDatetime (cs : List Char) : Bool :=
  match afterDate? cs with
  | some [] => true
  | some (c :: cs) =>
    if c == 'T' || c == 't' || c == ' ' then
      match afterTime? cs with
      | some rest => isOffset rest
      | none => false
    else false
  | none => afterTime? cs == some []

/-! ## Reading -/

/-- Whether a character may stand in a scalar. -/
def isScalarChar (c : Char) : Bool := !("=,[]\x7b\x7d \t#\r\n".toList.contains c)

/-- The characters of the scalar at the beginning of a text, and what follows them.  A date may be
separated from a time by one blank. -/
def take (cs : List Char) : List Char × List Char :=
  let first := cs.takeWhile isScalarChar
  let rest := cs.dropWhile isScalarChar
  match rest with
  | ' ' :: c :: more =>
    if c.isDigit && afterDate? first == some [] then
      (first ++ ' ' :: (c :: more).takeWhile isScalarChar, (c :: more).dropWhile isScalarChar)
    else (first, rest)
  | _ => (first, rest)

/-- Reads what begins with a digit or underscore behind its sign, given with the sign and without.
What follows the first digits decides what it is. -/
def digits? (signed cs : List Char) : Option Value :=
  let rest := cs.dropWhile Char.isDigit
  match rest with
  | [] => integer? signed cs
  | c :: _ =>
    if c == '-' || c == ':' then
      if isDatetime signed then some (.datetime (String.ofList signed)) else none
    else if rest.any fun c => c == '.' || c == 'e' || c == 'E' then decimal? signed cs
    else if c == '_' then integer? signed cs
    else none

/-- Reads a scalar behind its sign; `signed` is all of it. -/
def unsigned? (negative : Bool) (signed cs : List Char) : Option Value :=
  if cs == "inf".toList then some (.special (.infinity negative))
  else if cs == "nan".toList then some (.special (.nan negative))
  else
    match cs with
    | c :: _ => if c.isDigit || c == '_' then digits? signed cs else none
    | [] => none

/-- Reads a scalar. -/
def read? (cs : List Char) : Option Value :=
  match cs with
  | '0' :: 'x' :: digits => based? 16 digits
  | '0' :: 'o' :: digits => based? 8 digits
  | '0' :: 'b' :: digits => based? 2 digits
  | _ =>
    if cs == "true".toList then some (.boolean true)
    else if cs == "false".toList then some (.boolean false)
    else
      let (negative, rest) := takeSign cs
      unsigned? negative cs rest

end BehaviorTree.Toml.Scalar
