import BehaviorTree.Binary.Format

/-!
# The shortest decimal of a binary number

A number of a binary format is written with the fewest decimal digits that read back as it.  The
reals that round to a number form an interval around it (`Interval`); for one digit, two digits and
so on, `shortest` looks at the two neighbours of the number on the decimal grid of that many
digits, and the first grid with a neighbour inside the interval decides.  Of two such neighbours
the nearer one is taken, and the upper one when they are equally near.

* `Shortest.decimal` is the pair of digits and power of ten.
* `Shortest.render` writes it positionally, never with an exponent, and a whole number with one
  fractional zero.
-/

namespace BehaviorTree.Binary

/-- The reals that round to a positive number, over a common denominator: the number itself is
`value / den`, and what rounds to it lies between `low / den` and `high / den`. -/
structure Interval where
  value : Nat
  low : Nat
  high : Nat
  den : Nat
  /-- Whether the ends round to the number. -/
  closed : Bool

namespace Interval

/-- The reals that round to `m · 2 ^ q`.  Each end is halfway to a neighbour; below a power of two
the neighbour is only half as far, unless the grid gets no finer there.  Ties go to the even
significand, so the ends belong to the interval exactly if `m` is even. -/
def around (f : Format) (m : Nat) (q : Int) : Interval :=
  let up := Nat.pow 2 q.toNat
  let down := if m = Nat.pow 2 f.fractionBits ∧ f.finestExponent < q then 1 else 2
  { value := 4 * m * up
    low := (4 * m - down) * up
    high := (4 * m + 2) * up
    den := 4 * Nat.pow 2 (-q).toNat
    closed := m % 2 = 0 }

/-- Whether `num / den'` rounds to the number. -/
def contains (i : Interval) (num den' : Nat) : Bool :=
  let n := num * i.den
  if i.closed then i.low * den' ≤ n && n ≤ i.high * den'
  else i.low * den' < n && n < i.high * den'

end Interval

namespace Shortest

def digitCount (n : Nat) : Nat := (Nat.toDigits 10 n).length

/-- The decimal digits before the point of `num / den`: the integer `k` with
`10 ^ (k - 1) ≤ num / den < 10 ^ k`, given that `num / den ≥ 10 ^ -scale`. -/
def magnitude (num den scale : Nat) : Int :=
  (digitCount (num * Nat.pow 10 scale / den) : Int) - scale

/-- The multiple of `10 ^ place` that is shortest for the interval, as its factor: the nearer one
of the two neighbours of the number that lie inside, and the upper one when both are as near. -/
def onGrid (i : Interval) (place : Int) : Option Nat :=
  let num := i.value * Nat.pow 10 (-place).toNat
  let den := i.den * Nat.pow 10 place.toNat
  let floor := num / den
  let inside (n : Nat) : Bool := i.contains (n * Nat.pow 10 place.toNat) (Nat.pow 10 (-place).toNat)
  match inside floor && floor != 0, inside (floor + 1) with
  | true, true => some (if 2 * (num % den) < den then floor else floor + 1)
  | true, false => some floor
  | false, true => some (floor + 1)
  | false, false => none

/-- The digits and the power of ten of the shortest decimal of `m · 2 ^ q`, for positive `m`.
Seventeen digits are enough for every format up to 64 bits. -/
def decimal (f : Format) (m : Nat) (q : Int) : Nat × Int :=
  let i := Interval.around f m q
  let k := magnitude i.value i.den (f.bias + f.fractionBits)
  let found := (List.range 17).findSome? fun n =>
    let place := k - (n + 1 : Nat)
    (onGrid i place).map fun digits => (digits, place)
  found.getD (0, 0)

/-- Drops trailing zeros of the digits, at most `fuel` of them, raising the power of ten. -/
def trim : (fuel : Nat) → Nat × Int → Nat × Int
  | 0, d => d
  | fuel + 1, (digits, place) =>
    if digits % 10 = 0 then trim fuel (digits / 10, place + 1) else (digits, place)

/-- Writes `digits · 10 ^ place` positionally, with at least one digit on each side of the point. -/
def positional (digits : Nat) (place : Int) : String :=
  let text := Nat.toDigits 10 digits
  let fraction := (-place).toNat
  let padded := List.replicate (fraction + 1 - text.length) '0' ++ text
  let whole := padded.take (padded.length - fraction) ++ List.replicate place.toNat '0'
  let rest := padded.drop (padded.length - fraction)
  String.ofList (whole ++ '.' :: if rest.isEmpty then ['0'] else rest)

/-- The text of a datum of the format: `NaN`, `inf`, or the shortest decimal in positional form,
with a sign in front of a negative one, also of a zero or NaN. -/
def render (f : Format) (d : Datum) : String :=
  let sign (negative : Bool) : String := if negative then "-" else ""
  match d with
  | .nan negative => sign negative ++ "NaN"
  | .infinity negative => sign negative ++ "inf"
  | .finite negative 0 _ => sign negative ++ "0.0"
  | .finite negative m q =>
    let (digits, place) := trim 17 (decimal f m q)
    sign negative ++ positional digits place

end Shortest

end BehaviorTree.Binary

namespace BehaviorTree

def Binary64.render (x : Binary64) : String :=
  Binary.Shortest.render Binary.Format.binary64 x.datum

def Binary32.render (x : Binary32) : String :=
  Binary.Shortest.render Binary.Format.binary32 x.datum

end BehaviorTree
