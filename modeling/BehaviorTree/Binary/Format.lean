/-!
# Binary floating-point formats

A floating-point number is kept as its bit pattern, so that every operation on it is exact integer
arithmetic and equality of patterns is decidable.  A `Format` gives the widths of the fraction and
exponent fields; `Format.decode` takes a pattern apart into a `Datum`, whose finite members denote
`± significand · 2 ^ exponent`; `Format.round` goes the other way from an exact ratio of naturals.
Powers are `Nat.pow` by name, since `^` means another function where powers of monoids are known.

* `Format.round` is rounding to nearest with ties to the even neighbour; a value beyond the largest
  finite number becomes infinity.
* `Datum.same` is numeric equality: no NaN equals anything, and the two zeros are equal.
* `Datum.nearestInt` is rounding to the nearest integer with ties to even.
-/

namespace BehaviorTree

/-- The quotient of two naturals rounded to the nearest natural, a tie going to the even one. -/
def roundHalfEven (num den : Nat) : Nat :=
  let floor := num / den
  let rest := num % den
  if 2 * rest < den then floor
  else if den < 2 * rest then floor + 1
  else floor + floor % 2

namespace Binary

/-- What a bit pattern denotes. -/
inductive Datum
  | nan (negative : Bool)
  | infinity (negative : Bool)
  /-- The number `± significand · 2 ^ exponent`. -/
  | finite (negative : Bool) (significand : Nat) (exponent : Int)
  deriving DecidableEq

/-- The widths of the fields of a binary format; the sign takes one bit more. -/
structure Format where
  /-- Bits of the fraction, the leading one of a normal number not counted. -/
  fractionBits : Nat
  /-- Bits of the biased exponent. -/
  exponentBits : Nat
  deriving DecidableEq

namespace Format

def binary64 : Format := ⟨52, 11⟩

def binary32 : Format := ⟨23, 8⟩

variable (f : Format)

/-- The exponent field that stands for infinity and NaN. -/
def topExponent : Nat := Nat.pow 2 f.exponentBits - 1

/-- What the exponent field exceeds the exponent of a number in `[1, 2)` by. -/
def bias : Nat := Nat.pow 2 (f.exponentBits - 1) - 1

/-- The exponent of the last place of subnormal numbers: the finest grid of the format. -/
def finestExponent : Int := 1 - (f.bias : Int) - f.fractionBits

def infinityBits : Nat := f.topExponent * Nat.pow 2 f.fractionBits

def signBit : Nat := Nat.pow 2 (f.fractionBits + f.exponentBits)

/-- A magnitude pattern under a sign. -/
def withSign (negative : Bool) (magnitude : Nat) : Nat :=
  if negative then f.signBit + magnitude else magnitude

/-- Takes a pattern apart.  A zero exponent field means a subnormal number, which has no leading
one; the top exponent field means infinity or NaN. -/
def decode (bits : Nat) : Datum :=
  let fraction := bits % Nat.pow 2 f.fractionBits
  let exponent := bits / Nat.pow 2 f.fractionBits % Nat.pow 2 f.exponentBits
  let negative := bits / f.signBit % 2 == 1
  if exponent = f.topExponent then
    if fraction = 0 then .infinity negative else .nan negative
  else if exponent = 0 then .finite negative fraction f.finestExponent
  else
    .finite negative (Nat.pow 2 f.fractionBits + fraction)
      (f.finestExponent + (exponent - 1 : Nat))

/-- The floor of the binary logarithm of `num / den`, for positive `num` and `den`. -/
def floorLog2 (num den : Nat) : Int :=
  let guess : Int := (num.log2 : Int) - den.log2
  if den * Nat.pow 2 guess.toNat ≤ num * Nat.pow 2 (-guess).toNat then guess else guess - 1

/-- The pattern of the number of the format nearest to `num / den`, a tie going to the pattern with
an even last bit.  In the binade of the value the numbers of the format are the multiples of
`2 ^ q`, and patterns count them upwards, so a carry out of the significand lands on the next
pattern, in the end on that of infinity. -/
def round (num den : Nat) : Nat :=
  if num = 0 then 0
  else
    let q := max f.finestExponent (floorLog2 num den - f.fractionBits)
    let significand := roundHalfEven (num * Nat.pow 2 (-q).toNat) (den * Nat.pow 2 q.toNat)
    min f.infinityBits ((q - f.finestExponent).toNat * Nat.pow 2 f.fractionBits + significand)

/-- The pattern of the number nearest to `digits · 10 ^ exponent`.

Beyond `limit` decimal places on either side every value is infinite or zero in the format, so the
power of ten is never computed there. -/
def roundDecimal (digits : Nat) (exponent : Int) : Nat :=
  let limit : Int := (Nat.pow 2 f.exponentBits + f.fractionBits : Nat)
  let places : Int := exponent + (Nat.toDigits 10 digits).length
  if digits = 0 then 0
  else if limit < places then f.infinityBits
  else if places < -limit then 0
  else f.round (digits * Nat.pow 10 exponent.toNat) (Nat.pow 10 (-exponent).toNat)

def nanBits : Nat := f.infinityBits + Nat.pow 2 (f.fractionBits - 1)

/-- The pattern of a datum: exact for a finite one that the format holds, the nearest otherwise. -/
def encode : Datum → Nat
  | .nan negative => f.withSign negative f.nanBits
  | .infinity negative => f.withSign negative f.infinityBits
  | .finite negative m q =>
    f.withSign negative (f.round (m * Nat.pow 2 q.toNat) (Nat.pow 2 (-q).toNat))

end Format

namespace Datum

def isNaN : Datum → Bool
  | nan _ => true
  | _ => false

def isWhole : Datum → Bool
  | finite _ m q => m % Nat.pow 2 (-q).toNat == 0
  | _ => false

/-- The integer nearest to a finite datum, a tie going to the even one. -/
def nearestInt (negative : Bool) (m : Nat) (q : Int) : Int :=
  let magnitude : Nat := roundHalfEven (m * Nat.pow 2 q.toNat) (Nat.pow 2 (-q).toNat)
  if negative then -magnitude else magnitude

/-- Numeric equality of the data of two patterns of one format, in which a number other than zero
has one pattern only: a NaN differs from everything, the two zeros are equal, and everything else
is equal to itself only. -/
def same (a b : Datum) : Bool :=
  match a, b with
  | nan _, _ => false
  | _, nan _ => false
  | finite _ 0 _, finite _ 0 _ => true
  | a, b => a = b

end Datum

end Binary

/-- A number of the 64-bit format, as its bit pattern. -/
structure Binary64 where
  bits : UInt64
  deriving DecidableEq

/-- A number of the 32-bit format, as its bit pattern. -/
structure Binary32 where
  bits : UInt32
  deriving DecidableEq

namespace Binary64

def datum (x : Binary64) : Binary.Datum := Binary.Format.binary64.decode x.bits.toNat

def same (x y : Binary64) : Bool := x.datum.same y.datum

/-- The number nearest to `± digits · 10 ^ exponent`. -/
def ofDecimal (negative : Bool) (digits : Nat) (exponent : Int) : Binary64 :=
  let f := Binary.Format.binary64
  ⟨(f.withSign negative (f.roundDecimal digits exponent)).toUInt64⟩

def ofDatum (d : Binary.Datum) : Binary64 := ⟨(Binary.Format.binary64.encode d).toUInt64⟩

/-- The nearest 64-bit integer: a tie goes to the even neighbour, a number beyond the range to the
end of the range, and a NaN to zero. -/
def toInt64 (x : Binary64) : Int64 :=
  match x.datum with
  | .nan _ => 0
  | .infinity negative => if negative then Int64.minValue else Int64.maxValue
  | .finite negative m q => Int64.ofIntClamp (Binary.Datum.nearestInt negative m q)

end Binary64

namespace Binary32

def datum (x : Binary32) : Binary.Datum := Binary.Format.binary32.decode x.bits.toNat

def same (x y : Binary32) : Bool := x.datum.same y.datum

/-- The number nearest to `± digits · 10 ^ exponent`. -/
def ofDecimal (negative : Bool) (digits : Nat) (exponent : Int) : Binary32 :=
  let f := Binary.Format.binary32
  ⟨(f.withSign negative (f.roundDecimal digits exponent)).toUInt32⟩

def ofDatum (d : Binary.Datum) : Binary32 := ⟨(Binary.Format.binary32.encode d).toUInt32⟩

/-- The same number in the wider format, which holds every number of the narrower one. -/
def widen (x : Binary32) : Binary64 := Binary64.ofDatum x.datum

end Binary32

end BehaviorTree
