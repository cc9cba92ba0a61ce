/-
# Binary64 numbers

A finite binary64 number is known by its exact value, and zero also by its sign.  A sum or a product
is the exact one, rounded to the nearest binary64 number; what is too large becomes infinite.

* `ofRat`: rounding to binary64;
* `add`, `mul`: arithmetic;
* `ofBits`, `toBits`: the interchange format, with a sign bit, eleven bits of exponent and 52 bits
  of fraction.
-/
import Dice.Binary64.Rounding

namespace Dice

/-- A number of the binary64 format. -/
inductive Binary64
  | finite (value : Rat)
  | negZero
  | infinite (negative : Bool)
  | nan
  deriving DecidableEq

namespace Binary64

/-! ## 1. Value and sign -/

/-- The exact value of a finite number; infinities and the not-a-number have none and give zero. -/
def value : Binary64 → Rat
  | finite q => q
  | negZero => 0
  | infinite _ => 0
  | nan => 0

/-- The sign of a number; zero has one too. -/
def isNegative : Binary64 → Bool
  | finite q => q < 0
  | negZero => true
  | infinite s => s
  | nan => false

/-- Both zeroes. -/
def isZero : Binary64 → Bool
  | finite q => q == 0
  | negZero => true
  | infinite _ => false
  | nan => false

/-! ## 2. Rounding and arithmetic -/

/-- The least power of two that no finite number reaches. -/
def overflowBound : Rat := twoPow 1024

/-- Rounds an exact result.  The sign is that of a result of zero. -/
def round (negative : Bool) (q : Rat) : Binary64 :=
  let v := nearest q
  if v = 0 then (if negative then negZero else finite 0)
  else if overflowBound ≤ v.abs then infinite (v < 0)
  else finite v

/-- The binary64 number closest to a rational. -/
def ofRat (q : Rat) : Binary64 := round (q < 0) q

/-- The binary64 number closest to an integer, unless the integer is too large. -/
def ofInt? (n : Int) : Option Binary64 :=
  match ofRat n with
  | infinite _ => none
  | x => some x

/-- The sum.  Opposite numbers add up to the positive zero. -/
def add : Binary64 → Binary64 → Binary64
  | nan, _ => nan
  | _, nan => nan
  | infinite s, infinite t => if s = t then infinite s else nan
  | infinite s, _ => infinite s
  | _, infinite t => infinite t
  | negZero, negZero => negZero
  | x, y => round (x.value + y.value < 0) (x.value + y.value)

/-- The product. -/
def mul : Binary64 → Binary64 → Binary64
  | nan, _ => nan
  | _, nan => nan
  | infinite s, y => if y.isZero then nan else infinite (s ^^ y.isNegative)
  | x, infinite t => if x.isZero then nan else infinite (x.isNegative ^^ t)
  | x, y => round (x.isNegative ^^ y.isNegative) (x.value * y.value)

/-! ## 3. The interchange format -/

/-- How many numbers the fraction field can hold. -/
def fractionCount : Nat := 4503599627370496

/-- How many numbers the exponent field can hold. -/
def exponentCount : Nat := 2048

/-- What is added to the exponent of the unit in the exponent field. -/
def exponentBias : Int := 1075

/-- The number that a word of 64 bits stands for. -/
def ofBits (word : Nat) : Binary64 :=
  let fraction := word % fractionCount
  let exponent := word / fractionCount % exponentCount
  let negative := word / (fractionCount * exponentCount) % 2 = 1
  if exponent = exponentCount - 1 then
    if fraction = 0 then infinite negative else nan
  else
    let magnitude :=
      if exponent = 0 then (fraction : Rat) * twoPow minUnit
      else ((fractionCount + fraction : Nat) : Rat) * twoPow (exponent - exponentBias)
    if magnitude = 0 then (if negative then negZero else finite 0)
    else finite (if negative then -magnitude else magnitude)

/-- The exponent and fraction fields of a positive number, read as one number.  A multiplier of
less than 53 bits belongs to exponent zero. -/
def magnitudeBits (q : Rat) : Nat :=
  let e := unitExponent q
  let m := (q / twoPow e).num.natAbs
  if m < fractionCount then m else (e + exponentBias).toNat * fractionCount + (m - fractionCount)

/-- The word of 64 bits for a number. -/
def toBits (x : Binary64) : Nat :=
  let magnitude :=
    match x with
    | finite q => if q = 0 then 0 else magnitudeBits q.abs
    | negZero => 0
    | infinite _ => (exponentCount - 1) * fractionCount
    | nan => (exponentCount - 1) * fractionCount + fractionCount / 2
  (if x.isNegative then exponentCount * fractionCount else 0) + magnitude

end Binary64
end Dice
