/-
# Rounding to binary64

A binary64 number is a whole multiple of a power of two: the multiplier has at most 53 bits, and
the power is at least 2 ^ -1074.  `nearest` gives the closest such number to a rational, and of two
equally close ones the even multiple.  The largest numbers are treated as if there were no end to
the exponents; what lies beyond them is for `Dice.Binary64` to say.

* `roundHalfEven_intCast`: rounding leaves a whole number alone;
* `nearest_zero`: so does `nearest` with zero.
-/

namespace Dice

/-! ## 1. Rounding to whole numbers -/

/-- The whole number closest to a rational; a half goes to the even neighbour. -/
def roundHalfEven (q : Rat) : Int :=
  let below := q.floor
  let excess := q - below
  if excess < 1 / 2 then below
  else if 1 / 2 < excess then below + 1
  else if below % 2 = 0 then below
  else below + 1

/-- The power of two with an integer exponent. -/
def twoPow (e : Int) : Rat := (2 : Rat) ^ e

namespace Binary64

/-! ## 2. The spacing of binary64 numbers -/

/-- The exponent of the largest power of two that is at most a positive rational. -/
def binade (q : Rat) : Int :=
  let e := (q.num.natAbs.log2 : Int) - q.den.log2
  if twoPow e ≤ q then e else e - 1

/-- The least exponent of a unit. -/
def minUnit : Int := -1074

/-- How many bits a multiplier has. -/
def precision : Nat := 53

/-- The exponent of the unit of binary64 numbers near a rational. -/
def unitExponent (q : Rat) : Int := max minUnit (binade q.abs - (precision - 1 : Nat))

/-! ## 3. The nearest binary64 number -/

/-- The closest multiple of the unit; of two equally close ones the even multiple. -/
def nearest (q : Rat) : Rat :=
  if q = 0 then 0
  else
    let unit := twoPow (unitExponent q)
    roundHalfEven (q / unit) * unit

@[simp] theorem nearest_zero : nearest 0 = 0 := by simp [nearest]

end Binary64

@[simp] theorem roundHalfEven_intCast (n : Int) : roundHalfEven n = n := by
  have h : (n : Rat) - ((n : Rat).floor : Rat) = 0 := by
    rw [Rat.floor_intCast, Rat.sub_self]
  simp only [roundHalfEven, h]
  rw [if_pos (by decide +kernel), Rat.floor_intCast]

end Dice
