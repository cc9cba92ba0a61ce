/-
# Binary64 numbers in decimal

A decimal stands for the binary64 number closest to it.  So a number is written with as few decimal
places as still single it out: places are added until the closest decimal with so many places reads
back as the number.  A whole number keeps a point and one zero.

This is meant for numbers that need no exponent; `Dice.Shown` says which ones are written.
-/
import Dice.Binary64.Rounding
import Dice.Numeral

namespace Dice.Binary64

/-- The powers of ten. -/
def tenPow (places : Nat) : Nat := Nat.pow 10 places

/-- The closest decimal with so many places, as a number of units in the last place. -/
def unitsAt (q : Rat) (places : Nat) : Int := roundHalfEven (q * tenPow places)

/-- Whether that decimal stands for the number. -/
def readsBackAt (q : Rat) (places : Nat) : Bool :=
  nearest ((unitsAt q places : Rat) / tenPow places) == q

/-- With this many places every binary64 number is exact. -/
def maxPlaces : Nat := 1074

/-- The fewest places that are enough. -/
def fewestPlaces (q : Rat) : Nat := ((List.range maxPlaces).find? (readsBackAt q)).getD maxPlaces

/-- The last `places` digits of a number, with leading zeroes. -/
def lastDigits : (places n : Nat) → List Char
  | 0, _ => []
  | p + 1, n => lastDigits p (n / 10) ++ [Nat.digitChar (n % 10)]

/-- So many units in the last place, with a point.  There is a digit on either side of it. -/
def pointText (units places : Nat) : List Char :=
  Numeral.natText (units / tenPow places) ++ '.' ::
    (if places = 0 then ['0'] else lastDigits places units)

/-- A number that is not negative, in decimal. -/
def magnitudeText (q : Rat) : List Char :=
  pointText (unitsAt q (fewestPlaces q)).natAbs (fewestPlaces q)

end Dice.Binary64
