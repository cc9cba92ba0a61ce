/-
# Numbers as they are shown

A number that is whole is shown as an integer.  Any other is first rounded to two decimal places, a
half going to the even neighbour, and is then shown as the binary64 number closest to that.  What is
not finite has a name.

Whether a number is whole is asked before it is rounded.  So a number that only rounds to a whole
one keeps its point and its sign.
-/
import Dice.Binary64.Basic
import Dice.Binary64.Decimal

namespace Dice

/-- A number ready to be shown: an integer, a sign and a magnitude, or neither. -/
inductive Shown
  | whole (n : Int)
  | decimal (negative : Bool) (magnitude : Rat)
  | infinite (negative : Bool)
  | nan
  deriving DecidableEq

namespace Shown

/-- A rational in hundredths, rounded. -/
def hundredths (q : Rat) : Int := roundHalfEven (q * 100)

/-- Prepares a number for being shown. -/
def ofBinary64 : Binary64 → Shown
  | .finite q =>
    if q.den = 1 then whole q.num
    else decimal (q < 0) (Binary64.nearest (((hundredths q).natAbs : Rat) / 100))
  | .negZero => whole 0
  | .infinite s => infinite s
  | .nan => nan

/-- Whether a number is shown as an integer. -/
def isWhole : Shown → Bool
  | whole _ => true
  | decimal _ _ => false
  | infinite _ => false
  | nan => false

/-- The sign in front of a magnitude. -/
def signed (negative : Bool) (cs : List Char) : List Char := if negative then '-' :: cs else cs

/-- A number as it is shown. -/
def text : Shown → String
  | whole n => Numeral.text n
  | decimal negative q => String.ofList (signed negative (Binary64.magnitudeText q))
  | infinite negative => String.ofList (signed negative "inf".toList)
  | nan => "nan"

end Shown
end Dice
