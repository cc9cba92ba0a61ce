/-
# Numbers in a token

The number of dice, the sides, the reroll threshold and the number of dice to keep are unsigned
and fit 32 bits; a modifier is signed and fits 32 bits.
-/
import Dice.Notation.Error
import Dice.Keep

namespace Dice.Notation

/-- The largest unsigned number. -/
def maxUnsigned : Nat := 4294967295

/-- The largest signed number; the smallest is one below its negative. -/
def maxSigned : Nat := 2147483647

/-- Reads an integer between two bounds. -/
def readBetween (lo hi : Int) (component text : String) : Except Error Int :=
  match Numeral.read? text.toList with
  | none => .error (.badNumber component text .notANumeral)
  | some n =>
    if lo ≤ n ∧ n ≤ hi then .ok n else .error (.badNumber component text .outOfRange)

/-- Reads an unsigned number. -/
def readUnsigned (component text : String) : Except Error Nat :=
  (readBetween 0 maxUnsigned component text).map Int.toNat

/-- Reads a signed number. -/
def readSigned (component text : String) : Except Error Int :=
  readBetween (-(maxSigned : Int) - 1) maxSigned component text

/-- What the number in a keep is called. -/
def keepComponent : String := "number of dice to keep"

/-- Reads a keep.  The number is looked at before the direction. -/
def readKeep (direction text : String) : Except Error Keep := do
  let n ← readUnsigned keepComponent text
  match Direction.ofText? direction with
  | some d => .ok ⟨d, n⟩
  | none => .error (.unknownDirection direction)

end Dice.Notation
