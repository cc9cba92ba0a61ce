/-
# What can be wrong with a token

A token of dice notation fails in one of four ways: it has no such form, it leaves the number of
sides open, one of its numbers cannot be used, or it keeps dice from an unknown end.  Each error
holds the text that is to blame, as the user wrote it.
-/
import Dice.Text.Quoted

namespace Dice.Notation

/-- Why a number cannot be used.  A text that is no numeral at all needs no further word. -/
inductive Reason
  | notANumeral
  | outOfRange
  | zeroSides
  | tooManyDice
  deriving Repr, DecidableEq

/-- Why a token is refused. -/
inductive Error
  /-- The token does not have the form of a roll. -/
  | malformed (token : String)
  /-- The token does not say how many sides the dice have. -/
  | missingDie (token : String)
  /-- A number, named by what it stands for, cannot be used. -/
  | badNumber (component text : String) (reason : Reason)
  /-- Dice are kept from neither end. -/
  | unknownDirection (direction : String)
  deriving Repr, DecidableEq

/-- The most dice that a token may ask for. -/
def maxDice : Nat := 1000

/-- The words for a reason, which come in parentheses. -/
def Reason.words : Reason → Option String
  | notANumeral => none
  | outOfRange => some "out of range"
  | zeroSides => some "zero sides"
  | tooManyDice => some ("at most " ++ toString maxDice ++ " dice")

/-- The parenthesis with the reason, if there is one. -/
def Reason.suffix (r : Reason) : String :=
  match r.words with
  | none => ""
  | some w => " (" ++ w ++ ")"

/-- The words for an error. -/
def Error.message : Error → String
  | malformed token => "Could not parse " ++ Text.quote token ++ "."
  | missingDie token => "No die specified in " ++ Text.quote token ++ "."
  | badNumber component text reason =>
    "Failed to parse " ++ component ++ ": " ++ Text.quote text ++ reason.suffix ++ "."
  | unknownDirection direction => "Unknown keep direction: " ++ Text.quote direction ++ "."

end Dice.Notation
