/-
# Rolls

A roll says what to throw and what counts: how many dice of how many sides, which faces are thrown
again, which dice are kept and what is added.  The last three may be absent.  A die has at least
one side, which is part of the type.

`Roll.chars` is the notation of a roll: the number of dice unless it is one, `d`, the number of
sides, then the parts that are present, in the order reroll, keep, modifier.
-/
import Dice.Keep

namespace Dice

/-- What to throw and what counts. -/
structure Roll where
  sides : Nat
  number : Nat
  reroll : Option Int
  keep : Option Keep
  modifier : Option Int
  sides_pos : 0 < sides
  deriving DecidableEq

namespace Roll

/-! ## 1. Making a roll from integers -/

/-- Why integers make no roll. -/
inductive Refusal
  | noSides
  | negativeNumber
  deriving Repr, DecidableEq

/-- The words for a refusal. -/
def Refusal.message : Refusal → String
  | noSides => "I can't roll a zero sided die."
  | negativeNumber => "Can't roll a negative number of dice."

/-- A roll of so many dice with so many sides.  The sides are looked at first. -/
def make (sides number : Int) (reroll : Option Int) (keep : Option Keep) (modifier : Option Int) :
    Except Refusal Roll :=
  if h : 0 < sides then
    if 0 ≤ number then
      .ok ⟨sides.toNat, number.toNat, reroll, keep, modifier, by omega⟩
    else .error .negativeNumber
  else .error .noSides

/-! ## 2. Notation -/

/-- The number of dice, which goes without saying if it is one. -/
def numberChars (r : Roll) : List Char := if r.number = 1 then [] else Numeral.natText r.number

/-- The highest face that is rolled again. -/
def rerollChars (r : Roll) : List Char :=
  match r.reroll with
  | none => []
  | some n => 'r' :: Numeral.intText n

/-- The dice that count. -/
def keepChars (r : Roll) : List Char :=
  match r.keep with
  | none => []
  | some k => k.chars

/-- What is added, always with a sign. -/
def modifierChars (r : Roll) : List Char :=
  match r.modifier with
  | none => []
  | some n => Numeral.signedText n

/-- The notation of a roll. -/
def chars (r : Roll) : List Char :=
  r.numberChars ++ 'd' :: Numeral.natText r.sides ++ r.rerollChars ++ r.keepChars ++ r.modifierChars

/-- The notation of a roll. -/
def text (r : Roll) : String := String.ofList r.chars

/-- A roll by name, as in `Roll<2d20h1>`. -/
def label (r : Roll) : String := "Roll<" ++ r.text ++ ">"

end Roll
end Dice
