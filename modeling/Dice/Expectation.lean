/-
# Expected values

A die that is thrown again on low faces comes on average to the mean of what its faces are worth:
a face above the threshold is worth itself, and one at or below it is worth an average face.  The
expected total of a roll is that mean, times the number of dice that count, plus the modifier.  It
takes the dice that are kept for as many independent ones.

The sum over the faces is written once for every way of rounding (`worthSum`), and is used twice:

* `exactMean` and `exactTotal` do not round at all;
* `meanFace` and `ofRoll` are what is shown.  Their arithmetic is binary64.  Without rerolled faces
  all worths are integers and add up exactly; otherwise they are added from the first face to the
  last, each sum rounded.

`worthSum_succ` is the step from one face to the next.
-/
import Dice.Roll.Basic
import Dice.Shown

namespace Dice.Expectation

/-- Why there is no expected value. -/
inductive Refusal
  /-- A die without sides has no mean. -/
  | noSides
  /-- An integer is beyond the largest binary64 number. -/
  | integerTooLarge
  /-- The average face is beyond the largest binary64 number. -/
  | averageTooLarge
  deriving Repr, DecidableEq

/-- The words for a refusal. -/
def Refusal.message : Refusal → String
  | noSides => "division by zero"
  | integerTooLarge => "int too large to convert to float"
  | averageTooLarge => "integer division result too large for a float"

/-! ## 1. The worth of faces -/

/-- The average face of a die. -/
def averageFace (sides : Int) : Rat := ((sides + 1 : Int) : Rat) / 2

/-- What a face is worth when an average face is worth `average`. -/
def worth (average : Rat) (threshold : Int) (face : Nat) : Rat :=
  if (face : Int) ≤ threshold then average else face

/-- The sum of the worths of the faces `1` to `sides`, rounded at each face. -/
def worthSum (round : Rat → Rat) (average : Rat) (threshold : Int) (sides : Nat) : Rat :=
  sides.fold (fun i _ sum => round (sum + worth average threshold (i + 1))) 0

@[simp] theorem worthSum_zero (round : Rat → Rat) (average : Rat) (threshold : Int) :
    worthSum round average threshold 0 = 0 := rfl

/-- One face more. -/
theorem worthSum_succ (round : Rat → Rat) (average : Rat) (threshold : Int) (sides : Nat) :
    worthSum round average threshold (sides + 1)
      = round (worthSum round average threshold sides + worth average threshold (sides + 1)) := by
  simp [worthSum, Nat.fold_succ]

/-- The threshold below which no face is rerolled. -/
def noThreshold : Int := 0

/-- How many dice count. -/
def countedDice (r : Roll) : Nat :=
  match r.keep with
  | none => r.number
  | some k => min k.count r.number

theorem countedDice_le (r : Roll) : countedDice r ≤ r.number := by
  unfold countedDice
  split
  · exact Nat.le_refl r.number
  · exact Nat.min_le_right _ _

/-! ## 2. Exact expected values -/

/-- The mean of a die, in exact arithmetic. -/
def exactMean (sides : Nat) (reroll : Option Int) : Rat :=
  worthSum id (averageFace sides) (reroll.getD noThreshold) sides / sides

/-- The expected total of a roll, in exact arithmetic. -/
def exactTotal (r : Roll) : Rat :=
  exactMean r.sides r.reroll * countedDice r + (r.modifier.getD 0 : Int)

/-! ## 3. Expected values as they are shown -/

/-- The sum of the faces `1` to `sides`. -/
def faceSum (sides : Nat) : Nat := sides * (sides + 1) / 2

/-- The mean of a die.  A die with a negative number of sides has no faces to add up, and its mean
is a negative zero. -/
def meanFace (sides : Int) (reroll : Option Int) : Except Refusal Binary64 :=
  let threshold := reroll.getD noThreshold
  match Binary64.ofRat (averageFace sides) with
  | .infinite _ => .error .averageTooLarge
  | average =>
    if sides = 0 then .error .noSides
    else if sides < 0 then .ok .negZero
    else if threshold < 1 then .ok (.ofRat ((faceSum sides.toNat : Rat) / sides))
    else .ok (.ofRat (worthSum Binary64.nearest average.value threshold sides.toNat / sides))

/-- An integer as an operand. -/
def operand (n : Int) : Except Refusal Binary64 :=
  match Binary64.ofInt? n with
  | some x => .ok x
  | none => .error .integerTooLarge

/-- The expected total of a roll. -/
def ofRoll (r : Roll) : Except Refusal Binary64 := do
  let mean ← meanFace r.sides r.reroll
  let dice ← operand (countedDice r)
  let modifier ← operand (r.modifier.getD 0)
  .ok ((mean.mul dice).add modifier)

end Dice.Expectation
