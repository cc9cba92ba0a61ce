/-
# What a roll came to

An outcome holds its dice in ascending order of their values, equal dice in the order in which they
were rolled.  The total is the sum of the dice that are kept and of the modifier.

* `Outcome.sorted`: the order, which is part of the type;
* `Outcome.perm_dice`: `ofDice` loses no die and invents none.
-/
import Dice.Die
import Dice.Keep

namespace Dice

/-- Dice in ascending order, which of them count, and what is added to them. -/
structure Outcome where
  dice : List Die
  keep : Option Keep
  modifier : Int
  sorted : dice.Pairwise fun a b => a.value ≤ b.value
  deriving DecidableEq

namespace Outcome

/-! ## 1. Making an outcome -/

/-- The order in which dice are listed. -/
def inOrder (a b : Die) : Bool := a.value ≤ b.value

theorem pairwise_mergeSort_inOrder (pool : List Die) :
    (pool.mergeSort inOrder).Pairwise fun a b => a.value ≤ b.value := by
  refine (List.pairwise_mergeSort ?_ ?_ pool).imp ?_
  · intro a b c hab hbc
    simp only [inOrder, decide_eq_true_eq] at hab hbc ⊢
    omega
  · intro a b
    simp only [inOrder, Bool.or_eq_true, decide_eq_true_eq]
    omega
  · intro a b h
    simpa [inOrder] using h

/-- The outcome of dice in the order in which they were rolled. -/
def ofDice (pool : List Die) (keep : Option Keep) (modifier : Int) : Outcome where
  dice := pool.mergeSort inOrder
  keep := keep
  modifier := modifier
  sorted := pairwise_mergeSort_inOrder pool

theorem perm_dice (pool : List Die) (keep : Option Keep) (modifier : Int) :
    (ofDice pool keep modifier).dice.Perm pool :=
  List.mergeSort_perm pool inOrder

/-! ## 2. What counts -/

/-- The dice that count: all of them, or those that the keep selects. -/
def kept (o : Outcome) : List Die :=
  match o.keep with
  | none => o.dice
  | some k => k.select Die.value o.dice

/-- The sum of the values of some dice. -/
def sumValues (ds : List Die) : Int := ds.foldr (fun d n => d.value + n) 0

/-- The dice that count, and the modifier. -/
def total (o : Outcome) : Int := sumValues o.kept + o.modifier

/-- The sum of several totals. -/
def sumTotals (os : List Outcome) : Int := os.foldr (fun o n => o.total + n) 0

/-! ## 3. Text -/

/-- The modifier as a last term; zero is not shown. -/
def modifierText (m : Int) : String :=
  if 0 < m then " + " ++ Numeral.text m else if m < 0 then " - " ++ Numeral.text (-m) else ""

/-- The total, all dice in parentheses, and the modifier. -/
def text (o : Outcome) : String :=
  Numeral.text o.total ++ " (" ++ ", ".intercalate (o.dice.map Die.text) ++ ")"
    ++ modifierText o.modifier

/-- All integers that the text of an outcome shows, up to their signs. -/
def integers (o : Outcome) : List Int :=
  o.total :: o.dice.flatMap Die.integers ++ [o.modifier]

/-- The text of an outcome, if all its integers are short enough. -/
def written (o : Outcome) : Except Numeral.WriteError String :=
  if o.integers.all Numeral.fits then .ok o.text else .error .tooManyDigits

/-- An outcome by name. -/
def label (o : Outcome) : String := "Outcome<" ++ o.text ++ ">"

end Outcome
end Dice
