/-
# Which dice of a pool count

A keep takes the highest or the lowest dice of a pool.  `Keep.select` is generic in what is kept
and in how it is valued: it lists the pool from the best down, equal ones in the order in which
they came, and takes as many as it keeps.  A pool that is too small is kept whole.
-/
import Dice.Numeral

namespace Dice

/-- From which end of a pool dice are taken. -/
inductive Direction
  | high
  | low
  deriving Repr, DecidableEq

namespace Direction

/-- The letter of a direction. -/
def letter : Direction → Char
  | high => 'h'
  | low => 'l'

/-- The direction of a letter. -/
def ofLetter? : Char → Option Direction
  | 'h' => some high
  | 'l' => some low
  | _ => none

/-- The direction that a text of one letter names. -/
def ofText? (s : String) : Option Direction :=
  if s = "h" then some high else if s = "l" then some low else none

/-- The name of a direction. -/
def name : Direction → String
  | high => "High"
  | low => "Low"

@[simp] theorem ofLetter?_letter (d : Direction) : ofLetter? d.letter = some d := by
  cases d <;> rfl

/-- Whether `a` may stand before `b` when the best in this direction come first. -/
def noWorse (d : Direction) (a b : Int) : Bool :=
  match d with
  | high => b ≤ a
  | low => a ≤ b

end Direction

/-- So many of the highest, or of the lowest, dice. -/
structure Keep where
  direction : Direction
  count : Nat
  deriving Repr, DecidableEq

namespace Keep

/-- A keep from a direction by name and a count; `none` unless the direction is known and the
count is not negative. -/
def make? (direction : String) (count : Int) : Option Keep :=
  match Direction.ofText? direction with
  | none => none
  | some d => if count < 0 then none else some ⟨d, count.toNat⟩

/-- A keep in notation: its letter and its count. -/
def chars (k : Keep) : List Char := k.direction.letter :: Numeral.natText k.count

/-- A keep in notation. -/
def text (k : Keep) : String := String.ofList k.chars

/-- A keep by name, as in `High(3)`. -/
def label (k : Keep) : String := k.direction.name ++ "(" ++ Numeral.text k.count ++ ")"

/-- The pool from the best down, cut to the number that is kept.  Equal ones keep their order. -/
def select {α : Type} (k : Keep) (value : α → Int) (pool : List α) : List α :=
  (pool.mergeSort fun a b => k.direction.noWorse (value a) (value b)).take k.count

/-- As many are selected as the keep asks for and the pool holds. -/
@[simp] theorem length_select {α : Type} (k : Keep) (value : α → Int) (pool : List α) :
    (k.select value pool).length = min k.count pool.length := by
  simp [select]

end Keep
end Dice
