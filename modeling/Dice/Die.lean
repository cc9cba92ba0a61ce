/-
# The result of one die

A die shows a face.  If that face is low enough to be rolled again, the second face counts, and
both are remembered.
-/
import Dice.Numeral

namespace Dice

/-- What one die came to: a face that was kept, or a first face and the one that replaced it. -/
inductive Die
  | kept (face : Int)
  | rerolled (first second : Int)
  deriving Repr, DecidableEq

namespace Die

/-- The face that counts. -/
def value : Die → Int
  | kept face => face
  | rerolled _ second => second

/-- The face, or both faces with an arrow between them. -/
def chars : Die → List Char
  | kept face => Numeral.intText face
  | rerolled first second => Numeral.intText first ++ '=' :: '>' :: Numeral.intText second

/-- The integers that the text of a die shows. -/
def integers : Die → List Int
  | kept face => [face]
  | rerolled first second => [first, second]

/-- The text of a die in a list of dice. -/
def text (d : Die) : String := String.ofList d.chars

/-- A die by name, as in `Kept<3>` and `Rerolled<1=>6>`. -/
def label (d : Die) : String :=
  match d with
  | kept _ => "Kept<" ++ d.text ++ ">"
  | rerolled _ _ => "Rerolled<" ++ d.text ++ ">"

/-- The dice of a list by name, between square brackets. -/
def labels (ds : List Die) : String := "[" ++ ", ".intercalate (ds.map label) ++ "]"

end Die
end Dice
