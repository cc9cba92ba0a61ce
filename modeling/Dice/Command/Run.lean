/-
# Runs on the screen

The standard output of a run whose console is the screen.
-/
import Dice.Command.Work
import Dice.Screen.Console

namespace Dice.Command

/-- What a run prints and shows. -/
def Transcript.out (t : Transcript) : String := t.outOn screen

end Dice.Command
