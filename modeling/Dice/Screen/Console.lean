/-
# The screen

The console of the program.  Texts are shown verbatim, each followed by a line end.  Five control
characters that would move the cursor are left out, and a tab is filled up with spaces to the next
of the stops that come every eight columns.
-/
import Dice.Command.Console
import Dice.Screen.Columns

namespace Dice

namespace Screen

/-- The control characters that are left out: bell, backspace, vertical tab, form feed and carriage
return. -/
def isDropped (c : Char) : Bool := [7, 8, 11, 12, 13].contains c.toNat

/-- How far tab stops are apart. -/
def tabWidth : Nat := 8

/-- How many spaces stand for a tab, given the text since the last stop from its end to its start.
The first space is there in any case, and is measured as part of that text. -/
def tabSpaces (before : List Char) : Nat :=
  1 + (tabWidth - columns (before.reverse ++ [' ']) % tabWidth) % tabWidth

/-- Fills up the tabs of a text.  What stands before it since the last stop is given from its end
to its start; a line starts at a stop, and so does what follows a tab. -/
def expandTabs : (before : List Char) → List Char → List Char
  | _, [] => []
  | before, c :: cs =>
    if c = '\t' then List.replicate (tabSpaces before) ' ' ++ expandTabs [] cs
    else if c = '\n' then c :: expandTabs [] cs
    else c :: expandTabs (c :: before) cs

/-- A text as it is shown. -/
def shown (text : String) : String :=
  String.ofList (expandTabs [] (text.toList.filter fun c => !isDropped c) ++ ['\n'])

end Screen

/-- The screen as a console. -/
def screen : Command.Console := ⟨Screen.shown⟩

end Dice
