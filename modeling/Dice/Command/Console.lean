/-
# The console

The command hands its texts to a console, one after the other, and asks it to take nothing in them
for markup and to wrap no line.  How a text is then shown is up to the console, and consoles differ
in what they make of control characters, tabs, and blanks at the end of a line that is too long for
them.

`Console.Verbatim` is all that is relied on: plain lines are shown as they are.
-/
import Dice.Text.Printable

namespace Dice.Command

/-- A console, by what it shows of a text. -/
structure Console where
  shown : String → String

namespace Console

/-- What is shown of several texts, one after the other. -/
def display (console : Console) (texts : List String) : String :=
  String.join (texts.map console.shown)

/-- **A console that shows plain lines as they are**, each with its end.  A text of several lines
has line feeds between them. -/
structure Verbatim (console : Console) : Prop where
  shown_lines : ∀ lines : List String, (∀ line ∈ lines, Text.PlainLine line) →
    console.shown ("\n".intercalate lines) = "\n".intercalate lines ++ "\n"

end Console
end Dice.Command
