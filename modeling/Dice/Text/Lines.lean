/-
# Lines of a text file

A line ends at a line feed, at a carriage return, or at the two together; no other character ends
one.  The last line of a file need not be ended.

A file is read in blocks of octets, and its lines are handed on as they are completed.  So a file
that is not UTF-8 throughout still yields lines: those completed by the blocks before the faulty
one.  `readLines` gives the lines and says whether the file was sound to its end.
-/
import Dice.Text.Utf8

namespace Dice.Text

/-! ## 1. Line ends -/

/-- Puts a character in front of a text that is cut into ended lines and an unended rest. -/
def pushChar (c : Char) : List (List Char) × List Char → List (List Char) × List Char
  | ([], rest) => ([], c :: rest)
  | (l :: ls, rest) => ((c :: l) :: ls, rest)

/-- Puts a line end in front of such a text. -/
def endLine : List (List Char) × List Char → List (List Char) × List Char
  | (ls, rest) => ([] :: ls, rest)

/-- The ended lines of a text, without their ends, and what follows the last end. -/
def cutLines : List Char → List (List Char) × List Char
  | [] => ([], [])
  | '\r' :: '\n' :: cs => endLine (cutLines cs)
  | c :: cs => if c = '\n' || c = '\r' then endLine (cutLines cs) else pushChar c (cutLines cs)

/-- The lines of a text; a rest that no line end closes is a line if it is not empty. -/
def lines (cs : List Char) : List (List Char) :=
  let (ls, rest) := cutLines cs
  if rest.isEmpty then ls else ls ++ [rest]

/-- The lines that are sure to be complete when more of the text is to come: a carriage return at
the end may be half of a line end. -/
def settledLines (cs : List Char) : List (List Char) :=
  (cutLines (if cs.getLast? = some '\r' then cs.dropLast else cs)).1

/-! ## 2. Octets in blocks -/

/-- How many octets are read at a time. -/
def blockSize : Nat := 8192

/-- The lines that a file yields, and whether it is UTF-8 to its end. -/
structure Reading where
  lines : List String
  sound : Bool
  deriving Repr, DecidableEq

/-- Reads a file.  A block with a refused octet yields nothing, and a character that the end of the
file cuts off is noticed only there, after all ended lines. -/
def readLines (octets : List UInt8) : Reading :=
  let d := Utf8.decode none octets
  match d.state with
  | some none => ⟨(lines d.chars).map String.ofList, true⟩
  | some (some _) => ⟨(settledLines d.chars).map String.ofList, false⟩
  | none =>
    let before := octets.take (d.accepted / blockSize * blockSize)
    ⟨(settledLines (Utf8.decode none before).chars).map String.ofList, false⟩

end Dice.Text
