/-
# Texts in quotes

A text is shown between single quotes, so that an error message stays on one line whatever it
reports.  Double quotes take their place when the text holds a single quote and no double one.
Inside, the quote in use and the backslash are escaped by a backslash, tab and line ends are
written `\t`, `\n`, `\r`, and every other character that is not printable as its code point in two,
four or eight hexadecimal digits.
-/
import Dice.Text.Printable

namespace Dice.Text

/-! ## 1. Escapes -/

/-- The last `width` hexadecimal digits of `n`, in lower case. -/
def hexDigits : (width n : Nat) → List Char
  | 0, _ => []
  | w + 1, n => hexDigits w (n / 16) ++ [Nat.digitChar (n % 16)]

/-- A code point after a backslash: `xhh`, `uhhhh` or `Uhhhhhhhh`, the shortest that holds it. -/
def codePointEscape (n : Nat) : List Char :=
  if n < 0x100 then 'x' :: hexDigits 2 n
  else if n < 0x10000 then 'u' :: hexDigits 4 n
  else 'U' :: hexDigits 8 n

/-- How one character is written between two marks. -/
def quotedChar (mark c : Char) : List Char :=
  if c = mark || c = '\\' then ['\\', c]
  else if c = '\t' then ['\\', 't']
  else if c = '\n' then ['\\', 'n']
  else if c = '\r' then ['\\', 'r']
  else if isPrintable c then [c]
  else '\\' :: codePointEscape c.toNat

/-! ## 2. The mark, and the text in it -/

/-- The mark around most texts. -/
def singleQuote : Char := Char.ofNat 39

/-- The mark around a text that holds single quotes and no double ones. -/
def doubleQuote : Char := Char.ofNat 34

/-- Single quotes are the rule; double ones spare the escapes of a text with single quotes only. -/
def quoteMark (cs : List Char) : Char :=
  if cs.contains singleQuote && !cs.contains doubleQuote then doubleQuote else singleQuote

/-- A text between quotes, with escapes. -/
def quote (s : String) : String :=
  let mark := quoteMark s.toList
  String.ofList (mark :: s.toList.flatMap (quotedChar mark) ++ [mark])

/-- Several texts in quotes, between square brackets. -/
def quoteList (ss : List String) : String := "[" ++ ", ".intercalate (ss.map quote) ++ "]"

end Dice.Text
