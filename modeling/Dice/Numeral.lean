/-
# Integers in decimal

Written, an integer is a run of ASCII digits without leading zeroes, with a minus sign if it is
negative (`natText`, `intText`); a constant that is added also shows its plus sign (`signedText`).

Read, an integer may be written in more ways: with white space around it, with either sign, with
digits of any script, with leading zeroes, and with single underscores between its digits.

A numeral has at most `maxDigits` digits, leading zeroes counted and signs and underscores not.
Longer ones are not read, and an integer that needs more digits is not written (`written`).

* `read?_eq_some_iff`: what `read?` accepts and which integer it gives.
-/
import Dice.Text.Blank
import Dice.Text.DecimalDigit

namespace Dice.Numeral

open Dice.Text

/-! ## 1. Written integers -/

/-- The digits of a natural number. -/
def natText (n : Nat) : List Char := Nat.toDigits 10 n

/-- The digits of an integer, after a minus sign if it is negative. -/
def intText : Int → List Char
  | .ofNat n => natText n
  | .negSucc n => '-' :: natText (n + 1)

/-- An integer with its sign, also a plus sign. -/
def signedText (n : Int) : List Char := if n < 0 then intText n else '+' :: intText n

/-- An integer as a text. -/
def text (n : Int) : String := String.ofList (intText n)

/-- The length of the longest numeral. -/
def maxDigits : Nat := 4300

/-- Why an integer is not written. -/
inductive WriteError
  | tooManyDigits
  deriving Repr, DecidableEq

/-- The words for such an error. -/
def WriteError.message : WriteError → String
  | tooManyDigits =>
    "Exceeds the limit (" ++ text maxDigits ++ " digits) for integer string conversion; "
      ++ "use sys.set_int_max_str_digits() to increase the limit"

/-- Whether an integer is short enough to be written. -/
def fits (n : Int) : Bool := (natText n.natAbs).length ≤ maxDigits

/-- An integer as a text, if it is short enough. -/
def written (n : Int) : Except WriteError String :=
  if fits n then .ok (text n) else .error .tooManyDigits

/-! ## 2. Numerals -/

/-- White space that may stand around a numeral: all but the four information separators,
U+001C to U+001F. -/
def isPadding (c : Char) : Bool := isBlank c && !(0x1c ≤ c.toNat && c.toNat ≤ 0x1f)

/-- The digits that continue a numeral, each alone or after one underscore. -/
def moreDigits? : List Char → Option (List Nat)
  | [] => some []
  | '_' :: c :: cs => (digitValue? c).bind fun d => (moreDigits? cs).map (d :: ·)
  | c :: cs => (digitValue? c).bind fun d => (moreDigits? cs).map (d :: ·)

/-- The digits of a numeral, of which there is at least one. -/
def digits? : List Char → Option (List Nat)
  | [] => none
  | c :: cs => (digitValue? c).bind fun d => (moreDigits? cs).map (d :: ·)

/-- The number that a run of decimal digits denotes. -/
def ofDigits (ds : List Nat) : Nat := ds.foldl (fun n d => 10 * n + d) 0

/-- Splits off a sign; the flag says whether it is a minus sign. -/
def splitSign : List Char → Bool × List Char
  | '+' :: cs => (false, cs)
  | '-' :: cs => (true, cs)
  | cs => (false, cs)

/-- The integer that a sign and a magnitude denote. -/
def signed (negative : Bool) (n : Nat) : Int := if negative then -(n : Int) else n

/-- Reads an integer. -/
def read? (cs : List Char) : Option Int :=
  let parts := splitSign (stripBy isPadding cs)
  match digits? parts.2 with
  | some ds => if ds.length ≤ maxDigits then some (signed parts.1 (ofDigits ds)) else none
  | none => none

/-- **What is read as a number.**  Between its padding a numeral is a sign and digits, not too many
of them, and its value is that of the digits under the sign. -/
theorem read?_eq_some_iff {cs : List Char} {n : Int} :
    read? cs = some n ↔
      ∃ ds, digits? (splitSign (stripBy isPadding cs)).2 = some ds ∧ ds.length ≤ maxDigits ∧
        n = signed (splitSign (stripBy isPadding cs)).1 (ofDigits ds) := by
  simp only [read?]
  cases h : digits? (splitSign (stripBy isPadding cs)).2 with
  | none => simp
  | some ds =>
    by_cases hl : ds.length ≤ maxDigits
    · simp [hl, eq_comm]
    · simp [hl]

end Dice.Numeral
