/-
# Tokens

A token writes a roll as

    number? `d` sides (`r` reroll)? ((`h` | `l`) keep)? ((`+` | `-`) modifier)?

with a run of ASCII digits for each number, in upper or lower case.  Reading goes in two steps:
`Parts.scan` finds the runs of digits, `Parts.toRoll` makes numbers of them.  A token without sides
has the right form, and is reported as such, not as a malformed one.

The form leaves no choice: no part starts with a digit, so a run of digits ends where the next part
starts, and no two parts start with the same letter.
-/
import Dice.Notation.Number
import Dice.Roll.Basic
import Dice.Journal

namespace Dice.Notation

/-! ## 1. The form of a token -/

/-- The digits of a token, part by part, as they are written.  The number and the sides may be
empty; the other parts are absent or have at least one digit. -/
structure Parts where
  number : List Char
  sides : List Char
  reroll : Option (List Char)
  keep : Option (Direction × List Char)
  modifier : Option (Char × List Char)
  deriving Repr, DecidableEq

/-- A part behind a mark: what the mark means and the digits after it.  It is absent if the text
does not start with a mark, and a mark without digits is a fault. -/
def markedPart {α : Type} (mark : Char → Option α) (cs : List Char) :
    Option (Option (α × List Char) × List Char) :=
  match cs with
  | [] => some (none, [])
  | c :: rest =>
    match mark c with
    | none => some (none, c :: rest)
    | some a =>
      let digits := rest.takeWhile Char.isDigit
      if digits.isEmpty then none else some (some (a, digits), rest.dropWhile Char.isDigit)

/-- The mark of a reroll. -/
def rerollMark (c : Char) : Option Unit := if c = 'r' then some () else none

/-- The marks of a modifier. -/
def signMark (c : Char) : Option Char := if c = '+' || c = '-' then some c else none

/-- Finds the parts of a token in lower case.  Nothing may follow the last part. -/
def Parts.scan (cs : List Char) : Option Parts := do
  let number := cs.takeWhile Char.isDigit
  let rest ← match cs.dropWhile Char.isDigit with
    | 'd' :: rest => some rest
    | _ => none
  let sides := rest.takeWhile Char.isDigit
  let (reroll, rest) ← markedPart rerollMark (rest.dropWhile Char.isDigit)
  let (keep, rest) ← markedPart Direction.ofLetter? rest
  let (modifier, rest) ← markedPart signMark rest
  if rest.isEmpty then some ⟨number, sides, reroll.map Prod.snd, keep, modifier⟩ else none

/-! ## 2. The numbers of a token -/

/-- An unsigned number that may be absent. -/
def readUnsigned? (component : String) : Option (List Char) → Except Error (Option Int)
  | none => .ok none
  | some cs => (readUnsigned component (String.ofList cs)).map fun (n : Nat) => some (n : Int)

/-- A keep that may be absent. -/
def readKeep? : Option (Direction × List Char) → Except Error (Option Keep)
  | none => .ok none
  | some (d, cs) =>
    (readUnsigned keepComponent (String.ofList cs)).map fun n => some ⟨d, n⟩

/-- A modifier that may be absent; its sign belongs to the number. -/
def readModifier? : Option (Char × List Char) → Except Error (Option Int)
  | none => .ok none
  | some (sign, cs) => (readSigned "modifier" (String.ofList (sign :: cs))).map some

/-- The number of dice; one, if there is no number. -/
def readNumber (cs : List Char) : Except Error Nat :=
  if cs.isEmpty then .ok 1 else readUnsigned "number of dice" (String.ofList cs)

/-- The roll that some parts write.  The sides are looked at first, then the other parts from left
to right; the limit on the number of dice comes last. -/
def Parts.toRoll (p : Parts) : Except Error Roll := do
  let sides ← readUnsigned "die size" (String.ofList p.sides)
  if h : 0 < sides then
    let number ← readNumber p.number
    let reroll ← readUnsigned? "reroll" p.reroll
    let keep ← readKeep? p.keep
    let modifier ← readModifier? p.modifier
    if number ≤ maxDice then .ok ⟨sides, number, reroll, keep, modifier, h⟩
    else .error (.badNumber "number of dice" (String.ofList p.number) .tooManyDice)
  else .error (.badNumber "die size" (String.ofList p.sides) .zeroSides)

/-! ## 3. Tokens -/

/-- Reads a token of dice notation.  Letters of other scripts have no place in it, so lower case is
that of ASCII. -/
def parse (token : String) : Except Error Roll :=
  match Parts.scan (token.toList.map Char.toLower) with
  | none => .error (.malformed token)
  | some p => if p.sides.isEmpty then .error (.missingDie token) else p.toRoll

/-- The logger of this module's records. -/
def logger : String := loggerNamed "parser"

/-- The record of a token that was read. -/
def parsedRecord (token : String) (r : Roll) : Record :=
  ⟨.debug, logger, "Parsed " ++ Text.quote token ++ " as " ++ r.label⟩

/-- Reads a token and records it.  A token that is refused leaves no record. -/
def parseLogged (token : String) : Logged (Except Error Roll) :=
  match parse token with
  | .ok r => ⟨[parsedRecord token r], .ok r⟩
  | .error e => ⟨[], .error e⟩

end Dice.Notation
