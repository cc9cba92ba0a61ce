/-
# The report on a batch of rolls

Each roll has a line with its notation, its outcome and its expected total.  A batch of several
outcomes ends with a line for the sum of their totals.

There is no report if a roll has no expected total, or if an integer is too long to be written.  Of
several such reasons the first in the order of the text counts, and for one roll its expectation
comes before its outcome.
-/
import Dice.Expectation
import Dice.Outcome

namespace Dice.Report

/-- Why there is no report. -/
inductive Refusal
  | noExpectation (error : Expectation.Refusal)
  | notWritten (error : Numeral.WriteError)
  deriving Repr, DecidableEq

/-- The words for a refusal. -/
def Refusal.message : Refusal → String
  | noExpectation error => error.message
  | notWritten error => error.message

/-- The line for one roll. -/
def line (r : Roll) (o : Outcome) : Except Refusal String := do
  let expected ← (Expectation.ofRoll r).mapError .noExpectation
  let outcome ← o.written.mapError .notWritten
  .ok (r.text ++ ": " ++ outcome ++ " (Expected: " ++ (Shown.ofBinary64 expected).text ++ ")")

/-- The lines for rolls and their outcomes, up to the end of the shorter list. -/
def rollLines : List Roll → List Outcome → Except Refusal (List String)
  | r :: rs, o :: os => do
    let l ← line r o
    let ls ← rollLines rs os
    .ok (l :: ls)
  | _, _ => .ok []

/-- The last line of a batch of several outcomes. -/
def totalLines (os : List Outcome) : Except Refusal (List String) :=
  match os with
  | _ :: _ :: _ => do
    let total ← (Numeral.written (Outcome.sumTotals os)).mapError .notWritten
    .ok ["Total: " ++ total]
  | _ => .ok []

/-- The whole report. -/
def text (rs : List Roll) (os : List Outcome) : Except Refusal String := do
  let ls ← rollLines rs os
  let totals ← totalLines os
  .ok ("\n".intercalate (ls ++ totals))

end Dice.Report
