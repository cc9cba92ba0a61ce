import Dice.Main
import Dice.Macro.Session
import Dice.Proofs.Notation.Form
import Dice.Proofs.Notation.LowerCase
import Dice.Proofs.Notation.Check
import Dice.Proofs.Notation.Guards
import Dice.Proofs.Notation.Reading
import Dice.Proofs.Notation.RoundTrip
import Dice.Proofs.Notation.Distinct
import Dice.Proofs.Macro.Runs
import Dice.Proofs.Macro.Lines
import Dice.Proofs.Pool.Ranking
import Dice.Proofs.Macro.Loading
import Dice.Proofs.Pool.Selection
import Dice.Proofs.Roll.Scan
import Dice.Proofs.Macro.Lawful
import Dice.Proofs.Command.Listing
import Dice.Proofs.Expectation.Average
import Dice.Proofs.Binary64.Magnitude
import Dice.Proofs.Binary64.Hundredths
import Dice.Proofs.Report.Written
import Dice.Proofs.Command.Ending
import Dice.Proofs.Command.Outcomes
import Dice.Proofs.Command.OneLine
import Dice.Proofs.Report.Batches
import Dice.Proofs.Report.Expected
import Dice.Proofs.Report.Distinct
import Dice.Proofs.Report.Rounded
import Dice.Proofs.Expectation.ClosedForm
import Dice.Proofs.Macro.Faults
import Dice.Proofs.Macro.Isolation
import Dice.Proofs.Macro.Records
import Dice.Proofs.Macro.Layout
import Dice.Proofs.Journal.Trace
import Dice.Proofs.Pool.Matching
import Dice.Proofs.Roll.Totals
import Dice.Proofs.Roll.Neutral
import Dice.Proofs.Notation.Components
import Dice.Proofs.Expectation.ExactSum
