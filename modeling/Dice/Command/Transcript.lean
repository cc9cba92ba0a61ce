/-
# Transcripts

What a run of the command leaves behind: how it ended, what it handed to the console, what it
printed past the console, what was recorded, and how many faces were drawn.
-/
import Dice.Command.Console
import Dice.Command.Options
import Dice.Macro.Table
import Dice.Report

namespace Dice.Command

/-! ## 1. Transcripts -/

/-- Failures for which the command has no words. -/
inductive Escape
  /-- Macros that cannot be loaded, for a reason that is neither in a definition nor in the file
  system. -/
  | load (error : LoadError)
  /-- A batch without a report. -/
  | noReport (error : Report.Refusal)
  deriving Repr, DecidableEq

/-- The words of the system for such a failure, if it has any. -/
def Escape.message? : Escape → Option String
  | load error => error.message?
  | noReport error => some error.message

/-- How a run ends. -/
inductive Ending
  | status (code : Nat)
  | escaped (failure : Escape)
  deriving Repr, DecidableEq

/-- All effects of a run. -/
structure Transcript where
  ending : Ending
  /-- The texts that the console is handed, in their order. -/
  echoed : List String
  /-- What goes to the standard output past the console. -/
  printed : String
  err : String
  records : List Record
  draws : Nat
  deriving Repr, DecidableEq

/-- The standard output of a run with a console. -/
def Transcript.outOn (t : Transcript) (console : Console) : String :=
  t.printed ++ console.display t.echoed

/-! ## 2. Fixed texts -/

/-- How the command is called. -/
def usage : String := "usage: roll [-h] [-m FILE] [--list-macros] [-v] [TOKEN ...]\n"

/-- What the command is for, and what its arguments mean. -/
def helpText : String :=
  usage ++ String.join
    ["\n",
     "Roll dice written in notation like 2d20h1+3 or 4d6r1l3.\n",
     "\n",
     "positional arguments:\n",
     "  TOKEN                 dice notation or the name of a macro, e.g. adv or\n",
     "                        stats\n",
     "\n",
     "options:\n",
     "  -h, --help            show this help message and exit\n",
     "  -m FILE, --macros FILE\n",
     "                        load extra macro definitions\n",
     "  --list-macros         print the known macros and exit\n",
     "  -v, --verbose         log debug output\n"]

/-- The report of a misuse. -/
def usageErrorText (e : UsageError) : String := usage ++ "roll: error: " ++ e.message ++ "\n"

/-- The logger of the command's own records. -/
def logger : String := loggerNamed "cli"

/-- The record of macros that could not be loaded. -/
def loadFailedRecord : Record := ⟨.debug, logger, "Failed to load macros"⟩

/-- The record of tokens of which one stands for nothing. -/
def resolveFailedRecord (tokens : List String) : Record :=
  ⟨.debug, logger, "Failed to resolve " ++ Text.quoteList tokens⟩

/-- An error as the console is handed it. -/
def errorText (message : String) : String := "Error: " ++ message

end Dice.Command
