/-
# Runs of the command

One run of the command reads its arguments, loads the macros that are asked for, and then does one
of three things: it lists the macros, it says how it is used, or it rolls its tokens and reports.

The standard table is an object that others use too, so a run takes place in a session (`runIn`).
It does to the tables what `tableOperations` says and nothing else: once the macros are loaded, they
are only looked at.  `run` is the run of a program that has just started.
-/
import Dice.Command.Transcript
import Dice.Macro.Session

namespace Dice

/-- Why a table was not extended, if an answer tells so. -/
def Answer.refusal? : Answer → Option LoadError
  | extended error _ => error
  | _ => none

namespace Command

/-! ## 1. Loading the macros -/

/-- The file that a run is to load; an empty path asks for none. -/
def wantedFile (macroFile : Option String) : Option String := macroFile.filter fun path => path ≠ ""

/-- What a run does to have a table: it asks for the standard table, and extends a copy of it by the
file that it is to load. -/
def tableOperations (s : Session) (macroFile : Option String) : List Operation :=
  match wantedFile macroFile with
  | none => [.newStandard]
  | some path => [.newStandard, .copy s.size, .extendFrom (s.size + 1) path]

/-- The number of the table that a run works with. -/
def tableNumber (s : Session) (macroFile : Option String) : Nat :=
  match wantedFile macroFile with
  | none => s.size
  | some _ => s.size + 1

/-- Loads the macros to work with.  After that their table is in the session under its number, unless
one of the operations tells why it was not extended; so the table that stands in for a missing one
never counts.  The records are those of the operations, and what is recorded when the standard table
is made is left out here too. -/
def loadMacros (s : Session) (files : Files) (macroFile : Option String) :
    Session × Logged (Except LoadError Macros.Table) :=
  let made := s.run files (tableOperations s macroFile)
  let outcome : Except LoadError Macros.Table :=
    match made.2.findSome? fun a => a.result.refusal? with
    | some e => .error e
    | none => .ok ((made.1.table? (tableNumber s macroFile)).getD standardTable)
  (made.1, ⟨made.2.flatMap Logged.records, outcome⟩)

/-! ## 2. Working with them -/

/-- A macro as it is listed: its name and the notation of its rolls. -/
def listingLine (e : MacroEntry) : String := e.1 ++ "  " ++ " ".intercalate (e.2.map Roll.text)

/-- The macros of a table as they are listed, each in a text of its own. -/
def listing (t : Macros.Table) : List String := t.macros.entries.map listingLine

/-- Whether the command has words for macros that cannot be loaded. -/
def isReported : LoadError → Bool
  | .definition _ => true
  | .cannotOpen _ .nullCharacter => false
  | .cannotOpen _ _ => true
  | .frozen => false
  | .undecodable => false

/-- The end of a run whose macros cannot be loaded. -/
def loadFailed (e : LoadError) (records : List Record) : Transcript :=
  if isReported e then
    ⟨.status 2, [errorText (e.message?.getD "")], "", "", records ++ [loadFailedRecord], 0⟩
  else ⟨.escaped (.load e), [], "", "", records, 0⟩

/-- Rolls and reports. -/
def rollAndReport (rolls : List Roll) (source : Source) (records : List Record) : Transcript :=
  let thrown := Roll.throwAll source rolls 0
  match Report.text rolls thrown.1 with
  | .ok text => ⟨.status 0, [text], "", "", records, thrown.2⟩
  | .error e => ⟨.escaped (.noReport e), [], "", "", records, thrown.2⟩

/-- Does what the options ask for with the macros, if they were loaded.  Tokens count only if there
is nothing to list, and dice are thrown only if every token stands for rolls. -/
def workWith (loaded : Logged (Except LoadError Macros.Table)) (o : Options) (source : Source) :
    Transcript :=
  match loaded.result with
  | .error e => loadFailed e loaded.records
  | .ok t =>
    if o.listing then ⟨.status 0, listing t, "", "", loaded.records, 0⟩
    else if o.tokens.isEmpty then ⟨.status 2, [], "", usage, loaded.records, 0⟩
    else
      let resolved := t.macros.resolve o.tokens
      let records := loaded.records ++ resolved.records
      match resolved.result with
      | .error e =>
        ⟨.status 1, [errorText e.message], "", "", records ++ [resolveFailedRecord o.tokens], 0⟩
      | .ok rolls => rollAndReport rolls source records

/-! ## 3. Runs -/

/-- One run in a session, and the session after it.  Records below the threshold are not kept. -/
def runIn (s : Session) (arguments : List String) (files : Files) (source : Source) :
    Session × Transcript :=
  match readArguments arguments with
  | .error e => (s, ⟨.status 2, [], "", usageErrorText e, [], 0⟩)
  | .ok .help => (s, ⟨.status 0, [], helpText, "", [], 0⟩)
  | .ok (.work o) =>
    let (s, loaded) := loadMacros s files o.macroFile
    let t := workWith loaded o source
    (s, { t with records := recordsFrom (Journal.thresholdFor o.verbose) t.records })

/-- The run of a program that has just started. -/
def run (arguments : List String) (files : Files) (source : Source) : Transcript :=
  (runIn .start arguments files source).2

end Command
end Dice
