/-
# Macro tables

A table holds macros and may be frozen.  Definitions are added to a table as a whole or not at all:
`Macros.Table.extend` gives the extended table, or the reason why there is none.
-/
import Dice.Macro.Definition
import Dice.Text.Lines
import Dice.Folder

namespace Dice

/-- Macros, and whether more can be added. -/
structure Macros.Table where
  macros : Macros
  frozen : Bool
  deriving DecidableEq

/-- Why nothing was added to a table. -/
inductive LoadError
  | frozen
  | definition (error : DefinitionError)
  | cannotOpen (path : String) (error : OpenError)
  /-- The file is not text in UTF-8. -/
  | undecodable
  deriving Repr, DecidableEq

/-- The words for an error; for a file that is not text there are none. -/
def LoadError.message? : LoadError → Option String
  | frozen => some "Can't load macros into a read-only table."
  | definition error => some error.message
  | cannotOpen path error => some (error.message path)
  | undecodable => none

namespace Macros.Table

/-- A table with some macros, to which more can be added. -/
def ofMacros (m : Macros) : Macros.Table := ⟨m, false⟩

/-- The same macros in a table that is not frozen. -/
def copy (t : Macros.Table) : Macros.Table := ofMacros t.macros

/-- Adds the definitions that a reading yields.  If the reading breaks off, nothing is added; a
fault in the lines before that is told first. -/
def extendBy (t : Macros.Table) (source : String) (reading : Text.Reading) :
    Logged (Except LoadError Macros.Table) :=
  if t.frozen then ⟨[], .error .frozen⟩
  else
    let added := Macros.addLines source 1 t.macros reading.lines
    match added.result with
    | .error e => ⟨added.records, .error (.definition e)⟩
    | .ok m =>
      ⟨added.records, if reading.sound then .ok { t with macros := m } else .error .undecodable⟩

/-- Adds the definitions of some lines. -/
def extend (t : Macros.Table) (source : String) (lines : List String) :
    Logged (Except LoadError Macros.Table) :=
  t.extendBy source ⟨lines, true⟩

/-- The record of a file that is about to be opened. -/
def loadingRecord (path : String) : Record :=
  ⟨.debug, Macros.logger, "Loading macros from " ++ path⟩

/-- Adds the definitions of a file.  The file is opened before it is asked whether the table is
frozen, and read after that. -/
def extendFrom (t : Macros.Table) (files : Files) (path : String) :
    Logged (Except LoadError Macros.Table) :=
  match files path with
  | .error e => ⟨[loadingRecord path], .error (.cannotOpen path e)⟩
  | .ok octets =>
    let loaded := t.extendBy path (Text.readLines octets)
    ⟨loadingRecord path :: loaded.records, loaded.result⟩

end Macros.Table
end Dice
