/-
# Definitions of macros

A line defines a macro by its name and the tokens that the name is to stand for.  Lines that are
blank or start with `#` define nothing.  The tokens of a line are resolved with the macros as the
lines above have left them, so a macro keeps its rolls when a name it used is defined again.

`addLines` adds the definitions of several lines, or none of them: at the first faulty line it
stops with that line's number and fault.
-/
import Dice.Macro.Basic

namespace Dice

/-! ## 1. Lines -/

/-- What a line of definitions says. -/
inductive DefinitionLine
  | silent
  | definition (name : String) (tokens : List String)
  deriving Repr, DecidableEq

/-- Reads a line: the first word is the name, the others are the tokens. -/
def DefinitionLine.read (line : String) : DefinitionLine :=
  let cs := Text.strip line.toList
  if cs.head? = some '#' then silent
  else
    match Text.words cs with
    | [] => silent
    | name :: tokens => definition (String.ofList name) (tokens.map String.ofList)

/-! ## 2. Faults -/

/-- What can be wrong with a definition. -/
inductive Fault
  /-- The name stands alone. -/
  | noRolls (name : String)
  /-- A token stands for no rolls. -/
  | badToken (error : Notation.Error)
  deriving Repr, DecidableEq

/-- The words for a fault. -/
def Fault.message : Fault → String
  | noRolls name => "Macro " ++ Text.quote name ++ " has no rolls."
  | badToken error => error.message

/-- The error that a fault goes back to, if it is the fault of a token. -/
def Fault.cause? : Fault → Option Notation.Error
  | noRolls _ => none
  | badToken error => some error

/-- A fault with the line it is in, counted from one, and the name of the source of the lines. -/
structure DefinitionError where
  source : String
  lineNumber : Nat
  fault : Fault
  deriving Repr, DecidableEq

/-- The words for an error in a definition. -/
def DefinitionError.message (e : DefinitionError) : String :=
  e.source ++ ", line " ++ toString e.lineNumber ++ ": " ++ e.fault.message

/-! ## 3. Adding definitions -/

namespace Macros

/-- The record of a name that is defined again. -/
def redefiningRecord (source name : String) : Record :=
  ⟨.warning, logger, source ++ " redefines macro " ++ Text.quote name⟩

/-- Gives a name the rolls of some tokens. -/
def define (m : Macros) (source name : String) (tokens : List String) :
    Logged (Except Fault Macros) :=
  if tokens.isEmpty then ⟨[], .error (.noRolls name)⟩
  else
    let resolved := m.resolve tokens
    match resolved.result with
    | .error e => ⟨resolved.records, .error (.badToken e)⟩
    | .ok rolls =>
      let again := if m.contains name then [redefiningRecord source name] else []
      ⟨resolved.records ++ again, .ok (m.insert name rolls)⟩

/-- Adds what a line says. -/
def addLine (m : Macros) (source line : String) : Logged (Except Fault Macros) :=
  match DefinitionLine.read line with
  | .silent => ⟨[], .ok m⟩
  | .definition name tokens => m.define source name tokens

/-- Adds what several lines say; the first of them has number `lineNumber`. -/
def addLines (source : String) :
    (lineNumber : Nat) → Macros → List String → Logged (Except DefinitionError Macros)
  | _, m, [] => ⟨[], .ok m⟩
  | k, m, l :: ls =>
    let first := m.addLine source l
    match first.result with
    | .error fault => ⟨first.records, .error ⟨source, k, fault⟩⟩
    | .ok m =>
      let others := addLines source (k + 1) m ls
      ⟨first.records ++ others.records, others.result⟩

end Macros
end Dice
