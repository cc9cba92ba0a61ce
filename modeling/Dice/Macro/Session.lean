/-
# Work with several tables

A session makes tables and works with them by number, counting from zero.  Every request for the
standard table takes a number too, and all these numbers mean one and the same table.  So a session
has the memory of its tables and, for each number, the place of the table that it means.

`Session.perform` does one operation.  What an operation answers, and what it records, comes back
beside the new session.  One thing is left out of the records: the first request for the standard
table loads its definitions, which is recorded as any load is.
-/
import Dice.Macro.Standard
import Dice.Macro.Store
import Dice.Report
import Dice.Roll.Throw

namespace Dice

/-! ## 1. Sessions -/

/-- The tables of a session, the meaning of each number, and which table is the standard one. -/
structure Session where
  store : Macros.Store
  meanings : List Nat
  shared : Option Nat
  deriving DecidableEq

namespace Session

/-- A session without tables. -/
def start : Session := ⟨.start, [], none⟩

/-- The table of a number. -/
def table? (s : Session) (number : Nat) : Option Macros.Table :=
  (s.meanings[number]?).bind s.store.table?

/-- How many numbers are in use, which is the next number to be given. -/
def size (s : Session) : Nat := s.meanings.length

/-- A further table under the next number. -/
def add (s : Session) (t : Macros.Table) : Session :=
  { s with store := s.store.add t, meanings := s.meanings ++ [s.store.holders.length] }

/-- The standard table under the next number.  It is made at the first request only. -/
def addStandard (s : Session) : Session :=
  match s.shared with
  | some i => { s with meanings := s.meanings ++ [i] }
  | none => { s.add standardTable with shared := some s.store.holders.length }

end Session

/-! ## 2. Operations and their answers -/

/-- What can be done in a session.  Operations on a table come with its number. -/
inductive Operation
  | newStandard
  | new (macros : Macros)
  | copy (number : Nat)
  | freeze (number : Nat) (frozen : Bool)
  | extend (number : Nat) (source : String) (lines : List String)
  | extendFrom (number : Nat) (path : String)
  | names (number : Nat)
  | rollsOf (number : Nat) (name : String)
  | contains (number : Nat) (name : String)
  | expand (number : Nat) (token : String)
  | resolve (number : Nat) (tokens : List String)
  | roll (number : Nat) (tokens : List String) (source : Source)

/-- Why an operation failed. -/
inductive OperationError
  | noTable
  | noMacro (name : String)
  | badToken (error : Notation.Error)
  | noReport (error : Report.Refusal)
  deriving Repr, DecidableEq

/-- What an operation answers. -/
inductive Answer
  /-- A table under a new number. -/
  | made (number : Nat) (table : Macros.Table)
  /-- A table whose flag was set. -/
  | set (table : Macros.Table)
  /-- Why nothing was added, if so, and the table after that. -/
  | extended (error : Option LoadError) (table : Macros.Table)
  | names (names : List String)
  | contains (answer : Bool)
  | rolls (rolls : List Roll)
  /-- A report, and how many faces were drawn for it. -/
  | report (text : String) (draws : Nat)
  | failed (error : OperationError)

namespace Session

/-- Rolls a list of tokens and reports on it. -/
def report (rolls : List Roll) (source : Source) : Answer :=
  let thrown := Roll.throwAll source rolls 0
  match Report.text rolls thrown.1 with
  | .ok text => .report text thrown.2
  | .error e => .failed (.noReport e)

/-- The rolls that tokens stand for, or the error. -/
def rollsAnswer (resolved : Except Notation.Error (List Roll)) : Answer :=
  match resolved with
  | .ok rolls => .rolls rolls
  | .error e => .failed (.badToken e)

/-- Operations on the table of a number, which come with its place. -/
def withTable (s : Session) (number : Nat) (k : Nat → Macros.Table → Session × Logged Answer) :
    Session × Logged Answer :=
  match s.meanings[number]? with
  | none => (s, ⟨[], .failed .noTable⟩)
  | some place =>
    match s.store.table? place with
    | none => (s, ⟨[], .failed .noTable⟩)
    | some t => k place t

/-- A session that is left as it is, with an answer. -/
def answer (s : Session) (a : Answer) (records : List Record) : Session × Logged Answer :=
  (s, ⟨records, a⟩)

/-- A session after an attempt to extend the table of a number, which is looked up again. -/
def afterLoad (s : Session) (number : Nat) (loaded : Macros.Store × Logged (Option LoadError)) :
    Session × Logged Answer :=
  let s : Session := { s with store := loaded.1 }
  s.withTable number fun _ t => s.answer (.extended loaded.2.result t) loaded.2.records

/-- Does one operation.  The records of making the standard table are left out. -/
def perform (files : Files) (s : Session) : Operation → Session × Logged Answer
  | .newStandard =>
    let s' := s.addStandard
    (s', ⟨[], match s'.table? s.size with
      | some t => .made s.size t
      | none => .failed .noTable⟩)
  | .new macros =>
    let t := Macros.Table.ofMacros macros
    (s.add t, ⟨[], .made s.size t⟩)
  | .copy number => s.withTable number fun _ t => (s.add t.copy, ⟨[], .made s.size t.copy⟩)
  | .freeze number frozen => s.withTable number fun place t =>
    ({ s with store := s.store.setFrozen place frozen }, ⟨[], .set { t with frozen := frozen }⟩)
  | .extend number source lines => s.withTable number fun place t =>
    s.afterLoad number (s.store.load place t source ⟨lines, true⟩)
  | .extendFrom number path => s.withTable number fun place t =>
    s.afterLoad number (s.store.loadFile place t files path)
  | .names number => s.withTable number fun _ t => s.answer (.names t.macros.names) []
  | .rollsOf number name => s.withTable number fun _ t =>
    match t.macros.find? name with
    | some rolls => s.answer (.rolls rolls) []
    | none => s.answer (.failed (.noMacro name)) []
  | .contains number name => s.withTable number fun _ t =>
    s.answer (.contains (t.macros.contains name)) []
  | .expand number token => s.withTable number fun _ t =>
    let expanded := t.macros.expand token
    s.answer (rollsAnswer expanded.result) expanded.records
  | .resolve number tokens => s.withTable number fun _ t =>
    let resolved := t.macros.resolve tokens
    s.answer (rollsAnswer resolved.result) resolved.records
  | .roll number tokens source => s.withTable number fun _ t =>
    let resolved := t.macros.resolve tokens
    match resolved.result with
    | .ok rolls => s.answer (report rolls source) resolved.records
    | .error e => s.answer (.failed (.badToken e)) resolved.records

/-- Does several operations, one after the other. -/
def run (files : Files) (s : Session) : List Operation → Session × List (Logged Answer)
  | [] => (s, [])
  | op :: ops =>
    let (s, a) := s.perform files op
    let (s, as) := s.run files ops
    (s, a :: as)

end Session
end Dice
