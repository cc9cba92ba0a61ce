/-
# Tables in memory

A table is an object: whoever holds on to it sees what becomes of it.  `Store` is the memory of
such objects.  A table there has the address of a dictionary, which is where its macros are, and
its flag.

Lines are added in the memory itself.  The dictionary of the table is copied to a new address, the
lines are added to the copy one after the other (`stageLines`), and if nothing goes wrong the table
turns to the copy (`load`).  A failing load stops in the midst of that; what was staged until then
stays behind in the memory.
-/
import Dice.Macro.Table

namespace Dice.Macros

/-! ## 1. The memory -/

/-- A table as an object: where its macros are, and whether more can be added. -/
structure Holder where
  address : Nat
  frozen : Bool
  deriving DecidableEq

/-- Dictionaries by their addresses, and tables by the order in which they were made. -/
structure Store where
  dictionaries : List Macros
  holders : List Holder
  deriving DecidableEq

namespace Store

/-- A memory without tables. -/
def start : Store := ⟨[], []⟩

/-- What the table at a place holds. -/
def table? (st : Store) (place : Nat) : Option Table :=
  (st.holders[place]?).bind fun h => (st.dictionaries[h.address]?).map fun m => ⟨m, h.frozen⟩

/-- The dictionary at an address.  There is none at an address not yet given, which counts as an
empty one. -/
def read (st : Store) (address : Nat) : Macros := (st.dictionaries[address]?).getD .empty

/-- The address that the next dictionary gets. -/
def next (st : Store) : Nat := st.dictionaries.length

/-- Makes a dictionary at the next address. -/
def allocate (st : Store) (m : Macros) : Store :=
  { st with dictionaries := st.dictionaries ++ [m] }

/-- Overwrites the dictionary at an address. -/
def write (st : Store) (address : Nat) (m : Macros) : Store :=
  { st with dictionaries := st.dictionaries.set address m }

/-- Makes a table with a dictionary of its own. -/
def add (st : Store) (t : Table) : Store :=
  { st.allocate t.macros with holders := st.holders ++ [⟨st.next, t.frozen⟩] }

/-- Turns the table at a place to the dictionary at an address. -/
def turn (st : Store) (place address : Nat) : Store :=
  { st with holders := st.holders.modify place fun h => { h with address := address } }

/-- Sets the flag of the table at a place. -/
def setFrozen (st : Store) (place : Nat) (frozen : Bool) : Store :=
  { st with holders := st.holders.modify place fun h => { h with frozen := frozen } }

/-! ## 2. Staging -/

/-- Adds what a line says to the dictionary at an address, or tells the fault. -/
def stageLine (st : Store) (address : Nat) (source line : String) :
    Store × Logged (Option Fault) :=
  let added := (st.read address).addLine source line
  match added.result with
  | .ok m => (st.write address m, ⟨added.records, none⟩)
  | .error fault => (st, ⟨added.records, some fault⟩)

/-- Adds what several lines say to the dictionary at an address, up to the first fault.  The first
line has number `lineNumber`. -/
def stageLines (address : Nat) (source : String) :
    (lineNumber : Nat) → Store → List String → Store × Logged (Option DefinitionError)
  | _, st, [] => (st, ⟨[], none⟩)
  | k, st, l :: ls =>
    let (st, first) := st.stageLine address source l
    match first.result with
    | some fault => (st, ⟨first.records, some ⟨source, k, fault⟩⟩)
    | none =>
      let (st, others) := stageLines address source (k + 1) st ls
      (st, ⟨first.records ++ others.records, others.result⟩)

/-! ## 3. Loading -/

/-- Loads what a reading yields into the table at a place, which holds `t`.  The lines are staged
as they are read, so a fault in them is told before the reading breaks off. -/
def load (st : Store) (place : Nat) (t : Table) (source : String) (reading : Text.Reading) :
    Store × Logged (Option LoadError) :=
  if t.frozen then (st, ⟨[], some .frozen⟩)
  else
    let (staged, outcome) := stageLines st.next source 1 (st.allocate t.macros) reading.lines
    match outcome.result with
    | some e => (staged, ⟨outcome.records, some (.definition e)⟩)
    | none =>
      if reading.sound then (staged.turn place st.next, ⟨outcome.records, none⟩)
      else (staged, ⟨outcome.records, some .undecodable⟩)

/-- Loads a file into the table at a place, which holds `t`.  The file is opened before anything
else. -/
def loadFile (st : Store) (place : Nat) (t : Table) (files : Files) (path : String) :
    Store × Logged (Option LoadError) :=
  match files path with
  | .error e => (st, ⟨[Table.loadingRecord path], some (.cannotOpen path e)⟩)
  | .ok octets =>
    let (st, outcome) := st.load place t path (Text.readLines octets)
    (st, ⟨Table.loadingRecord path :: outcome.records, outcome.result⟩)

end Store
end Dice.Macros
