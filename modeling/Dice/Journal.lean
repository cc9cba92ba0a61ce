/-
# Records of what the program does

A record has a level, the name of the logger that made it, and a message.  Names are dotted paths;
the program's own loggers are one root and all that hang below it (`isOwnLogger`).

A `Journal` is what decides where records go.  It starts closed.  Every set-up offers a stream and
sets the threshold anew, and a handler for the stream is made if there is none yet.

* `Journal.accepts`: a record is handed on if its logger is the program's and its level reaches the
  threshold.  Two things are remembered for this: the loggers that have been heard of, between which
  a new one may come to hang, and what was ruled on a logger and a level, which stands until the
  next set-up;
* `Handler.write`: a handler has one layout, and overwrites it for each entry before it writes;
* `Journal.length_emit`: every stream is told of every entry, be it with an empty text.

Two things are left out.  An entry that meets no handler at all, because the journal is closed or
its logger a stranger, may still be shown by a handler of last resort, which belongs to no set-up;
and an error that comes with an entry is traced on the lines after it.
-/

namespace Dice

/-! ## 1. Levels and records -/

/-- How weighty a record is; only the order matters, and five levels have names. -/
abbrev Level := Int

namespace Level

/-- For those who look into the program. -/
def debug : Level := 10

/-- For what is probably not meant. -/
def warning : Level := 30

/-- The name of a level. -/
def name (l : Level) : String :=
  if l = 10 then "DEBUG" else if l = 20 then "INFO" else if l = 30 then "WARNING"
  else if l = 40 then "ERROR" else if l = 50 then "CRITICAL" else "Level " ++ toString l

end Level

/-- Something worth telling. -/
structure Record where
  level : Level
  logger : String
  message : String
  deriving Repr, DecidableEq

/-- The logger above all others of the program. -/
def rootLogger : String := "diceroll"

/-- A logger of the program by its own name. -/
def loggerNamed (name : String) : String := rootLogger ++ "." ++ name

/-- The result of an activity, with the records it made on its way, in order. -/
structure Logged (α : Type) where
  records : List Record
  result : α
  deriving Repr, DecidableEq

/-- The records that a threshold lets through. -/
def recordsFrom (threshold : Level) (rs : List Record) : List Record :=
  rs.filter fun r => threshold ≤ r.level

/-! ## 2. How entries are written -/

/-- A record with the file and the line of the program that made it. -/
structure Entry extends Record where
  file : String
  line : Int
  deriving Repr, DecidableEq

/-- The last name of a path. -/
def fileName (path : List Char) : List Char := (path.reverse.takeWhile (· != '/')).reverse

/-- A file name up to its last dot, unless there is nothing but dots before that one. -/
def fileStem (name : List Char) : List Char :=
  match name.reverse.dropWhile (· != '.') with
  | [] => name
  | _ :: before => if before.all (· == '.') then name else before.reverse

/-- The part of the program that made an entry. -/
def Entry.place (e : Entry) : String := String.ofList (fileStem (fileName e.file.toList))

/-- What is written around the message of an entry. -/
inductive Layout
  /-- Nothing at all. -/
  | bare
  /-- The level and the logger. -/
  | basic
  /-- The level, the logger and the place that the entry comes from. -/
  | detailed
  deriving Repr, DecidableEq

/-- An entry in a layout, on a line of its own. -/
def Layout.text : Layout → Entry → String
  | bare, e => e.message ++ "\n"
  | basic, e => "[" ++ Level.name e.level ++ "] " ++ e.logger ++ " - " ++ e.message ++ "\n"
  | detailed, e =>
    "[" ++ Level.name e.level ++ "] " ++ e.logger ++ " [" ++ e.place ++ ":" ++ toString e.line
      ++ "] - " ++ e.message ++ "\n"

/-- The layout for an entry.  From a warning on it has the place. -/
def Entry.layout (e : Entry) : Layout := if Level.warning ≤ e.level then .detailed else .basic

/-- An entry in its layout. -/
def Entry.text (e : Entry) : String := e.layout.text e

/-- A handler writes to one stream, in the layout that it has. -/
structure Handler where
  stream : Nat
  layout : Layout
  deriving Repr, DecidableEq

/-- Writes an entry: overwrites the layout with the one for the entry, and gives the text in the
layout that is there then. -/
def Handler.write (h : Handler) (e : Entry) : Handler × String :=
  let h := { h with layout := e.layout }
  (h, h.layout.text e)

/-- Hands an entry to some handlers, one after the other, each of which adds to its stream.  What
the streams have got so far comes and goes with it. -/
def Handler.writeAll (e : Entry) : List Handler → (added : List String) →
    List Handler × List String
  | [], added => ([], added)
  | h :: hs, added =>
    let (h, text) := h.write e
    let (hs, added) := writeAll e hs (added.modify h.stream (· ++ text))
    (h :: hs, added)

@[simp] theorem Handler.length_writeAll (e : Entry) :
    ∀ (hs : List Handler) (added : List String), (writeAll e hs added).2.length = added.length
  | [], _ => rfl
  | h :: hs, added => by simp [writeAll, length_writeAll e hs]

/-! ## 3. Where entries go -/

/-- Whether a path leads up to the root, given the loggers that have been heard of.  The path is
read from its end to its start.  What stands before a dot is a place above, and the dot right
before that dot is overlooked, unless the place is that of a logger: there the way up begins
anew. -/
def leadsUp (known : List String) : List Char → Bool
  | [] => false
  | [_] => false
  | d :: c :: cs =>
    if d = '.' then
      let above := String.ofList (c :: cs).reverse
      above == rootLogger
        || (if known.contains above then leadsUp known (c :: cs) else leadsUp known cs)
    else leadsUp known (c :: cs)

/-- Whether a logger is the program's root or hangs below it. -/
def isOwnLogger (known : List String) (name : String) : Bool :=
  name == rootLogger || leadsUp known name.toList.reverse

/-- What was ruled on the records of a logger at a level. -/
structure Ruling where
  logger : String
  level : Level
  passes : Bool
  deriving Repr, DecidableEq

/-- The state of the journal: the threshold, which is zero until the first set-up, the handlers, how
many streams have been offered, the loggers that have been heard of, and the rulings since the last
set-up. -/
structure Journal where
  threshold : Level
  handlers : List Handler
  streams : Nat
  known : List String
  rulings : List Ruling
  deriving Repr, DecidableEq

namespace Journal

/-- The journal before any set-up. -/
def closed : Journal := ⟨0, [], 0, [], []⟩

/-- The threshold of a set-up. -/
def thresholdFor (verbose : Bool) : Level := if verbose then Level.debug else Level.warning

/-- A set-up offers one more stream, sets the threshold and takes back all rulings.  The stream gets
a handler only if there is none yet, for any stream. -/
def setUp (j : Journal) (verbose : Bool) : Journal :=
  { j with
    threshold := thresholdFor verbose
    handlers := if j.handlers.isEmpty then [⟨j.streams, .bare⟩] else j.handlers
    streams := j.streams + 1
    rulings := [] }

/-- The threshold for a logger.  Strangers have one that is always the same, and the program's own
loggers have it too until theirs is set. -/
def thresholdOf (j : Journal) (logger : String) : Level :=
  if isOwnLogger j.known logger && j.threshold != 0 then j.threshold else Level.warning

/-- Whether the level of an entry suffices for its logger, by an earlier ruling if there is one. -/
def passes (j : Journal) (e : Entry) : Bool :=
  match j.rulings.find? fun r => r.logger == e.logger && r.level == e.level with
  | some r => r.passes
  | none => j.thresholdOf e.logger ≤ e.level

/-- Whether an entry is handed to the handlers. -/
def accepts (j : Journal) (e : Entry) : Bool := j.passes e && isOwnLogger j.known e.logger

/-- Hears of a logger. -/
def hear (j : Journal) (logger : String) : Journal := { j with known := logger :: j.known }

/-- Rules on the logger and the level of an entry. -/
def rule (j : Journal) (e : Entry) : Journal :=
  { j with rulings := ⟨e.logger, e.level, j.passes e⟩ :: j.rulings }

/-- Hands an entry to the handlers if it is accepted, and tells what it adds to each stream. -/
def emit (j : Journal) (e : Entry) : Journal × List String :=
  let nothing := List.replicate j.streams ""
  if j.accepts e then
    let (handlers, added) := Handler.writeAll e j.handlers nothing
    ({ j with handlers := handlers }, added)
  else (j, nothing)

@[simp] theorem length_emit (j : Journal) (e : Entry) : (j.emit e).2.length = j.streams := by
  unfold emit
  dsimp only
  split <;> simp

/-! ## 4. A course of set-ups and entries -/

/-- What can happen to a journal. -/
inductive Event
  | setUp (verbose : Bool)
  | entry (e : Entry)
  deriving Repr, DecidableEq

/-- The journal after an event, and what the event added to each stream. -/
def after (j : Journal) : Event → Journal × List String
  | .setUp verbose => (j.setUp verbose, List.replicate (j.streams + 1) "")
  | .entry e => ((j.hear e.logger).rule e).emit e

/-- The journal after each of several events, with what each of them added. -/
def course : Journal → List Event → List (Journal × List String)
  | _, [] => []
  | j, e :: es => j.after e :: course (j.after e).1 es

end Journal
end Dice
