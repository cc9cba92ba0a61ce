/-
# The program

The outer layer of the command: it fetches the file of macros, draws a seed, does one pure run and
carries out its transcript.
-/
import Dice.Command.Run

namespace Dice

/-- Scrambles a word of 64 bits. -/
def scramble (n : UInt64) : UInt64 :=
  let a := (n ^^^ (n >>> 30)) * 0xbf58476d1ce4e5b9
  let b := (a ^^^ (a >>> 27)) * 0x94d049bb133111eb
  b ^^^ (b >>> 31)

/-- Faces that a seed decides. -/
def Source.ofSeed (seed : UInt64) : Source := fun i s =>
  1 + ((scramble (seed + (UInt64.ofNat i + 1) * 0x9e3779b97f4a7c15)).toNat % s : Nat)

/-- What the file system holds at a path. -/
def fetch (path : String) : IO (Except OpenError (List UInt8)) := do
  if path.toList.contains (Char.ofNat 0) then return .error .nullCharacter
  try
    return .ok (← IO.FS.readBinFile path).toList
  catch e =>
    match e with
    | .inappropriateType _ code _ =>
      return .error (if code = 21 then .isADirectory else .notADirectory)
    | _ => return .error .missing

/-- The path that the arguments name, if they do. -/
def wantedPath (arguments : List String) : Option String :=
  match Command.readArguments arguments with
  | .ok (.work o) => o.macroFile
  | _ => none

/-- A record as it is written, with the last part of its logger's name for a place. -/
def recordText (r : Record) : String :=
  Entry.text ⟨r, (r.logger.splitOn ".").getLast?.getD r.logger, 0⟩

end Dice

open Dice in
/-- Runs the command. -/
def main (arguments : List String) : IO UInt32 := do
  let seed ← IO.rand 0 0xffffffffffffffff
  let fetched ←
    match wantedPath arguments with
    | some path => fetch path
    | none => pure (.error .missing)
  let t := Command.run arguments (fun _ => fetched) (Source.ofSeed (UInt64.ofNat seed))
  for r in t.records do
    IO.eprint (recordText r)
  IO.print t.out
  IO.eprint t.err
  match t.ending with
  | .status code => return UInt32.ofNat code
  | .escaped failure =>
    IO.eprintln (failure.message?.getD "The file of macros is not text in UTF-8.")
    return 1
