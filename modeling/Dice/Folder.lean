/-
# Files by path

Whoever reads files is given a function from paths to contents (`Files`).

A folder is a working directory with some files in it.  Names may hold slashes, which makes
directories of what stands before them.  Of what lies outside, the root and its usual directories
are known, and the null device, which reads as an empty file.

`Folder.read` walks along a path, one name after the other, and tells what is in the way.
-/
import Dice.Text.Quoted

namespace Dice

/-! ## 1. What can be in the way -/

/-- Why a file cannot be opened. -/
inductive OpenError
  | nullCharacter
  | missing
  | notADirectory
  | isADirectory
  | nameTooLong
  deriving Repr, DecidableEq

/-- The words of the system, with its number for the error and the path. -/
def systemMessage (number : Nat) (words path : String) : String :=
  "[Errno " ++ toString number ++ "] " ++ words ++ ": " ++ Text.quote path

/-- The words for an error in opening a path. -/
def OpenError.message (path : String) : OpenError → String
  | nullCharacter => "embedded null byte"
  | missing => systemMessage 2 "No such file or directory" path
  | notADirectory => systemMessage 20 "Not a directory" path
  | isADirectory => systemMessage 21 "Is a directory" path
  | nameTooLong => systemMessage 36 "File name too long" path

/-- What can be read at each path. -/
abbrev Files := String → Except OpenError (List UInt8)

/-! ## 2. Places -/

/-- Where a walk along a path has come to. -/
inductive Place
  /-- The directory of these names below the working directory. -/
  | inside (names : List String)
  /-- A directory above the working directory. -/
  | above
  /-- The directory of these names below the root. -/
  | absolute (names : List String)
  /-- A file with its contents. -/
  | file (octets : List UInt8)
  deriving DecidableEq

/-- Files by name. -/
structure Folder where
  files : List (String × List UInt8)
  deriving Repr, DecidableEq

namespace Folder

/-- A folder without files. -/
def empty : Folder := ⟨[]⟩

/-- The longest name, in octets. -/
def maxName : Nat := 255

/-- The longest path, in octets. -/
def maxPath : Nat := 4095

/-- The directories that lie directly below the root. -/
def rootDirectories : List String :=
  ["bin", "boot", "dev", "etc", "home", "lib", "opt", "proc", "root", "run", "sbin", "srv", "sys",
   "tmp", "usr", "var"]

/-- What lies below the root at these names. -/
def atAbsolute? (names : List String) : Option Place :=
  match names with
  | [] => some (.absolute [])
  | [n] => if rootDirectories.contains n then some (.absolute [n]) else none
  | ["dev", "null"] => some (.file [])
  | _ => none

/-- What lies in the folder at these names. -/
def atInside? (f : Folder) (names : List String) : Option Place :=
  let path := "/".intercalate names
  match f.files.find? fun e => e.1 == path with
  | some e => some (.file e.2)
  | none =>
    if names.isEmpty || f.files.any (fun e => (path ++ "/").toList.isPrefixOf e.1.toList) then
      some (.inside names)
    else none

/-- One step of a walk.  Dots are understood as usual; from a file there is no way on. -/
def stepTo (f : Folder) (place : Place) (name : String) : Except OpenError Place :=
  match place with
  | .file _ => .error .notADirectory
  | place =>
    if name = "" || name = "." then .ok place
    else if name = ".." then
      match place with
      | .inside [] => .ok .above
      | .inside ns => .ok (.inside ns.dropLast)
      | .absolute ns => .ok (.absolute ns.dropLast)
      | place => .ok place
    else if maxName < name.utf8ByteSize then .error .nameTooLong
    else
      let found :=
        match place with
        | .inside ns => f.atInside? (ns ++ [name])
        | .absolute ns => atAbsolute? (ns ++ [name])
        | _ => none
      match found with
      | some p => .ok p
      | none => .error .missing

/-- Cuts a path at its slashes. -/
def pathNames (path : String) : List String := path.splitOn "/"

/-- The contents of the file at a path. -/
def read (f : Folder) : Files := fun path =>
  if path.toList.contains (Char.ofNat 0) then .error .nullCharacter
  else if path = "" then .error .missing
  else if maxPath < path.utf8ByteSize then .error .nameTooLong
  else
    let start := if path.toList.head? = some '/' then Place.absolute [] else Place.inside []
    match (pathNames path).foldlM f.stepTo start with
    | .error e => .error e
    | .ok (.file octets) => .ok octets
    | .ok _ => .error .isADirectory

end Folder
end Dice
