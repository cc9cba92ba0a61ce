/-
# The arguments of the command

Arguments are of three kinds: switches, unknown switches and plain arguments.  A plain argument is
one that does not start with a hyphen, is a hyphen alone or a negative number, holds a space, or
stands behind the separator `--`.  Switches without a value can be written together behind one
hyphen, a value may be attached to its switch, and a long switch may be cut short as long as one
switch only starts so.

The tokens are the first run of plain arguments.  Later runs and unknown switches are left over,
which is an error in the end.  Switches act from left to right; the one for help ends the reading,
whatever comes after it.
-/
import Dice.Text.DecimalDigit
import Dice.Text.Quoted

namespace Dice.Command

/-! ## 1. Switches -/

/-- The switches of the command. -/
inductive Switch
  | help
  | macros
  | listMacros
  | verbose
  deriving Repr, DecidableEq

namespace Switch

/-- The letter of a switch that has one. -/
def letter? : Switch → Option Char
  | help => some 'h'
  | macros => some 'm'
  | listMacros => none
  | verbose => some 'v'

/-- The long name of a switch, without its hyphens. -/
def longName : Switch → String
  | help => "help"
  | macros => "macros"
  | listMacros => "list-macros"
  | verbose => "verbose"

/-- The switches in the order in which they are told. -/
def all : List Switch := [help, macros, listMacros, verbose]

/-- The long name with its hyphens. -/
def long (s : Switch) : String := "--" ++ s.longName

/-- All ways to write a switch in full. -/
def title (s : Switch) : String :=
  match s.letter? with
  | some c => String.ofList ['-', c, '/'] ++ s.long
  | none => s.long

/-- Whether a switch comes with a value. -/
def takesValue : Switch → Bool
  | macros => true
  | _ => false

/-- The switch of a letter. -/
def ofLetter? (c : Char) : Option Switch := all.find? fun s => s.letter? == some c

/-- The switches whose long name starts so; the text includes the hyphens. -/
def startingWith (cs : List Char) : List Switch := all.filter fun s => cs.isPrefixOf s.long.toList

/-- The switch that is written in full like this, and whether by its long name. -/
def ofText? (cs : List Char) : Option (Switch × Bool) :=
  match cs with
  | ['-', c] => (ofLetter? c).map fun s => (s, false)
  | _ => (all.find? fun s => s.long.toList == cs).map fun s => (s, true)

end Switch

/-! ## 2. Errors -/

/-- How the command can be misused. -/
inductive UsageError
  | ambiguous (argument : String) (candidates : List Switch)
  | missingValue (switch : Switch)
  | unwantedValue (switch : Switch) (value : String)
  | leftOver (arguments : List String)
  deriving Repr, DecidableEq

/-- The words for an error. -/
def UsageError.message : UsageError → String
  | ambiguous argument candidates =>
    "ambiguous option: " ++ argument ++ " could match "
      ++ ", ".intercalate (candidates.map Switch.long)
  | missingValue switch => "argument " ++ switch.title ++ ": expected one argument"
  | unwantedValue switch value =>
    "argument " ++ switch.title ++ ": ignored explicit argument " ++ Text.quote value
  | leftOver arguments => "unrecognized arguments: " ++ " ".intercalate arguments

/-! ## 3. Kinds of arguments -/

/-- The kind of an argument.  The text attached to a switch is what follows its equals sign or, if
it is written by its letter, the rest of the argument. -/
inductive Kind
  | plain
  | separator
  | switch (s : Switch) (long : Bool) (attached : Option (List Char))
  | unknown
  deriving Repr, DecidableEq

/-- Negative integers and decimals, in digits of any script.  A line end may follow. -/
def isNegativeNumber (cs : List Char) : Bool :=
  let isDigit := fun c => (Text.digitValue? c).isSome
  match cs with
  | '-' :: rest =>
    let rest := if rest.getLast? = some '\n' then rest.dropLast else rest
    let tail := rest.dropWhile isDigit
    match tail with
    | [] => !rest.isEmpty
    | c :: decimals => c == '.' && !decimals.isEmpty && decimals.all isDigit
  | _ => false

/-- Cuts at the first equals sign. -/
def splitAtEquals (cs : List Char) : List Char × Option (List Char) :=
  match cs.dropWhile (· != '=') with
  | [] => (cs, none)
  | _ :: value => (cs.takeWhile (· != '='), some value)

/-- The kind of an argument that looks like a switch and is none. -/
def kindOfUnmatched (cs : List Char) : Kind :=
  if isNegativeNumber cs || cs.contains ' ' then .plain else .unknown

/-- The kind of an argument before the separator. -/
def kindOf (argument : String) : Except UsageError Kind :=
  let cs := argument.toList
  let (name, value) := splitAtEquals cs
  match cs with
  | '-' :: rest =>
    match Switch.ofText? cs, value.bind fun _ => Switch.ofText? name, rest with
    | some (s, long), _, _ => .ok (.switch s long none)
    | none, _, [] => .ok .plain
    | none, some (s, long), _ => .ok (.switch s long value)
    | none, none, '-' :: _ =>
      match Switch.startingWith name with
      | [] => .ok (kindOfUnmatched cs)
      | [s] => .ok (.switch s true value)
      | candidates => .error (.ambiguous argument candidates)
    | none, none, c :: attached =>
      match Switch.ofLetter? c with
      | some s => .ok (.switch s false (some attached))
      | none => .ok (kindOfUnmatched cs)
  | _ => .ok .plain

/-- The arguments with their kinds. -/
def kinds : List String → Except UsageError (List (String × Kind))
  | [] => .ok []
  | a :: as =>
    if a = "--" then .ok ((a, .separator) :: as.map fun a => (a, .plain))
    else do
      let k ← kindOf a
      let ks ← kinds as
      .ok ((a, k) :: ks)

/-! ## 4. Switches in one argument -/

/-- A switch in use, with its value if it has one. -/
structure Use where
  switch : Switch
  value : Option String
  deriving Repr, DecidableEq

/-- The switches of one argument, in order, and whether the last one still lacks its value. -/
structure Cluster where
  uses : List Use
  lacking : Option Switch
  deriving Repr, DecidableEq

/-- A further switch in front. -/
def Cluster.push (u : Use) (c : Cluster) : Cluster := ⟨u :: c.uses, c.lacking⟩

/-- A switch with nothing attached. -/
def bareSwitch (s : Switch) : Cluster :=
  if s.takesValue then ⟨[], some s⟩ else ⟨[⟨s, none⟩], none⟩

/-- A switch by its letter, with a text attached.  Of a switch without a value the text holds
further switches by letter. -/
def letterCluster (s : Switch) : List Char → Except UsageError Cluster
  | [] =>
    if s.takesValue then .ok ⟨[⟨s, some ""⟩], none⟩ else .error (.unwantedValue s "")
  | c :: cs =>
    if s.takesValue then .ok ⟨[⟨s, some (String.ofList (c :: cs))⟩], none⟩
    else
      match Switch.ofLetter? c with
      | none => .error (.unwantedValue s (String.ofList (c :: cs)))
      | some t =>
        let others := if cs.isEmpty then .ok (bareSwitch t) else letterCluster t cs
        others.map (Cluster.push ⟨s, none⟩)

/-- The switches of an argument. -/
def cluster (s : Switch) (long : Bool) (attached : Option (List Char)) :
    Except UsageError Cluster :=
  match attached with
  | none => .ok (bareSwitch s)
  | some cs =>
    if long then
      if s.takesValue then .ok ⟨[⟨s, some (String.ofList cs)⟩], none⟩
      else .error (.unwantedValue s (String.ofList cs))
    else letterCluster s cs

/-! ## 5. All arguments -/

/-- What the arguments ask for. -/
structure Options where
  macroFile : Option String
  listing : Bool
  verbose : Bool
  tokens : List String
  deriving Repr, DecidableEq

/-- A request to the command. -/
inductive Request
  | help
  | work (options : Options)
  deriving Repr, DecidableEq

/-- Where the reading is with regard to the tokens. -/
inductive Phase
  | before
  | within
  | after
  deriving Repr, DecidableEq

/-- What has been read so far. -/
structure Progress where
  options : Options
  phase : Phase
  leftOver : List String
  deriving Repr, DecidableEq

namespace Progress

/-- Nothing has been read. -/
def start : Progress := ⟨⟨none, false, false, []⟩, .before, []⟩

/-- A plain argument: a token in the first run, and left over in a later one. -/
def plain (p : Progress) (a : String) : Progress :=
  match p.phase with
  | .after => { p with leftOver := p.leftOver ++ [a] }
  | _ => { p with phase := .within, options := { p.options with
      tokens := p.options.tokens ++ [a] } }

/-- The separator: it opens or continues the first run, and is left over in a later one. -/
def separator (p : Progress) : Progress :=
  match p.phase with
  | .after => { p with leftOver := p.leftOver ++ ["--"] }
  | _ => { p with phase := .within }

/-- A run of plain arguments ends at a switch. -/
def endRun (p : Progress) : Progress :=
  match p.phase with
  | .within => { p with phase := .after }
  | _ => p

/-- A switch that is not known. -/
def unknown (p : Progress) (a : String) : Progress :=
  { p.endRun with leftOver := p.leftOver ++ [a] }

end Progress

/-- The file that a switch in use names.  The separator attached to a switch names none. -/
def Use.file (u : Use) : Option String := if u.value = some "--" then none else u.value

/-- Acts on switches, from left to right; the last file counts.  Help needs nothing more: then
there are no options. -/
def act (o : Options) : List Use → Option Options
  | [] => some o
  | u :: us =>
    match u.switch with
    | .help => none
    | .listMacros => act { o with listing := true } us
    | .verbose => act { o with verbose := true } us
    | .macros => act { o with macroFile := u.file } us

/-- Reads arguments of known kinds. -/
def readKinds (p : Progress) : List (String × Kind) → Except UsageError Request
  | [] =>
    if p.leftOver.isEmpty then .ok (.work p.options)
    else .error (.leftOver p.leftOver)
  | (a, .plain) :: rest => readKinds (p.plain a) rest
  | (_, .separator) :: rest => readKinds p.separator rest
  | (a, .unknown) :: rest => readKinds (p.unknown a) rest
  | (_, .switch s long attached) :: rest =>
    match cluster s long attached with
    | .error e => .error e
    | .ok ⟨uses, none⟩ =>
      match act p.options uses with
      | none => .ok .help
      | some o => readKinds { p.endRun with options := o } rest
    | .ok ⟨uses, some lacking⟩ =>
      match rest with
      | (v, .plain) :: rest =>
        match act p.options (uses ++ [⟨lacking, some v⟩]) with
        | none => .ok .help
        | some o => readKinds { p.endRun with options := o } rest
      | _ => .error (.missingValue lacking)

/-- Reads the arguments of the command. -/
def readArguments (arguments : List String) : Except UsageError Request := do
  let ks ← kinds arguments
  readKinds .start ks

end Dice.Command
