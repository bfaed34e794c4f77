/-
# Command lines

Which command a command line names, and with which arguments. Flags may stand before the name.
-/
import PointerMigration.Command.Flag
import PointerMigration.Text.LetterCase

namespace PointerMigration.CommandLine

/-! ## Flags -/

/-- How much is logged. -/
def verbose : Flag := { name := "verbose", short := some 118, kind := .count }

/-- Whether help is asked for. -/
def help : Flag := { name := "help", short := some 104, kind := .switch }

/-- The settings file. -/
def config : Flag := { name := "config", kind := .text }

/-- The exclusion list. -/
def excludeFields : Flag := { name := "exclude-fields", kind := .text }

/-- How many units are analyzed at once. -/
def jobs : Flag := { name := "jobs", short := some 106, kind := .number }

/-- The directory of the files to patch. -/
def directory : Flag := { name := "dir", kind := .text }

/-- Whether diffs are shown and nothing is written. -/
def diff : Flag := { name := "diff", kind := .switch }

/-! ## Commands -/

/-- The commands. -/
inductive Name where
  /-- Analyzes units and writes their edits. -/
  | edits
  /-- Patches files with edits. -/
  | apply
  | help
  deriving DecidableEq, Repr

/-- The flags of a command. -/
def Name.flags : Name → List Flag
  | edits => [config, excludeFields, jobs, verbose, CommandLine.help]
  | apply => [directory, diff, verbose, CommandLine.help]
  | help => [verbose, CommandLine.help]

/-- The names of the commands. -/
def names : List (Text × Name) :=
  [("rewrite", .edits), ("apply", .apply), ("help", .help), ("completion", .help)]

/-- The commands that are suggested for a name that is nearly theirs. -/
def suggestible : List Text := ["rewrite", "apply", "completion"]

/-- The flags that may stand before the name of a command. -/
def globalFlags : List Flag := [verbose]

/-- Whether the argument after a flag before the name is its value. Flags that are not known
are taken to have one. -/
def takesNext (given : Text) : Bool :=
  if given.any (· = 61) then false
  else if [45, 45].isPrefixOf given then
    !(globalFlags.find? fun f => f.name = given.drop 2).any fun f => f.implied?.isSome
  else
    given.head? = some 45 && given.length = 2 &&
      !(globalFlags.find? fun f => f.short = given[1]?).any fun f => f.implied?.isSome

/-- The arguments that are neither flags nor values of flags, as far as that is known without the
name of the command. -/
def words : List Text → List Text
  | [] => []
  | given :: rest =>
    if given = "--" then []
    else if takesNext given then
      match rest with
      | [] => []
      | [_] => []
      | _ :: rest => words rest
    else if !given.isEmpty && given.head? != some 45 then given :: words rest
    else words rest

/-- The arguments without the first mention of a name. -/
def without (name : Text) : List Text → List Text
  | [] => []
  | given :: rest =>
    if given = "--" then given :: rest
    else if takesNext given then
      match rest with
      | [] => [given]
      | value :: rest => given :: value :: without name rest
    else if given = name then rest
    else given :: without name rest

/-! ## Suggestions -/

/-- The next row of a table of edit distances, after the row `row` that starts with `corner`; `left`
is the entry to the left. -/
def nextRow (b : UInt8) : Nat → Nat → Text → List Nat → List Nat
  | corner, left, c :: t, up :: row =>
    let here := if b = c then corner else min corner (min left up) + 1
    here :: nextRow b up here t row
  | _, _, _, _ => []

/-- The least number of insertions, deletions and replacements between two texts. -/
def distance (s t : Text) : Nat :=
  let start := List.range (t.length + 1)
  let rows := s.foldl (fun (row : List Nat) b =>
    let first := row.headD 0
    (first + 1) :: nextRow b first (first + 1) t row.tail) start
  rows.getLast?.getD 0

/-- The commands that a name may have been meant for. -/
def suggestions (given : Text) : List Text :=
  let typed := Text.toLower given
  suggestible.filter fun name => distance typed name ≤ 2 || typed.isPrefixOf name

/-! ## Parsing -/

/-- Why a command line is refused. -/
inductive Error where
  | unknownCommand (given : Text)
  | flag (e : Flag.Error)
  deriving DecidableEq, Repr

/-- The line that suggests a command. -/
def suggestionLine (name : Text) : Text := 9 :: name ++ [Text.newline]

/-- The lines that suggest commands. -/
def suggestionLines (given : Text) : Text :=
  let names := suggestions given
  if names.isEmpty then []
  else "\n\nDid you mean this?\n" ++ names.flatMap suggestionLine

/-- The message for an error. -/
def Error.message : Error → Text
  | unknownCommand given =>
    "unknown command " ++ Text.quote given ++ " for \"rawptr\"" ++ suggestionLines given
  | flag e => e.message

/-- Reads a command line. -/
def parse (arguments : List Text) : Except Error (Name × Flag.Parsed) :=
  let read (name : Name) (arguments : List Text) : Except Error (Name × Flag.Parsed) :=
    match Flag.parse name.flags arguments with
    | .error e => .error (.flag e)
    | .ok p => .ok (if p.isOn help then .help else name, p)
  match (words arguments).head? with
  | none => read .help arguments
  | some given =>
    match names.find? fun (name, _) => name = given with
    | none => .error (.unknownCommand given)
    | some (_, name) => read name (without given arguments)

end PointerMigration.CommandLine
