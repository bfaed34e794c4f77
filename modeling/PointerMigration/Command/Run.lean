/-
# Running commands

What the commands do to a tree of files: one analyzes units and writes edit streams, the other
patches files. No edits are written unless every unit can be analyzed. Which files a command line
asks for can be told from those that are known already: the units and streams that it names, and
then the files that these name.
-/
import PointerMigration.Command.Line
import PointerMigration.Edit.Patch
import PointerMigration.Migration.Session
import PointerMigration.Migration.SettingsFile
import PointerMigration.Source.Load

namespace PointerMigration

namespace Command

/-- Why a command fails. -/
inductive Error where
  | line (e : CommandLine.Error)
  | noUnits
  | tooFewJobs
  /-- The settings file cannot be read, or is refused. -/
  | settings (path : Text) (e : SettingsFileError)
  | load (e : LoadError)
  | inputCount (name : Text) (e : InputCountError)
  | breach (b : Breach)
  /-- A part of the input that is not there was used. -/
  | absent
  | file (e : FileError)
  | stream (e : EditStream.Error)
  | problems (ps : Problems)
  | invalidPosition
  deriving DecidableEq, Repr

/-- The message for an error. -/
def Error.message : Error → Text
  | line e => e.message
  | noUnits => "usage: rawptr rewrite [flags] unit..."
  | tooFewJobs => "usage: -j must be at least 1"
  | settings path e => path ++ ": " ++ e.message
  | load e => e.message
  | inputCount name e => name ++ ": " ++ e.message
  | breach b => b.message
  | absent => "a part of the input is missing"
  | file e => e.message
  | stream e => e.message
  | problems ps => ps.message
  | invalidPosition => Buffer.invalidPosition

/-- What a command does. -/
structure Outcome where
  error : Option Error := none
  output : Text := []
  log : List LogEntry := []
  tree : FileTree

/-! ## Analyzing -/

/-- The settings of a command line: those of the settings file, and the exclusion list of the
flag if it is given. -/
def settings (tree : FileTree) (p : Flag.Parsed) : Except Error Settings := do
  let path := (p.last? CommandLine.config).getD []
  let s ← if path.isEmpty then .ok {} else
    match tree.read path with
    | .error _ => .error (.settings path .malformed)
    | .ok t => (Settings.parse t).mapError (.settings path)
  return match p.last? CommandLine.excludeFields with
    | some excludeFields => { s with excludeFields }
    | none => s

/-- The exclusion list of a file, or what is wrong with it. -/
def readExclusions (tree : FileTree) (path : Text) : Except Text Exclusions :=
  match tree.read path with
  | .error e =>
    .error ((if e.reason = .isDirectory then "reading " ++ path ++ ": "
      else Text.ofString "cannot open the exclude-fields file: ") ++ e.message)
  | .ok t =>
    match Exclusions.parse t with
    | none => .error ("reading " ++ path ++ ": " ++ Text.tooLong)
    | some e => .ok e

/-- The exclusion list of settings, which is empty if it cannot be read. -/
def exclusions (tree : FileTree) (s : Settings) : List LogEntry × Exclusions :=
  if s.excludeFields.isEmpty then ([], {})
  else
    match readExclusions tree s.excludeFields with
    | .error message =>
      ([{ level := .error, message := "ignoring exclusion list",
          values := [("file", s.excludeFields), ("err", message)] }], {})
    | .ok e =>
      ([{ level := .debug, message := "loaded exclusion list",
          values := [("file", s.excludeFields), ("fields", Text.ofNat e.names.length)] }], e)

/-- Loads and analyzes a unit. -/
def analyze (tree : FileTree) (s : Settings) (e : Exclusions) (name : Text) :
    List LogEntry × Except Error Pass :=
  match CompilationUnit.load tree name with
  | .error (.cause e) => ([], .error (.load e))
  | .error .absent => ([], .error .absent)
  | .ok u =>
    let (log, result) := Pass.run s e u
    (log, match result with
      | .ok p => .ok p
      | .error (.cause (.inputCount e)) => .error (.inputCount name e)
      | .error (.cause (.breach b)) => .error (.breach b)
      | .error .absent => .error .absent)

/-- Analyzes units one after another, up to the first that fails. -/
def analyzeAll (tree : FileTree) (s : Settings) (e : Exclusions) :
    List Text → List LogEntry × Except Error (List Pass)
  | [] => ([], .ok [])
  | name :: rest =>
    match analyze tree s e name with
    | (log, .error e) => (log, .error e)
    | (log, .ok p) =>
      let (later, result) := analyzeAll tree s e rest
      (log ++ later, result.map (p :: ·))

/-- Writes passes one after another, up to the first that fails. -/
def flushAll : Session → List Pass → List LogEntry × Text × Option Error
  | _, [] => ([], [], none)
  | session, p :: rest =>
    match session.flush p with
    | .error b => (Session.flushLog p, [], some (.breach b))
    | .ok (t, session) =>
      let (log, later, error) := flushAll session rest
      (Session.flushLog p ++ log, t ++ later, error)

/-- The entry logged when the analysis of units fails. -/
def failed (e : Error) : LogEntry :=
  { level := .debug, message := "rewrite failed", values := [("err", e.message)] }

/-- Analyzes units and writes their edits. -/
def editUnits (tree : FileTree) (s : Settings) (e : Exclusions) (units : List Text) : Outcome :=
  match analyzeAll tree s e units with
  | (log, .error e) => { error := some e, log := log ++ [failed e], tree }
  | (log, .ok passes) =>
    let (later, output, error) := flushAll { header := s.header } passes
    { error, output, log := log ++ later, tree }

/-- Runs the command that analyzes units. -/
def edits (tree : FileTree) (p : Flag.Parsed) : Outcome :=
  if p.others.isEmpty then { error := some .noUnits, tree }
  else if (p.number? CommandLine.jobs).any (· < 1) then { error := some .tooFewJobs, tree }
  else
    match settings tree p with
    | .error e => { error := some e, tree }
    | .ok s =>
      let (log, e) := exclusions tree s
      let outcome := editUnits tree s e p.others
      { outcome with log := log ++ outcome.log }

/-! ## Applying -/

/-- The names of the streams of a command line: a dash is standard input, which is also read
if there is no name. -/
def streamNames (p : Flag.Parsed) : List Text := if p.others.isEmpty then ["-"] else p.others

/-- Whether a name of a stream stands for standard input. -/
def isInput (name : Text) : Bool := name = "-"

/-- Checks that all streams can be opened. -/
def openStreams (tree : FileTree) : List Text → Except Error Unit
  | [] => .ok ()
  | name :: rest =>
    if isInput name then openStreams tree rest
    else
      match tree.openable name with
      | .error e => .error (.file e)
      | .ok _ => openStreams tree rest

/-- The streams in a row, up to one that cannot be read. Standard input is used up when it is
read. -/
def readStreams (tree : FileTree) : Text → List Text → Text × Option FileError
  | _, [] => ([], none)
  | input, name :: rest =>
    if isInput name then
      let (later, error) := readStreams tree [] rest
      (input ++ later, error)
    else
      match tree.read name with
      | .error e => ([], some e)
      | .ok t =>
        let (later, error) := readStreams tree input rest
        (t ++ later, error)

/-- The edits of streams. -/
def readPatches (tree : FileTree) (input : Text) (names : List Text) : Except Error PatchSet := do
  openStreams tree names
  let (stream, error) := readStreams tree input names
  let set ← (PatchSet.parse stream).mapError .stream
  match error with
  | some e => .error (.file e)
  | none => return set

/-- The error of a way in which patching ends. -/
def endingError : PatchSet.Ending → Option Error
  | .finished ps => if ps.isEmpty then none else some (.problems ps)
  | .invalidPosition => some .invalidPosition

/-- Runs the command that patches files. -/
def apply (tree : FileTree) (input : Text) (p : Flag.Parsed) : Outcome :=
  match readPatches tree input (streamNames p) with
  | .error e => { error := some e, tree }
  | .ok set =>
    let log : List LogEntry :=
      [{ level := .info, message := "parsed edits",
         values := [("files", Text.ofNat set.files.length)] }]
    let directory := (p.last? CommandLine.directory).getD Path.here
    if p.isOn CommandLine.diff then
      let (diffs, ending) := set.diff tree directory
      { error := endingError ending, output := diffs.flatten, log, tree }
    else
      let (tree, ending) := set.apply tree directory
      { error := endingError ending, log, tree }

/-! ## Command lines -/

/-- What is printed if help is asked for. -/
def usage : Text :=
  "usage: rawptr rewrite [flags] unit...\n       rawptr apply [flags] [stream...]\n"

/-- Runs a command line on a tree of files with a standard input. The log has what is shown of
it. -/
def run (tree : FileTree) (arguments : List Text) (input : Text) : Outcome :=
  match CommandLine.parse arguments with
  | .error e => { error := some (.line e), tree }
  | .ok (name, p) =>
    let outcome := match name with
      | .edits => edits tree p
      | .apply => apply tree input p
      | .help => { output := usage, tree }
    let least := LogLevel.ofVerbosity (p.countOf CommandLine.verbose)
    { outcome with log := outcome.log.filter fun e => least.rank ≤ e.level.rank }

/-- The log of an outcome, line by line. -/
def Outcome.logText (o : Outcome) : Text := o.log.flatMap LogEntry.line

end Command

/-! ## Files that a command reads -/

/-- The files in which a unit has addresses to look up, by path. -/
def CompilationUnit.addressedFiles (u : CompilationUnit) : List Text :=
  let locations := u.nodes.flatMap fun n => [n.begin, n.loc, n.typeLoc].filterMap id
  (locations.filter fun l => !l.address.isEmpty).map fun l => Path.under u.directory l.file

namespace Command

/-- The files that the analysis of units reads. -/
def editsReads (tree : FileTree) (p : Flag.Parsed) : List Text :=
  let excluded := match settings tree p with
    | .ok s => [s.excludeFields]
    | .error _ => []
  let addressed := p.others.flatMap fun name =>
    match CompilationUnit.readFile tree name with
    | .ok u => u.addressedFiles
    | .error _ => []
  (p.valuesOf CommandLine.config ++ excluded ++ p.others ++ addressed).filter fun name =>
    !name.isEmpty

/-- The files that patching reads. -/
def applyReads (tree : FileTree) (input : Text) (p : Flag.Parsed) : List Text :=
  let streams := (streamNames p).filter fun name => !isInput name
  let directory := (p.last? CommandLine.directory).getD Path.here
  let patched := match readPatches tree input (streamNames p) with
    | .ok set => set.files.map fun (f : FilePatch) => f.path directory
    | .error _ => []
  streams ++ patched

/-- The files that a command line reads. -/
def reads (tree : FileTree) (arguments : List Text) (input : Text) : List Text :=
  match CommandLine.parse arguments with
  | .ok (.edits, p) => editsReads tree p
  | .ok (.apply, p) => applyReads tree input p
  | _ => []

/-- Whether a command line reads standard input. -/
def readsInput (arguments : List Text) : Bool :=
  match CommandLine.parse arguments with
  | .ok (.apply, p) => (streamNames p).any isInput
  | _ => false

end Command

end PointerMigration
