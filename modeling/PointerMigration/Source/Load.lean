/-
# Loading units

Reading a unit from a file, by its format, and resolving it against the files that it names.
Locations given by addresses are turned into offsets: nodes in preorder, and of each node the start,
the name and the type. A file is read when the first address in it is met, and only once. After a
failure the remaining locations stay as they are.
-/
import PointerMigration.Address
import PointerMigration.Files.Tree
import PointerMigration.Source.UnitFile

namespace PointerMigration

/-! ## Resolving addresses -/

/-- Why an address cannot be resolved. -/
inductive ResolveError where
  /-- The file cannot be read, with the reason. -/
  | file (reason : Text)
  /-- The address denotes nothing in the file. -/
  | address (l : Location) (e : Address.Error)
  deriving DecidableEq, Repr

/-- The message for an error. -/
def ResolveError.message : ResolveError → Text
  | .file reason => reason
  | .address l e =>
    l.file ++ ": cannot evaluate address " ++ l.address ++ ": " ++ e.message

/-- What has been done so far: the texts of the files read, the names read with the last first, and
the failure if there was one. -/
structure Resolution where
  texts : List (Text × Text) := []
  reads : List Text := []
  failure : Option (Failure ResolveError) := none

namespace Resolution

/-- How the text of a file is found: by its name, or with a reason why it is not. -/
abbrev Reader := Text → Except Text Text

/-- The text of a file, read if it has not been read before. -/
def textOf (read : Reader) (r : Resolution) (file : Text) : Resolution × Option Text :=
  match r.texts.find? fun (name, _) => name = file with
  | some (_, t) => (r, some t)
  | none =>
    match read file with
    | .ok t => ({ r with texts := (file, t) :: r.texts, reads := file :: r.reads }, some t)
    | .error reason =>
      ({ r with reads := file :: r.reads, failure := some (.cause (.file reason)) }, none)

/-- Resolves a location. -/
def location (read : Reader) (r : Resolution) (l : Location) : Resolution × Location :=
  if l.address.isEmpty || r.failure.isSome then (r, l)
  else
    match r.textOf read l.file with
    | (r, none) => (r, l)
    | (r, some t) =>
      match Address.eval l.address 0 t with
      | .ok range => (r, { l with offset := Int64.ofInt range.lo, address := [] })
      | .error (.cause e) => ({ r with failure := some (.cause (.address l e)) }, l)
      | .error .absent => ({ r with failure := some .absent }, l)

/-- Resolves a location that may be missing. -/
def location? (read : Reader) (r : Resolution) : Option Location → Resolution × Option Location
  | none => (r, none)
  | some l =>
    let (r, l) := r.location read l
    (r, some l)

mutual

/-- Resolves the locations of a node and of what is inside it. -/
def node (read : Reader) (r : Resolution) : Node → Resolution × Node
  | n@{ inner, .. } =>
    let (r, begin) := r.location? read n.begin
    let (r, loc) := r.location? read n.loc
    let (r, typeLoc) := r.location? read n.typeLoc
    let (r, inner) := nodes read r inner
    (r, { n with begin, loc, typeLoc, inner })

/-- Resolves the locations of nodes in a row. -/
def nodes (read : Reader) (r : Resolution) : List (Option Node) → Resolution × List (Option Node)
  | [] => (r, [])
  | none :: rest =>
    let (r, rest) := nodes read r rest
    (r, none :: rest)
  | some n :: rest =>
    let (r, n) := node read r n
    let (r, rest) := nodes read r rest
    (r, some n :: rest)

end

end Resolution

/-- Resolves the locations of a unit. -/
def CompilationUnit.resolve (read : Resolution.Reader) (u : CompilationUnit) :
    Resolution × CompilationUnit :=
  let (r, inner) := Resolution.nodes read {} u.inner
  (r, { u with inner })

/-! ## Unit files -/

/-- The format of a unit file with a name. -/
def UnitFormat.ofName (name : Text) : UnitFormat :=
  let ending := Text.toLower (Path.ending name)
  if ending = ".msgpack" || ending = ".mpk" then messagePack else json

/-- Why a unit cannot be loaded. -/
inductive LoadError where
  | file (e : FileError)
  | unit (name : Text) (e : UnitError)
  | resolve (name : Text) (e : ResolveError)
  deriving DecidableEq, Repr

/-- The message for an error. -/
def LoadError.message : LoadError → Text
  | .file e => "loading unit: " ++ e.message
  | .unit name e => name ++ ": " ++ e.message
  | .resolve name e => name ++ ": " ++ e.message

namespace CompilationUnit

/-- The files that the addresses in a unit are looked up in, by path. A unit that names no directory
is relative to that of its own file. -/
def reader (tree : FileTree) (directory : Text) : Resolution.Reader := fun name =>
  (tree.read (Path.under directory name)).mapError FileError.message

/-- Reads the unit in a file, without resolving it. -/
def readFile (tree : FileTree) (name : Text) : Except LoadError CompilationUnit := do
  let t ← (tree.read name).mapError .file
  let u ← (decode (UnitFormat.ofName name) t).mapError (.unit name)
  return { u with
    name
    directory := if u.directory.isEmpty then Path.directory name else u.directory }

/-- Loads the unit in a file. -/
def load (tree : FileTree) (name : Text) : Except (Failure LoadError) CompilationUnit :=
  match readFile tree name with
  | .error e => .error (.cause e)
  | .ok u =>
    let (r, resolved) := u.resolve (reader tree u.directory)
    match r.failure with
    | some e => .error (e.map (.resolve name))
    | none => .ok resolved

end CompilationUnit

end PointerMigration
