/-
# Paths and file trees

Names of files are texts with slashes. A tree has the files below the current directory, with
their contents. A path is followed part by part, and what cannot be opened or read is
reported with the reason.
-/
import PointerMigration.Text

namespace PointerMigration

/-! ## Paths -/

namespace Path

/-- The name of the directory itself. -/
def here : Text := "."

/-- The name of the directory above. -/
def above : Text := ".."

/-- Whether a path starts at the root. -/
def isAbsolute (path : Text) : Bool := path.head? = some Text.slash

/-- The parts of a path between slashes. -/
def parts (path : Text) : List Text := path.splitOn Text.slash

/-- Parts with the steps to the directory itself left out, and each step up taken against the part
before it; `kept` has the parts so far in reverse. At the root a step up leads nowhere. -/
def cleanFrom (rooted : Bool) : List Text → List Text → List Text
  | kept, [] => kept.reverse
  | kept, part :: rest =>
    if part.isEmpty || part = here then cleanFrom rooted kept rest
    else if part = above then
      match kept with
      | [] => cleanFrom rooted (if rooted then [] else [above]) rest
      | last :: before =>
        if last = above then cleanFrom rooted (above :: kept) rest else cleanFrom rooted before rest
    else cleanFrom rooted (part :: kept) rest

/-- The shortest path that leads to the same place if every directory is what it seems. -/
def clean (path : Text) : Text :=
  let rooted := isAbsolute path
  let kept := cleanFrom rooted [] (parts path)
  if rooted then Text.slash :: Text.join [Text.slash] kept
  else if kept.isEmpty then here
  else Text.join [Text.slash] kept

/-- The path of `name` in a directory. -/
def join (directory name : Text) : Text :=
  if directory.isEmpty then if name.isEmpty then [] else clean name
  else clean (directory ++ [Text.slash] ++ name)

/-- The path of `name`, in a directory if it does not start at the root. -/
def under (directory name : Text) : Text := if isAbsolute name then name else join directory name

/-- The directory of a path. -/
def directory (path : Text) : Text :=
  clean (path.take (path.length - (path.reverse.takeWhile (· != Text.slash)).length))

/-- The ending of a path: the last dot of its last part and what follows it. -/
def ending (path : Text) : Text :=
  let last := path.reverse.takeWhile (· != Text.slash)
  if last.any (· = 46) then 46 :: (last.takeWhile (· != 46)).reverse else []

end Path

/-! ## Trees -/

/-- Why a file cannot be opened or read. -/
inductive FileReason where
  | notFound
  | notDirectory
  | isDirectory
  | invalidName
  | nameTooLong
  deriving DecidableEq, Repr

/-- The text of a reason. -/
def FileReason.text : FileReason → Text
  | .notFound => "no such file or directory"
  | .notDirectory => "not a directory"
  | .isDirectory => "is a directory"
  | .invalidName => "invalid argument"
  | .nameTooLong => "file name too long"

/-- A file that cannot be opened or read. -/
structure FileError where
  path : Text
  reason : FileReason
  deriving DecidableEq, Repr

namespace FileError

/-- What was tried. -/
def action (e : FileError) : Text := if e.reason = .isDirectory then "read" else "open"

/-- The message for an error. -/
def message (e : FileError) : Text := e.action ++ " " ++ e.path ++ ": " ++ e.reason.text

end FileError

/-- The files of a tree. A file is known by the parts of its path, without empty parts and
steps to the directory itself; steps up can only come first, after an empty part if the path
starts at the root. -/
structure FileTree where
  files : List (List Text × Text) := []
  deriving DecidableEq, Repr

namespace FileTree

/-- What a path leads to. -/
inductive Entry where
  | file (place : List Text) (content : Text)
  | directory (place : List Text)
  deriving DecidableEq, Repr

/-- Whether a place has no name: the current directory, the root, and what is above them. -/
def isNameless (place : List Text) : Bool := place.all fun part => part.isEmpty || part = Path.above

/-- The place above a place. -/
def placeAbove (place : List Text) : List Text :=
  if place = [[]] then place
  else if isNameless place then place ++ [Path.above]
  else place.dropLast

/-- The entry at a place. -/
def at? (t : FileTree) (place : List Text) : Option Entry :=
  match t.files.find? fun (p, _) => p = place with
  | some (_, content) => some (.file place content)
  | none =>
    if isNameless place || t.files.any (fun (p, _) => place.isPrefixOf p) then
      some (.directory place)
    else none

/-- The longest part of a path. -/
def maxPart : Nat := 255

/-- The length that a path must not reach. -/
def maxPath : Nat := 4096

/-- Follows the parts of a path from an entry. -/
def follow (t : FileTree) : Entry → List Text → Except FileReason Entry
  | e, [] => .ok e
  | .file _ _, _ :: _ => .error .notDirectory
  | .directory place, part :: rest =>
    if part.isEmpty || part = Path.here then follow t (.directory place) rest
    else if part = Path.above then follow t (.directory (placeAbove place)) rest
    else if maxPart < part.length then .error .nameTooLong
    else
      match t.at? (place ++ [part]) with
      | none => .error .notFound
      | some e => follow t e rest

/-- What a path leads to. -/
def find (t : FileTree) (path : Text) : Except FileReason Entry :=
  if path.any (· = 0) then .error .invalidName
  else if path.isEmpty then .error .notFound
  else if maxPath ≤ path.length then .error .nameTooLong
  else if Path.isAbsolute path then t.follow (.directory [[]]) (Path.parts (path.drop 1))
  else t.follow (.directory []) (Path.parts path)

/-- Opens a path: it must lead to something, be it a directory. -/
def openable (t : FileTree) (path : Text) : Except FileError Entry :=
  (t.find path).mapError fun reason => ⟨path, reason⟩

/-- The content of the file at a path. -/
def read (t : FileTree) (path : Text) : Except FileError Text :=
  match t.find path with
  | .error reason => .error ⟨path, reason⟩
  | .ok (.directory _) => .error ⟨path, .isDirectory⟩
  | .ok (.file _ content) => .ok content

/-- Puts a content at a place. -/
def put (t : FileTree) (place : List Text) (content : Text) : FileTree :=
  if t.files.any fun (p, _) => p = place then
    ⟨t.files.map fun (p, old) => (p, if p = place then content else old)⟩
  else ⟨t.files ++ [(place, content)]⟩

/-- Writes the content of the file at a path, which must exist. -/
def write (t : FileTree) (path content : Text) : FileTree :=
  match t.find path with
  | .ok (.file place _) => t.put place content
  | _ => t

/-- The place that a path names. -/
def placeOf (path : Text) : List Text :=
  let rooted := Path.isAbsolute path
  (if rooted then [[]] else []) ++ Path.cleanFrom rooted [] (Path.parts path)

/-- The path of a place. -/
def pathOf (place : List Text) : Text := Text.join [Text.slash] place

/-- The tree with some files. -/
def ofFiles (files : List (Text × Text)) : FileTree :=
  files.foldl (fun t (path, content) => t.put (placeOf path) content) {}

/-- The files that are new in a tree or differ from those in an earlier one, by path. -/
def changes (before after : FileTree) : List (Text × Text) :=
  let changed := after.files.filter fun (place, content) =>
    before.files.all fun (p, old) => p != place || old != content
  (changed.map fun (place, content) => (pathOf place, content)).mergeSort fun a b => Text.le a.1 b.1

end FileTree

end PointerMigration
