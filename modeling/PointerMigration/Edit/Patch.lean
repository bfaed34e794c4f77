/-
# Patching

Applying a patch set to the files of a tree. Each file is patched as a whole: if one of
its edits cannot be made, the file stays as it was and the problem is reported. The other
files are still patched.
-/
import PointerMigration.Diff
import PointerMigration.Edit.Buffer
import PointerMigration.Edit.Directive
import PointerMigration.Edit.PatchSet
import PointerMigration.Edit.Problem
import PointerMigration.Files.Tree

namespace PointerMigration

/-- Why a file is not patched. -/
inductive PatchFailure where
  | problems (ps : Problems)
  /-- An edit is at a position that is not in the file. Patching stops. -/
  | invalidPosition
  deriving DecidableEq, Repr

namespace FilePatch

/-! ## One file -/

/-- Queues a replacement, unless it runs past the end of the file. -/
def queueReplacement (name old : Text) (b : Buffer) (ps : Problems) (r : Replacement) :
    Except PatchFailure (Buffer × Problems) :=
  if (old.length : Int) < r.stop.toInt then
    let message := "replacement of " ++ Text.ofWord r.length ++ " bytes runs past end of file"
    .ok (b, ps.add ⟨.ofOffset name (some old) r.offset, message⟩)
  else
    match b.replace r.offset.toInt r.stop.toInt r.text with
    | none => .error .invalidPosition
    | some b => .ok (b, ps)

/-- Queues the line that includes a header, unless the file includes it. -/
def queueHeader (old : Text) (b : Buffer) (header : Text) : Except PatchFailure Buffer :=
  match Directive.place? old header with
  | none => .ok b
  | some position =>
    let line := Directive.line header
    let line := if (old.take position).getLast?.any (· != Text.newline)
      then Text.newline :: line else line
    match b.insert position line with
    | none => .error .invalidPosition
    | some b => .ok b

/-- The text of a file with the edits of a patch. -/
def newText (p : FilePatch) (old : Text) : Except PatchFailure Text := do
  let (b, ps) ← p.replacements.foldlM (fun (b, ps) r => queueReplacement p.name old b ps r)
    (({ old } : Buffer), ({} : Problems))
  let b ← p.headers.foldlM (queueHeader old) b
  let ps := match b.overlap? with
    | some (x, y) => ps.add ⟨.ofOffset p.name none (-1), Splice.overlapMessage x y⟩
    | none => ps
  if !ps.isEmpty then .error (.problems ps)
  else
    match b.read.1 with
    | .ok t => return t
    | .error (x, y) => .error (.problems (ps.note (Splice.overlapMessage x y)))

/-- The path of the file. -/
def path (p : FilePatch) (directory : Text) : Text := Path.under directory p.name

/-- The old and the new text of the file of a patch. -/
def texts (p : FilePatch) (tree : FileTree) (directory : Text) :
    Except PatchFailure (Text × Text) :=
  match tree.read (p.path directory) with
  | .error e => .error (.problems (({} : Problems).note e.message))
  | .ok old => (p.newText old).map fun new => (old, new)

/-- The diff of a patch between the texts of its file. -/
def diff (p : FilePatch) (old new : Text) : Text :=
  (Diff.unified ("old/" ++ p.name) old ("new/" ++ p.name) new).getD []

end FilePatch

namespace PatchSet

/-! ## Trees -/

/-- How patching ends. -/
inductive Ending where
  /-- Every file was looked at; these were the problems. -/
  | finished (ps : Problems)
  /-- An edit was at a position that is not in its file. -/
  | invalidPosition
  deriving DecidableEq, Repr

/-- Patches files one after another in a tree, after the problems `ps`. -/
def applyFiles (directory : Text) : FileTree → Problems → List FilePatch → FileTree × Ending
  | tree, ps, [] => (tree, .finished ps)
  | tree, ps, p :: rest =>
    match p.texts tree directory with
    | .error .invalidPosition => (tree, .invalidPosition)
    | .error (.problems more) => applyFiles directory tree (ps.merge more) rest
    | .ok (_, new) => applyFiles directory (tree.write (p.path directory) new) ps rest

/-- Patches the files of a tree below a directory. -/
def apply (s : PatchSet) (tree : FileTree) (directory : Text) : FileTree × Ending :=
  applyFiles directory tree {} s.files

/-- The diffs of files one after another, after the problems `ps`. -/
def diffFiles (tree : FileTree) (directory : Text) : Problems → List FilePatch → List Text × Ending
  | ps, [] => ([], .finished ps)
  | ps, p :: rest =>
    match p.texts tree directory with
    | .error .invalidPosition => ([], .invalidPosition)
    | .error (.problems more) => diffFiles tree directory (ps.merge more) rest
    | .ok (old, new) =>
      let (later, ending) := diffFiles tree directory ps rest
      (p.diff old new :: later, ending)

/-- The diffs that patching the files of a tree would make, one for each file. -/
def diff (s : PatchSet) (tree : FileTree) (directory : Text) : List Text × Ending :=
  diffFiles tree directory {} s.files

end PatchSet

end PointerMigration
