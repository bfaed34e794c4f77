/-
# The command

Runs a command line on the files of the current directory. The files that it asks for are read
first, and those that changed are written at the end.
-/
import PointerMigration.Command.Run

namespace PointerMigration

namespace Command

/-- The string of a text, if it is one. -/
def toString? (t : Text) : Option String := String.fromUTF8? ⟨t.toArray⟩

/-- Reads the files with some names, those that can be read. -/
def readKnown (tree : FileTree) (names : List Text) : IO FileTree :=
  names.foldlM (fun tree name => do
    match toString? name with
    | none => return tree
    | some path =>
      try
        let content ← IO.FS.readBinFile path
        return tree.put (FileTree.placeOf name) content.data.toList
      catch _ => return tree) tree

/-- Reads the files that a command line asks for, and then those that they ask for. -/
def readAsked (arguments : List Text) (input : Text) : Nat → FileTree → IO FileTree
  | 0, tree => return tree
  | rounds + 1, tree => do
    let tree ← readKnown tree (Command.reads tree arguments input)
    readAsked arguments input rounds tree

/-- Writes the files that changed. -/
def writeChanges (before after : FileTree) : IO Unit :=
  (FileTree.changes before after).forM fun (name, content) =>
    match toString? name with
    | none => return ()
    | some path => IO.FS.writeBinFile path ⟨content.toArray⟩

/-- Everything that is left of a stream. -/
def readRest (stream : IO.FS.Stream) : IO Text := do
  let mut all := ByteArray.empty
  repeat
    let part ← stream.read 65536
    if part.isEmpty then break
    all := all ++ part
  return all.data.toList

end Command

end PointerMigration

open PointerMigration

/-- Runs a command line. The exit code is 2 for a wrong use and 1 for another failure. -/
def main (arguments : List String) : IO UInt32 := do
  let arguments := arguments.map Text.ofString
  let input ← if Command.readsInput arguments then Command.readRest (← IO.getStdin) else pure []
  let tree ← Command.readAsked arguments input 3 {}
  let outcome := Command.run tree arguments input
  (← IO.getStderr).write ⟨outcome.logText.toArray⟩
  (← IO.getStdout).write ⟨outcome.output.toArray⟩
  Command.writeChanges tree outcome.tree
  match outcome.error with
  | none => return 0
  | some e =>
    (← IO.getStderr).write ⟨("rawptr: " ++ e.message ++ [Text.newline]).toArray⟩
    match e with
    | .noUnits => return 2
    | .tooFewJobs => return 2
    | _ => return 1
