/-
# Patch sets

The edits that edit streams ask for, merged and by file. Only complete blocks count: a block cut
short is dropped whole. A record that several blocks have counts once.
-/
import PointerMigration.Edit.Stream
import PointerMigration.Text

namespace PointerMigration

namespace EditStream

/-- Why a stream cannot be read. -/
inductive Error where
  /-- A block ends on a line without having begun. -/
  | unmatchedEnd (line : Nat)
  | malformed (record : Text)
  | unknownTag (tag : Text)
  | lineTooLong
  deriving DecidableEq, Repr

/-- The message for an error. -/
def Error.message : Error → Text
  | unmatchedEnd line =>
    "line " ++ Text.ofNat line ++ ": " ++ endMark ++ " without " ++ beginMark
  | malformed record => "malformed record " ++ Text.quote record
  | unknownTag tag => "unknown record type " ++ Text.quote tag
  | lineTooLong => Text.tooLong

/-- The file that a record is about. -/
def Record.file : Record → Text
  | .replace r => r.file
  | .header file _ => file

/-- A number of bytes: a word that is not negative. -/
def readCount (t : Text) : Option Int64 :=
  match Decimal.read t with
  | .ok n => if n < 0 then none else some n
  | .error _ => none

/-- Reads a record. -/
def Record.parse (t : Text) : Except Error Record :=
  match Text.splitUpTo separator 4 t with
  | [tag, file, offset, length, text] =>
    if tag = replaceTag then
      match readCount offset, readCount length with
      | some offset, some length =>
        .ok (.replace { file, offset, length, text := Text.replaceByte 0 Text.newline text })
      | _, _ => .error (.malformed t)
    else if tag = headerTag then .ok (.header file text)
    else .error (.unknownTag tag)
  | _ => .error (.malformed t)

/-- The records of the complete blocks among some lines, the first of which has the number `number`,
up to a block that ends without having begun, and the line of that one. `block` has the records of
the block so far in reverse, if there is one. -/
def completeFrom : Nat → Option (List Text) → List Text → List Text × Option Nat
  | _, _, [] => ([], none)
  | number, block, line :: rest =>
    if line = beginMark then completeFrom (number + 1) (some []) rest
    else if line = endMark then
      match block with
      | none => ([], some number)
      | some records =>
        let (later, unmatched) := completeFrom (number + 1) none rest
        (records.reverse ++ later, unmatched)
    else completeFrom (number + 1) (block.map (line :: ·)) rest

/-- The longest line that can be read is one byte shorter. -/
def lineLimit : Nat := 16777216

/-- Reads records in order, each of them once. -/
def readRecords (texts : List Text) : Except Error (List Record) :=
  texts.eraseDups.mapM Record.parse

/-- Reads the records of the complete blocks of a stream. -/
def parse (stream : Text) : Except Error (List Record) := do
  let (lines, tooLong) := Text.readLines lineLimit stream
  let (texts, unmatched) := completeFrom 1 none lines
  let records ← readRecords texts
  match unmatched with
  | some line => .error (.unmatchedEnd line)
  | none => if tooLong then .error .lineTooLong else return records

end EditStream

/-- The edits for one file. -/
structure FilePatch where
  name : Text
  replacements : List Replacement := []
  headers : List Text := []
  deriving DecidableEq, Repr

/-- The edits for a tree, by file in the order of names. -/
structure PatchSet where
  files : List FilePatch := []
  deriving DecidableEq, Repr

namespace PatchSet

/-- The edits that records ask for in a file. -/
def patchFor (records : List EditStream.Record) (name : Text) : FilePatch :=
  let own := records.filter fun r => r.file = name
  { name,
    replacements := own.filterMap fun
      | .replace r => some r
      | .header _ _ => none
    headers := own.filterMap fun
      | .replace _ => none
      | .header _ h => some h }

/-- The edits that records ask for. -/
def ofRecords (records : List EditStream.Record) : PatchSet :=
  let names := (records.map EditStream.Record.file).eraseDups.mergeSort Text.le
  ⟨names.map (patchFor records)⟩

/-- The edits that a stream asks for. -/
def parse (stream : Text) : Except EditStream.Error PatchSet :=
  (EditStream.parse stream).map ofRecords

end PatchSet

end PointerMigration
