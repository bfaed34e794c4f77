/-
# Edit streams

The lines in which edits are written. The edits of a unit are a block of records between two marks.
A record has five fields: a tag, a file, two numbers and a text. Newlines in a replacement are
written as zero bytes, so that every record is one line.
-/
import PointerMigration.Edit.Replacement

namespace PointerMigration.EditStream

/-- The line before the records of a block. -/
def beginMark : Text := "==== BEGIN EDITS ===="

/-- The line after the records of a block. -/
def endMark : Text := "==== END EDITS ===="

/-- What stands between the fields of a record. -/
def separator : Text := ":::"

/-- The tag of a replacement. -/
def replaceTag : Text := "r"

/-- The tag of a header to include. -/
def headerTag : Text := "include-user-header"

/-- A record of an edit stream. -/
inductive Record where
  | replace (r : Replacement)
  /-- The file needs the header. -/
  | header (file name : Text)
  deriving DecidableEq, Repr

namespace Record

/-- The fields of a record. -/
def fields : Record → List Text
  | replace r =>
    [replaceTag, r.file, Text.ofWord r.offset, Text.ofWord r.length,
      Text.replaceByte Text.newline 0 r.text]
  | header file name => [headerTag, file, "-1", "-1", name]

/-- The line of a record. -/
def line (r : Record) : Text := Text.join separator r.fields

end Record

/-- The records for some replacements, where the files in `included` have the header already. The
first replacement in a file that needs the header is followed by a record for it. -/
def records (header : Text) : List Text → List Replacement → List Record × List Text
  | included, [] => ([], included)
  | included, r :: rest =>
    if r.needsHeader && !header.isEmpty && !included.contains r.file then
      let (later, included) := records header (r.file :: included) rest
      (.replace r :: .header r.file header :: later, included)
    else
      let (later, included) := records header included rest
      (.replace r :: later, included)

/-- A block of records. -/
def block (rs : List Record) : Text :=
  ([beginMark] ++ rs.map Record.line ++ [endMark]).flatMap fun line => line ++ [Text.newline]

end PointerMigration.EditStream
