/-
# Unit files

A unit file holds one unit, as JSON or as MessagePack. The name of the file tells which.
-/
import PointerMigration.Datum.Json
import PointerMigration.Datum.MessagePack
import PointerMigration.Source.Record

namespace PointerMigration

/-- The format of a unit file. -/
inductive UnitFormat where
  | json
  | messagePack
  deriving DecidableEq, Repr

namespace UnitFormat

/-- How a format reads records. -/
def dialect : UnitFormat → Dialect
  | json => { ignoresCase := true, skipsUnknown := false, positional := false, nullClears := false }
  | messagePack =>
    { ignoresCase := false, skipsUnknown := true, positional := true, nullClears := true }

/-- Reads data in a format. -/
def readDatum : UnitFormat → Text → Option Datum
  | json => Json.read
  | messagePack => MessagePack.read

/-- Writes data in a format. -/
def writeDatum : UnitFormat → Datum → Text
  | json => Json.write
  | messagePack => MessagePack.write

end UnitFormat

/-- Why a text is not a unit. -/
inductive UnitError where
  /-- It is not data of the right form. -/
  | malformed
  /-- It has a key that units do not have. -/
  | unknownKey (key : Text)
  /-- Two nodes have the same id. -/
  | duplicateId (id : Text)
  deriving DecidableEq, Repr

namespace UnitError

/-- The message for an error. -/
def message : UnitError → Text
  | malformed => "decoding unit"
  | unknownKey key => "decoding unit: json: unknown field " ++ Text.quote key
  | duplicateId id => "duplicate node id " ++ id

/-- An error in reading data, as an error in reading a unit. -/
def ofRecordError : RecordError → UnitError
  | .malformed => malformed
  | .unknownKey key => unknownKey key

end UnitError

namespace CompilationUnit

/-- Checks that no two nodes of a unit have the same id. -/
def checked (u : CompilationUnit) : Except UnitError CompilationUnit :=
  match u.duplicateId? with
  | some id => .error (.duplicateId id)
  | none => .ok u

/-- Reads a unit from data. -/
def ofDatum (f : UnitFormat) (v : Datum) : Except UnitError CompilationUnit :=
  match read f.dialect v with
  | .error e => .error (.ofRecordError e)
  | .ok u => u.checked

/-- Reads a unit from a text in a format. -/
def decode (f : UnitFormat) (t : Text) : Except UnitError CompilationUnit :=
  match f.readDatum t with
  | none => .error .malformed
  | some v => ofDatum f v

/-- A unit as a text in a format. -/
def encode (f : UnitFormat) (u : CompilationUnit) : Text := f.writeDatum u.datum

end CompilationUnit

end PointerMigration
