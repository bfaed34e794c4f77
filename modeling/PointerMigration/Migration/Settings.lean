/-
# Settings

What the migration writes and which files and fields it leaves alone. A list of fields to
leave alone has one qualified name per line. A number sign starts a comment, and white space
around a name does not matter.
-/
import PointerMigration.Text.Rune

namespace PointerMigration

/-- Which paths belong to code that is left alone: those that contain an entry of `always`, and
those that contain the marker and no entry of `firstParty`. -/
structure ThirdPartyRule where
  marker : Text := "third_party"
  firstParty : List Text := ["third_party/blink/"]
  always : List Text := ["v8/include/"]
  deriving DecidableEq, Repr

namespace ThirdPartyRule

/-- Whether a path contains a text that is not empty. -/
def mentions (path part : Text) : Bool := !part.isEmpty && Text.contains part path

/-- Whether a path belongs to code that is left alone. Backslashes count as slashes. -/
def covers (rule : ThirdPartyRule) (path : Text) : Bool :=
  let path := Text.replaceByte Text.backslash Text.slash path
  if rule.always.any (mentions path) then true
  else if rule.firstParty.any (mentions path) then false
  else mentions path rule.marker

end ThirdPartyRule

/-- The settings of a migration. -/
structure Settings where
  /-- The file that lists fields to leave alone, or empty. -/
  excludeFields : Text := []
  /-- The class template that takes the place of raw pointers. -/
  wrapper : Text := "CheckedPtr"
  /-- What is appended to a member name where the raw pointer is needed. -/
  accessor : Text := ".get()"
  /-- The header that declares the wrapper. -/
  header : Text := "base/memory/checked_ptr.h"
  thirdParty : ThirdPartyRule := {}
  deriving DecidableEq, Repr

/-- Why settings are refused. -/
inductive SettingsError where
  | emptyWrapper
  | emptyAccessor
  | severalLines
  deriving DecidableEq, Repr

/-- The message for an error. -/
def SettingsError.message : SettingsError → Text
  | .emptyWrapper => "wrapper must not be empty"
  | .emptyAccessor => "accessor must not be empty"
  | .severalLines => "wrapper, accessor and include must be single-line"

/-- Checks that settings can give code that compiles. -/
def Settings.validate (s : Settings) : Except SettingsError Unit :=
  if (Text.trim s.wrapper).isEmpty then .error .emptyWrapper
  else if (Text.trim s.accessor).isEmpty then .error .emptyAccessor
  else if Text.newline ∈ s.wrapper ++ s.accessor ++ s.header then .error .severalLines
  else .ok ()

/-! ## Exclusion lists -/

/-- Names of fields to leave alone, each once. -/
structure Exclusions where
  names : List Text := []
  deriving DecidableEq, Repr

namespace Exclusions

/-- The longest line that can be read is one byte shorter. -/
def lineLimit : Nat := 65536

/-- The name that a line lists, which may be empty. -/
def nameOf (line : Text) : Text := Text.trim (line.takeWhile (· != 35))

/-- The names that lines list. -/
def ofLines (lines : List Text) : Exclusions :=
  ⟨((lines.map nameOf).filter fun name => !name.isEmpty).eraseDups⟩

/-- Reads an exclusion list. There is none if a line is too long. -/
def parse (t : Text) : Option Exclusions :=
  let (lines, tooLong) := Text.readLines lineLimit t
  if tooLong then none else some (ofLines lines)

/-- Whether a name is listed. -/
def contains (e : Exclusions) (name : Text) : Bool := e.names.contains name

end Exclusions

end PointerMigration
