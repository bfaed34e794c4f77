/-
# TOML statements

A TOML text is a list of statements: headers of tables, headers of elements of arrays of tables,
and assignments of values to keys. Of a value that is neither a text nor made of other values only
that it is one is kept.
-/
import PointerMigration.Text

namespace PointerMigration.Toml

/-- A key: its parts between dots. -/
abbrev Key := List Text

/-- A value. -/
inductive Value where
  | text (t : Text)
  /-- A number, a truth value or a date. -/
  | scalar
  | array (items : List Value)
  | table (entries : List (Key × Value))
  deriving Repr

/-- A statement. -/
inductive Statement where
  | table (key : Key)
  | element (key : Key)
  | assign (key : Key) (value : Value)
  deriving Repr

/-- A byte that can stand in a key without quotes. -/
def isBare (b : UInt8) : Bool := Text.isLetter b || Text.isDigit b || b = 95 || b = 45

/-- A byte of a quoted part of a key. -/
def escapeByte (b : UInt8) : Text :=
  match b with
  | 34 => [Text.backslash, 34]
  | 92 => [Text.backslash, Text.backslash]
  | 8 => [Text.backslash, 98]
  | 9 => [Text.backslash, 116]
  | 10 => [Text.backslash, 110]
  | 12 => [Text.backslash, 102]
  | 13 => [Text.backslash, 114]
  | b => if b < 32 || b = 127 then [Text.backslash, 117] ++ Text.hex 4 b.toNat else [b]

/-- A part of a key as it is printed, in quotes if it needs them. -/
def partText (part : Text) : Text :=
  if !part.isEmpty && part.all isBare then part
  else 34 :: part.flatMap escapeByte ++ [34]

/-- A key as it is printed. -/
def keyText (key : Key) : Text := Text.join "." (key.map partText)

end PointerMigration.Toml
