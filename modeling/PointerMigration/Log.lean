/-
# Reports

What is logged: a level, a message and named values. A line of the log leaves values bare where that
is unambiguous and quotes them otherwise. A computation that fails reports a cause, unless it used a
part of its input that is not there: a position outside a text, an entry of a tree that is null.
-/
import PointerMigration.Text.Quoted

namespace PointerMigration

/-! ## Failures -/

/-- How a computation fails. -/
inductive Failure (ε : Type) where
  /-- With a cause that is reported. -/
  | cause (c : ε)
  /-- By using a part of the input that is not there. -/
  | absent
  deriving DecidableEq, Repr

namespace Failure

/-- A failure with its cause changed. -/
def map {ε δ : Type} (f : ε → δ) : Failure ε → Failure δ
  | cause c => cause (f c)
  | absent => absent

end Failure

/-! ## Log entries -/

/-- How important a log entry is. -/
inductive LogLevel where
  | debug
  | info
  | warning
  | error
  deriving DecidableEq, Repr

namespace LogLevel

/-- The name of a level. -/
def name : LogLevel → Text
  | debug => "DEBUG"
  | info => "INFO"
  | warning => "WARN"
  | error => "ERROR"

/-- The levels in order of importance. -/
def rank : LogLevel → Nat
  | debug => 0
  | info => 1
  | warning => 2
  | error => 3

/-- The least important level that is shown: warnings, and more if that is asked for once or
more. -/
def ofVerbosity (count : Int64) : LogLevel :=
  if count = 1 then info else if 1 < count then debug else warning

end LogLevel

/-- An entry of the log. -/
structure LogEntry where
  level : LogLevel
  message : Text
  values : List (Text × Text) := []
  deriving DecidableEq, Repr

namespace LogEntry

/-- Whether a rune in a value makes quotes necessary: a control character, a space, a quote, an
equals sign, or a rune outside ASCII that does not print. -/
def needsQuotes (r : Rune) : Bool :=
  if r < 0x80 then r ≤ 32 || r = 34 || r = 61
  else r = Rune.replacement || !Category.isPrintable r

/-- A value as it stands in a line of the log. -/
def value (t : Text) : Text :=
  if t.isEmpty || (Text.runes t).any needsQuotes then Text.quote t else t

/-- A named value as it stands in a line of the log. -/
def named (key v : Text) : Text := " " ++ value key ++ "=" ++ value v

/-- A line of the log. -/
def line (e : LogEntry) : Text :=
  "level=" ++ e.level.name ++ " msg=" ++ value e.message ++
    (e.values.flatMap fun (key, v) => named key v) ++ [Text.newline]

end LogEntry

end PointerMigration
