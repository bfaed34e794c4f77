/-
# TOML texts

Texts between quotes. Between double quotes a backslash starts an escape; between single quotes
there are none. Three quotes enclose a text of several lines.
-/
import PointerMigration.Text.Rune

namespace PointerMigration.Toml

/-- The double quote. -/
def doubleQuote : UInt8 := 34

/-- The single quote. -/
def singleQuote : UInt8 := 39

/-- The number that hexadecimal digits stand for. -/
def hexNumber? (digits : Text) : Option Nat :=
  digits.foldl (fun n b => n.bind fun n => (Text.hexValue? b).map fun d => n * 16 + d) (some 0)

/-- The bytes of the rune with a number of `width` hexadecimal digits at the front of a text. -/
def runeEscape? (width : Nat) (t : Text) : Option Text :=
  if t.length < width then none
  else
    match hexNumber? (t.take width) with
    | some n => if Rune.isValid n then some (Rune.encode n) else none
    | none => none

/-- What the escape after a backslash stands for, and its length. -/
def escape? (t : Text) : Option (Text × Nat) :=
  match t with
  | [] => none
  | b :: rest =>
    match b with
    | 98 => some ([8], 1)
    | 116 => some ([9], 1)
    | 110 => some ([10], 1)
    | 102 => some ([12], 1)
    | 114 => some ([13], 1)
    | 34 => some ([34], 1)
    | 92 => some ([92], 1)
    | 117 => (runeEscape? 4 rest).map fun r => (r, 5)
    | 85 => (runeEscape? 8 rest).map fun r => (r, 9)
    | _ => none

/-- White space after a backslash at the end of a line. -/
def isLineBlank (b : UInt8) : Bool := b = 32 || b = 9 || b = 13 || b = 10

/-- Reads a text on one line up to its closing quote, `read` being its bytes so far in reverse. The
next `skip` bytes belong to an escape. -/
def readLine (quote : UInt8) : Nat → Text → Text → Option (Text × Text)
  | _, _, [] => none
  | skip + 1, read, _ :: t => readLine quote skip read t
  | 0, read, b :: t =>
    if b = quote then some (read.reverse, t)
    else if b = Text.newline || b = Text.carriageReturn then none
    else if b = Text.backslash && quote = doubleQuote then
      match escape? t with
      | some (bytes, width) => readLine quote width (bytes.reverse ++ read) t
      | none => none
    else readLine quote 0 (b :: read) t

/-- How many quotes end at the current byte, and whether a backslash stands before them. -/
structure QuoteRun where
  count : Nat := 0
  escaped : Bool := false

/-- Whether a text of several lines has too many quotes in a row, with three more and then
another. -/
def QuoteRun.isTooLong (run : QuoteRun) (quote : UInt8) : Bool :=
  5 < run.count + 3 || (run.count + 3 = 5 && !(run.escaped && quote = doubleQuote))

/-- Reads a text of several lines up to its closing quotes, `read` being its bytes so far in
reverse. The next `skip` bytes belong to an escape. A backslash at the end of a line stands for
nothing, together with the white space that follows. -/
def readLines (quote : UInt8) : Nat → QuoteRun → Text → Text → Option (Text × Text)
  | _, _, _, [] => none
  | skip + 1, run, read, _ :: t => readLines quote skip run read t
  | 0, run, read, b :: t =>
    if b = quote then
      if [quote, quote].isPrefixOf t then
        if t.drop 2 |>.head?.any (· = quote) then
          if run.isTooLong quote then none
          else readLines quote 0 { run with count := run.count + 1 } (b :: read) t
        else some (read.reverse, t.drop 2)
      else readLines quote 0 { run with count := run.count + 1 } (b :: read) t
    else if b = Text.backslash && quote = doubleQuote then
      let blanks := t.takeWhile isLineBlank
      if blanks.contains Text.newline then readLines quote blanks.length {} read t
      else
        match escape? t with
        | some (bytes, width) =>
          let run : QuoteRun := if t.head?.any (· = quote) then ⟨1, true⟩ else {}
          let run : QuoteRun := if t.head?.any (· = Text.backslash) then ⟨0, true⟩ else run
          readLines quote width run (bytes.reverse ++ read) t
        | none => none
    else readLines quote 0 {} (b :: read) t

/-- A text without the newline at its front. -/
def dropNewline (t : Text) : Text :=
  match t with
  | 10 :: t => t
  | 13 :: 10 :: t => t
  | t => t

/-- Reads a text between quotes, of one line or of several. -/
def readQuoted (quote : UInt8) (t : Text) : Option (Text × Text) :=
  if [quote, quote].isPrefixOf t then readLines quote 0 {} [] (dropNewline (t.drop 2))
  else readLine quote 0 [] t

end PointerMigration.Toml
