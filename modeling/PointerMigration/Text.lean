/-
# Texts

A text is a list of bytes. Source files, edit streams, unit files and messages are all texts, and
none of them has to be valid UTF-8. The functions here know bytes only; characters are in
`PointerMigration.Text.Rune`.

A line ends with a newline, or with the text if that does not end in one. Readers of line-oriented
input refuse a line that is too long for their buffer and drop one carriage return from the end of
each line.
-/

namespace PointerMigration

/-- A text is a sequence of bytes, which need not be valid UTF-8. -/
abbrev Text := List UInt8

namespace Text

/-- The UTF-8 bytes of a string. -/
def ofString (s : String) : Text := s.toByteArray.data.toList

instance : Coe String Text := ⟨ofString⟩

/-! ## Bytes with a name -/

/-- The byte that ends a line. -/
def newline : UInt8 := 10

/-- The carriage return. -/
def carriageReturn : UInt8 := 13

/-- The backslash. -/
def backslash : UInt8 := 92

/-- The slash. -/
def slash : UInt8 := 47

/-- The colon. -/
def colon : UInt8 := 58

/-- A decimal digit. -/
def isDigit (b : UInt8) : Bool := 48 ≤ b && b ≤ 57

/-- An ASCII letter. -/
def isLetter (b : UInt8) : Bool := (65 ≤ b && b ≤ 90) || (97 ≤ b && b ≤ 122)

/-- The value of a hexadecimal digit. -/
def hexValue? (b : UInt8) : Option Nat :=
  if 48 ≤ b && b ≤ 57 then some (b.toNat - 48)
  else if 97 ≤ b && b ≤ 102 then some (b.toNat - 87)
  else if 65 ≤ b && b ≤ 70 then some (b.toNat - 55)
  else none

/-- The lower-case hexadecimal digit of a value below sixteen. -/
def hexDigit (n : Nat) : UInt8 :=
  if n < 10 then UInt8.ofNat (48 + n) else UInt8.ofNat (87 + n)

/-- The lowest `width` hexadecimal digits of `n`. -/
def hex : Nat → Nat → Text
  | 0, _ => []
  | width + 1, n => hex width (n / 16) ++ [hexDigit (n % 16)]

/-! ## Search and replacement -/

/-- Whether `part` occurs in a text. -/
def contains (part : Text) : Text → Bool
  | [] => part.isEmpty
  | b :: t => part.isPrefixOf (b :: t) || contains part t

/-- A text with one byte replaced by another wherever it occurs. -/
def replaceByte (old new : UInt8) (t : Text) : Text :=
  t.map fun b => if b = old then new else b

/-- Looks for `sep` in a text; `before` holds the bytes passed so far, in reverse. -/
def cutFrom (sep : Text) : Text → Text → Option (Text × Text)
  | before, [] => if sep.isEmpty then some (before.reverse, []) else none
  | before, b :: t =>
    if sep.isPrefixOf (b :: t) then some (before.reverse, (b :: t).drop sep.length)
    else cutFrom sep (b :: before) t

/-- What precedes the first occurrence of `sep` and what follows it, if there is one. -/
def cut? (sep t : Text) : Option (Text × Text) := cutFrom sep [] t

/-- The pieces of a text between occurrences of `sep`, at most `n + 1` of them: the last piece keeps
whatever separators it holds. -/
def splitUpTo (sep : Text) : Nat → Text → List Text
  | 0, t => [t]
  | n + 1, t =>
    match cut? sep t with
    | none => [t]
    | some (before, after) => before :: splitUpTo sep n after

/-- A text without its ending `tail`, if it ends that way. -/
def dropSuffix? (tail t : Text) : Option Text :=
  if tail.isSuffixOf t then some (t.take (t.length - tail.length)) else none

/-- Texts joined with `sep` between them. -/
def join (sep : Text) (parts : List Text) : Text := List.intercalate sep parts

/-! ## Order -/

/-- Texts are ordered byte by byte, a text before its extensions. -/
def le (a b : Text) : Bool := !decide (b < a)

/-! ## Lines -/

/-- The lines of a text, without their newlines. -/
def lines (t : Text) : List Text :=
  let parts := t.splitOn newline
  if parts.getLast? = some [] then parts.dropLast else parts

/-- A line without the carriage return at its end. -/
def dropReturn (line : Text) : Text :=
  if line.getLast? = some carriageReturn then line.dropLast else line

/-- What a reader with a buffer of `limit` bytes sees of a text: the lines before the first one that
does not fit, and whether there is such a line. -/
def readLines (limit : Nat) (t : Text) : List Text × Bool :=
  let all := lines t
  ((all.takeWhile fun line => line.length < limit).map dropReturn,
    all.any fun line => limit ≤ line.length)

/-- What is reported for a line that does not fit. -/
def tooLong : Text := "bufio.Scanner: token too long"

end Text

end PointerMigration
