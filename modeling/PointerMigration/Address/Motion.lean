/-
# Motion in a text

Moving by lines and by runes from an offset of a text. Forward, the text is what follows the offset;
backward, it is what precedes it, in reverse. A motion past an end of the text has no result, except
that the empty line at the very end, and the one at the very start, can be reached.
-/
import PointerMigration.Text.Rune

namespace PointerMigration.Motion

/-- A part of a text: the offset of its first byte and the offset just past its last. -/
structure Span where
  lo : Nat
  hi : Nat
  deriving DecidableEq, Repr

/-- The length of the line at the front of a text, with its newline. -/
def lineLength (t : Text) : Nat :=
  let n := (t.takeWhile (· != Text.newline)).length
  if n < t.length then n + 1 else n

/-- The `n`-th line after the offset `lo` to `hi` of the line before it, where `rest` follows
`hi`. -/
def linesAhead : Nat → Nat → Nat → Text → Option Span
  | 0, lo, hi, _ => some ⟨lo, hi⟩
  | n + 1, _, hi, rest =>
    match rest with
    | [] => if n = 0 then some ⟨hi, hi⟩ else none
    | b :: t =>
      linesAhead n hi (hi + lineLength (b :: t)) ((b :: t).drop (lineLength (b :: t)))

/-- The line `n` lines forward from the offset `hi`. A line that the offset is inside of is passed
first. -/
def forwardLines (t : Text) (hi n : Nat) : Option Span :=
  let start :=
    if (t.take hi).getLast?.any (· != Text.newline) then hi + lineLength (t.drop hi) else hi
  linesAhead n start start (t.drop start)

/-- The bytes back to the start of the line, taken from a text in reverse. -/
def toLineStart (back : Text) : Text := back.dropWhile (· != Text.newline)

/-- The `n`-th line before the line from `lo` to `hi`, where `back` precedes `lo` in reverse. -/
def linesBehind : Nat → Nat → Text → Option Span
  | 0, hi, back => some ⟨back.length, hi⟩
  | n + 1, _, back =>
    match back with
    | [] => if n = 0 then some ⟨0, 0⟩ else none
    | _ :: t => linesBehind n back.length (toLineStart t)

/-- The line `n` lines backward from the offset `lo`. -/
def backwardLines (t : Text) (lo n : Nat) : Option Span :=
  let back := toLineStart (t.take lo).reverse
  linesBehind n back.length back

/-- The offset `n` runes after `offset`, where `rest` follows. -/
def runesAhead : Nat → Nat → Text → Option Nat
  | 0, offset, _ => some offset
  | n + 1, offset, rest =>
    match Rune.decode? rest with
    | none => none
    | some (_, width) => runesAhead n (offset + width) (rest.drop width)

/-- The offset `n` runes before the end of a text given in reverse. -/
def runesBehind : Nat → Text → Option Nat
  | 0, back => some back.length
  | n + 1, back =>
    match back with
    | [] => none
    | b :: t => runesBehind n ((b :: t).drop (Rune.lastWidth (b :: t)))

/-- The offset `n` runes forward from `offset`. -/
def forwardRunes (t : Text) (offset n : Nat) : Option Nat := runesAhead n offset (t.drop offset)

/-- The offset `n` runes backward from `offset`. -/
def backwardRunes (t : Text) (offset n : Nat) : Option Nat := runesBehind n (t.take offset).reverse

end PointerMigration.Motion
