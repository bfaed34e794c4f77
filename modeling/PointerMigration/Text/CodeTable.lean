/-
# Tables over code points

Properties of code points are written down as lines of entries divided by spaces, code points in
hexadecimal. This file reads the three kinds of entry: the start of a run with a label, a range, and
a range with the distance by which it is moved.
-/
import PointerMigration.Text.Rune

namespace PointerMigration

namespace CodeTable

/-- The value of a hexadecimal numeral. -/
def hexNat (t : Text) : Nat := t.foldl (fun n b => n * 16 + (Text.hexValue? b).getD 0) 0

/-- A text in two at the first byte `sep`, the second part empty if there is no such byte. -/
def halves (sep : UInt8) (t : Text) : Text × Text :=
  (t.takeWhile (· != sep), (t.dropWhile (· != sep)).drop 1)

/-- The entries of a table. -/
def entries (table : List String) : List Text :=
  table.flatMap fun line => (Text.ofString line).splitOn 32

/-! ## Runs -/

/-- Looks for the last run that starts at or before `r`, among those from `lo` up to `hi`, in at
most `steps` steps. -/
def runIn {α : Type} (runs : Array (Nat × α)) (r : Rune) : Nat → Nat → Nat → Option α
  | 0, _, _ => none
  | steps + 1, lo, hi =>
    if hi ≤ lo + 1 then runs[lo]?.map Prod.snd
    else
      let mid := (lo + hi) / 2
      match runs[mid]? with
      | none => none
      | some (first, _) =>
        if first ≤ r then runIn runs r steps mid hi else runIn runs r steps lo mid

/-- The label of the run that `r` is in. The runs are in increasing order and the first starts at
zero. -/
def runAt {α : Type} (runs : Array (Nat × α)) (r : Rune) : Option α :=
  runIn runs r (runs.size + 1) 0 runs.size

/-! ## Ranges -/

/-- A range of code points, both ends included. -/
structure Range where
  first : Rune
  last : Rune
  deriving DecidableEq, Repr

namespace Range

/-- Whether a rune is in a range. -/
def contains (g : Range) (r : Rune) : Bool := g.first ≤ r && r ≤ g.last

/-- Reads a range written as its ends with a hyphen between them, or as its only member. -/
def ofText (t : Text) : Range :=
  match halves 45 t with
  | (a, []) => ⟨hexNat a, hexNat a⟩
  | (a, b) => ⟨hexNat a, hexNat b⟩

end Range

/-- The ranges of a table. -/
def ranges (table : List String) : List Range := (entries table).map Range.ofText

/-! ## Moves -/

/-- Every `step`-th code point of a range, moved up or down by one distance. -/
structure Move where
  range : Range
  step : Nat
  up : Bool
  distance : Nat
  deriving Repr

namespace Move

/-- Where a move takes a rune, if it moves it at all. -/
def target? (m : Move) (r : Rune) : Option Rune :=
  if m.range.contains r && (r - m.range.first) % m.step = 0 then
    some (if m.up then r + m.distance else r - m.distance)
  else none

/-- The rune that a move takes to `r`, if there is one. -/
def source? (m : Move) (r : Rune) : Option Rune :=
  let s := if m.up then r - m.distance else r + m.distance
  if m.target? s = some r then some s else none

/-- Reads a move: a range, after a slash the step if it is not one, and after a colon the
sign and the distance. -/
def ofText (t : Text) : Move :=
  let (source, distance) := halves Text.colon t
  let (range, step) := halves Text.slash source
  { range := Range.ofText range
    step := if step.isEmpty then 1 else hexNat step
    up := distance.head? = some 43
    distance := hexNat (distance.drop 1) }

end Move

/-- The moves of a table. -/
def moves (table : List String) : List Move := (entries table).map Move.ofText

/-- A rune after the one move that applies to it, if any does. -/
def move (ms : List Move) (r : Rune) : Rune := (ms.findSome? fun m => m.target? r).getD r

end CodeTable

end PointerMigration
