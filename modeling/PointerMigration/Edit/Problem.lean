/-
# Problems

What goes wrong when files are patched: messages, some of them at a position of a file. A list of
problems holds each once. Reporting a list leaves it in the order of positions.
-/
import PointerMigration.Text.Decimal

namespace PointerMigration

/-- A position in a file. Line and column are zero if they are not known. -/
structure Position where
  file : Text := []
  offset : Int64 := 0
  line : Nat := 0
  column : Nat := 0
  deriving DecidableEq, Repr

namespace Position

/-- The line and column after some bytes. -/
def after (t : Text) : Nat × Nat :=
  t.foldl
    (fun (line, column) b => if b = Text.newline then (line + 1, 1) else (line, column + 1)) (1, 1)

/-- The position at an offset of a file, with line and column if the text of the file is given and
reaches that far. -/
def ofOffset (file : Text) (text : Option Text) (offset : Int64) : Position :=
  match text with
  | none => { file, offset }
  | some t =>
    if offset < 0 || (t.length : Int) < offset.toInt then { file, offset }
    else
      let (line, column) := after (t.take offset.toInt.toNat)
      { file, offset, line, column }

/-- The line and column of a position as they are printed. -/
def lineAndColumn (p : Position) : Text :=
  Text.ofNat p.line ++ if p.column = 0 then [] else Text.colon :: Text.ofNat p.column

/-- A position as it is printed. -/
def describe (p : Position) : Text :=
  if p.line = 0 then if p.file.isEmpty then "-" else p.file
  else if p.file.isEmpty then p.lineAndColumn
  else p.file ++ ":" ++ p.lineAndColumn

/-- Whether a position comes no later than another: by file, then by offset. -/
def le (p q : Position) : Bool := p.file < q.file || (p.file = q.file && p.offset ≤ q.offset)

end Position

/-- A message about a position, or about no position if the position has no file. -/
structure Problem where
  position : Position := {}
  message : Text
  deriving DecidableEq, Repr

/-- A problem as it is printed. -/
def Problem.describe (p : Problem) : Text :=
  if p.position.file.isEmpty then p.message else p.position.describe ++ ": " ++ p.message

/-- A list of problems, each once. -/
structure Problems where
  all : List Problem := []
  deriving DecidableEq, Repr

namespace Problems

/-- Adds a problem unless it is there already. -/
def add (ps : Problems) (p : Problem) : Problems := if p ∈ ps.all then ps else ⟨ps.all ++ [p]⟩

/-- Adds a message about no position. -/
def note (ps : Problems) (message : Text) : Problems := ps.add { message }

/-- Adds the problems of another list. -/
def merge (ps other : Problems) : Problems := other.all.foldl add ps

/-- Whether there is no problem. -/
def isEmpty (ps : Problems) : Bool := ps.all.isEmpty

/-- The problems in the order of positions; those at equal positions keep their order. -/
def inOrder (ps : Problems) : Problems := ⟨ps.all.mergeSort fun a b => a.position.le b.position⟩

/-- The problems as they are printed, in the order of positions. -/
def message (ps : Problems) : Text :=
  if ps.isEmpty then "no errors"
  else Text.join [Text.newline] (ps.inOrder.all.map Problem.describe)

/-- The message for a list of problems, and the list in the order of positions. -/
def report (ps : Problems) : Text × Problems := (ps.message, ps.inOrder)

end Problems

end PointerMigration
