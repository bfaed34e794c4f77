/-
# Unified diffs

The diff of two texts, line by line, and its colours for a terminal.
-/
import PointerMigration.Diff.Compare
import PointerMigration.Diff.Hunk

namespace PointerMigration.Diff

/-- The lines that a script between runes stands for. -/
def ofScript (table : List Text) (s : Script Int32) : List DiffLine :=
  s.flatMap fun p => (LineRune.throughText p.items).map fun r => ⟨p.change, LineRune.line table r⟩

/-- The lines of the diff of two texts, whose lines are compared as runes. -/
def linesBy (compare : List Int32 → List Int32 → Script Int32) (old new : Text) : List DiffLine :=
  let table := LineRune.table (Text.lines old) (Text.lines new)
  DiffLine.deletesFirst (ofScript table
    (compare ((Text.lines old).map (LineRune.ofLine table))
      ((Text.lines new).map (LineRune.ofLine table))))

/-- The lines at the top of a diff. -/
def heading (oldName newName : Text) : Text :=
  "diff " ++ oldName ++ " " ++ newName ++ "\n--- " ++
    oldName ++ "\n+++ " ++ newName ++ "\n"

/-- The diff of two texts whose lines are compared as runes, or nothing if they are equal. -/
def unifiedBy (compare : List Int32 → List Int32 → Script Int32) (oldName old newName new : Text) :
    Option Text :=
  if old = new then none
  else
    some (heading oldName newName ++ (Hunk.ofLines (linesBy compare old new)).flatMap Hunk.render)

/-- The diff of two texts, or nothing if they are equal. -/
def unified (oldName old newName new : Text) : Option Text :=
  unifiedBy Script.compare oldName old newName new

/-! ## Colours -/

/-- A text between the sequences that switch a style on and off. -/
def styled (on off : String) (t : Text) : Text :=
  27 :: Text.ofString on ++ t ++ 27 :: Text.ofString off

/-- A line of a diff with its colour: heads bold or cyan, removals red and additions green. -/
def colorLine (line : Text) : Text :=
  let starts (s : String) : Bool := (Text.ofString s).isPrefixOf line
  if starts "diff " || starts "--- " || starts "+++ " then styled "[1m" "[22m" line
  else if starts "@@" then styled "[36m" "[0m" line
  else if starts "-" then styled "[31m" "[0m" line
  else if starts "+" then styled "[32m" "[0m" line
  else line

/-- A diff with colours. -/
def colorize (d : Text) : Text :=
  (Text.lines d).flatMap fun line => colorLine line ++ [Text.newline]

end PointerMigration.Diff
