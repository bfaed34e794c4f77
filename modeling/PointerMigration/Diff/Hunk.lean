/-
# Hunks

A unified diff shows the changed lines of two texts in hunks, each with up to three unchanged lines
before and after. Changes with at most six unchanged lines between them share a hunk.
-/
import PointerMigration.Diff.LineRune
import PointerMigration.Text.Decimal

namespace PointerMigration

/-- A hunk: the numbers of old and new lines before it, and its lines. -/
structure Hunk where
  oldBefore : Nat
  newBefore : Nat
  lines : List DiffLine
  deriving DecidableEq, Repr

namespace Hunk

/-- The number of unchanged lines shown around changes. -/
def context : Nat := 3

/-- The lines from a change on that belong to one hunk, without the context after the last change,
and the lines that follow. -/
def body : Nat → List DiffLine → List DiffLine × List DiffLine
  | 0, ls => ([], ls)
  | _ + 1, [] => ([], [])
  | fuel + 1, l :: rest =>
    if l.isKept then
      let between := (l :: rest).takeWhile DiffLine.isKept
      let after := (l :: rest).dropWhile DiffLine.isKept
      if !after.isEmpty && between.length ≤ 2 * context then
        let (more, left) := body fuel after
        (between ++ more, left)
      else ([], l :: rest)
    else
      let (more, left) := body fuel rest
      (l :: more, left)

/-- The hunks of a diff, of which there are at most `fuel`, after the given numbers of old and new
lines. -/
def hunksFrom : Nat → Nat → Nat → List DiffLine → List Hunk
  | 0, _, _, _ => []
  | fuel + 1, oldBefore, newBefore, ls =>
    let unchanged := ls.takeWhile DiffLine.isKept
    let rest := ls.dropWhile DiffLine.isKept
    if rest.isEmpty then []
    else
      let skipped := unchanged.length - context
      let (changed, left) := body (rest.length + 1) rest
      let trailing := (left.takeWhile DiffLine.isKept).take context
      let hunk : Hunk :=
        { oldBefore := oldBefore + skipped
          newBefore := newBefore + skipped
          lines := unchanged.drop skipped ++ changed ++ trailing }
      hunk :: hunksFrom fuel (hunk.oldBefore + DiffLine.oldCount hunk.lines)
        (hunk.newBefore + DiffLine.newCount hunk.lines) (left.drop trailing.length)

/-- The hunks of a diff. -/
def ofLines (ls : List DiffLine) : List Hunk := hunksFrom (ls.length + 1) 0 0 ls

/-- A range of lines in the head of a hunk: the number of the first line, and the number of lines if
it is not one. The first line of an empty range is the one before it. -/
def range (before count : Nat) : Text :=
  if count = 0 then Text.ofNat before ++ ",0"
  else if count = 1 then Text.ofNat (before + 1)
  else Text.ofNat (before + 1) ++ "," ++ Text.ofNat count

/-- The head of a hunk. -/
def head (h : Hunk) : Text :=
  "@@ -" ++ range h.oldBefore (DiffLine.oldCount h.lines) ++ " +" ++
    range h.newBefore (DiffLine.newCount h.lines) ++ " @@\n"

/-- A hunk as it is printed. -/
def render (h : Hunk) : Text := h.head ++ h.lines.flatMap DiffLine.render

end Hunk

end PointerMigration
