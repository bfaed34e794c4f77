/-
# Lines of a diff

Lines are compared by one rune each: the rune of a line is its number among the different lines,
moved past the surrogates, which cannot stand in a text. A diff is a list of lines that are
kept, deleted or inserted.
-/
import PointerMigration.Diff.Script
import PointerMigration.Text.Rune

namespace PointerMigration

namespace LineRune

/-- The rune for a line number. -/
def ofIndex (i : Int64) : Int32 := (if 0xD800 ≤ i then i + 0x800 else i).toInt32

/-- The line number of a rune. -/
def index (r : Int32) : Int64 := (if 0xE000 ≤ r then r - 0x800 else r).toInt64

/-- The different lines of two texts, in the order in which they first come. -/
def table (old new : List Text) : List Text := (old ++ new).eraseDups

/-- The rune for a line of a table. -/
def ofLine (table : List Text) (line : Text) : Int32 := ofIndex (Int64.ofNat (table.idxOf line))

/-- The line of a table that a rune stands for. -/
def line (table : List Text) (r : Int32) : Text := (table[(index r).toInt.toNat]?).getD []

/-- The runes that are read when runes have been written as a text. -/
def throughText (rs : List Int32) : List Int32 :=
  (Text.runes
    (Text.ofRunes (rs.map fun r => if r < 0 then Rune.replacement else r.toInt.toNat))).map
    fun r => Int32.ofNat r

end LineRune

/-- A line of a diff: what happens to it and its text without the newline. -/
structure DiffLine where
  change : Change
  text : Text
  deriving DecidableEq, Repr

namespace DiffLine

/-- Whether a line is unchanged. -/
def isKept (l : DiffLine) : Bool := l.change = .keep

/-- The lines of a diff with the removals of each run of changes before its additions, given the
removals and additions of the run so far, the last first. -/
def deletesFirstFrom : List DiffLine → List DiffLine → List DiffLine → List DiffLine
  | deleted, inserted, [] => deleted.reverse ++ inserted.reverse
  | deleted, inserted, l :: rest =>
    match l.change with
    | .keep => deleted.reverse ++ inserted.reverse ++ l :: deletesFirstFrom [] [] rest
    | .delete => deletesFirstFrom (l :: deleted) inserted rest
    | .insert => deletesFirstFrom deleted (l :: inserted) rest

/-- The lines of a diff with the removals of each run of changes before its additions. -/
def deletesFirst (ls : List DiffLine) : List DiffLine := deletesFirstFrom [] [] ls

/-- The number of lines of the old text. -/
def oldCount (ls : List DiffLine) : Nat := ls.countP fun l => l.change != .insert

/-- The number of lines of the new text. -/
def newCount (ls : List DiffLine) : Nat := ls.countP fun l => l.change != .delete

/-- The mark in front of a line. -/
def mark (l : DiffLine) : UInt8 :=
  match l.change with
  | .keep => 32
  | .delete => 45
  | .insert => 43

/-- A line as it is printed. -/
def render (l : DiffLine) : Text := l.mark :: l.text ++ [Text.newline]

end DiffLine

end PointerMigration
