/-
# Data

The contents of a unit file, whatever its format: a tree of null, truth values, words, texts, lists
and records. A record is a list of entries; a key that is not a text is kept as a gap.
-/
import PointerMigration.Text

namespace PointerMigration

/-- A value in a unit file. -/
inductive Datum where
  | null
  | bool (b : Bool)
  | int (n : Int64)
  | text (t : Text)
  /-- A number that is not a word, or a value of a kind that units do not have. -/
  | foreign
  | list (items : List Datum)
  | record (entries : List (Option Text × Datum))
  deriving Inhabited, Repr

namespace Datum

mutual

/-- The number of levels of a value. -/
def depth : Datum → Nat
  | list items => depthOfItems items + 1
  | record entries => depthOfEntries entries + 1
  | _ => 1

/-- The number of levels of the deepest of some values. -/
def depthOfItems : List Datum → Nat
  | [] => 0
  | d :: rest => max d.depth (depthOfItems rest)

/-- The number of levels of the deepest of the values of some entries. -/
def depthOfEntries : List (Option Text × Datum) → Nat
  | [] => 0
  | (_, d) :: rest => max d.depth (depthOfEntries rest)

end

/-- The record of those entries that have a value. -/
def ofPresent (entries : List (Text × Option Datum)) : Datum :=
  record (entries.filterMap fun (key, value) => value.map fun d => (some key, d))

/-- A text as an entry that is left out if it is empty. -/
def unlessEmpty (t : Text) : Option Datum := if t.isEmpty then none else some (text t)

/-- A truth value as an entry that is left out if it is false. -/
def ifTrue (b : Bool) : Option Datum := if b then some (bool true) else none

end Datum

end PointerMigration
