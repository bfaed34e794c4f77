/-
# Edit scripts

A script leads from one list to another by parts that are kept, deleted and inserted.
`Script.source` and `Script.target` read the two lists back from it. Scripts are found by what two
lists share at their fronts and at their ends, and by where one list occurs in another.
-/

namespace PointerMigration

/-- What happens to a part of a script. -/
inductive Change where
  | keep
  | delete
  | insert
  deriving DecidableEq, Repr

namespace Script

/-- A part of a script: elements in a row with the same change. -/
structure Part (α : Type) where
  change : Change
  items : List α
  deriving DecidableEq, Repr

end Script

/-- An edit script. -/
abbrev Script (α : Type) := List (Script.Part α)

namespace Script

variable {α : Type}

/-- The list that a script starts from: what it keeps and what it deletes. -/
def source (s : Script α) : List α :=
  s.flatMap fun p => if p.change = .insert then [] else p.items

/-- The list that a script leads to: what it keeps and what it inserts. -/
def target (s : Script α) : List α :=
  s.flatMap fun p => if p.change = .delete then [] else p.items

/-- A script with one part for each element. -/
def flatten (s : Script α) : List (Change × α) :=
  s.flatMap fun p => p.items.map fun x => (p.change, x)

/-- The script that deletes one list and inserts another. -/
def replace (a b : List α) : Script α := [⟨.delete, a⟩, ⟨.insert, b⟩]

end Script

/-! ## Shared parts of two lists -/

namespace Shared

variable {α : Type} [DecidableEq α]

/-- The length of the longest shared front of two lists. -/
def frontLength : List α → List α → Nat
  | a :: s, b :: t => if a = b then frontLength s t + 1 else 0
  | _, _ => 0

/-- The length of the longest shared end of two lists. -/
def endLength (s t : List α) : Nat := frontLength s.reverse t.reverse

/-- The offsets at or after `offset` at which `part` occurs in a list. -/
def occurrencesFrom (part : List α) : Nat → List α → List Nat
  | offset, [] => if part.isEmpty then [offset] else []
  | offset, x :: t =>
    if part.isPrefixOf (x :: t) then offset :: occurrencesFrom part (offset + 1) t
    else occurrencesFrom part (offset + 1) t

/-- The offsets at which `part` occurs in a list, in increasing order. -/
def occurrences (part t : List α) : List Nat := occurrencesFrom part 0 t

end Shared

end PointerMigration
