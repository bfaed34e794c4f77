/-
# Comparing lists

The script from one list to another. What the lists share at their fronts and ends is kept. If the
shorter of the remaining lists occurs in the longer it is kept as a whole. Otherwise the lists are
divided, around a half match or else in the middle of a shortest script, and the parts are compared.
-/
import PointerMigration.Diff.HalfMatch
import PointerMigration.Diff.Middle
import PointerMigration.Diff.Tidy

namespace PointerMigration.Script

variable {α : Type} [DecidableEq α]

/-- The script that keeps the shorter list at the offset `i` of the longer. -/
def within (a b : List α) (i : Nat) : Script α :=
  if b.length < a.length then
    [⟨.delete, a.take i⟩, ⟨.keep, b⟩, ⟨.delete, a.drop (i + b.length)⟩]
  else [⟨.insert, b.take i⟩, ⟨.keep, a⟩, ⟨.insert, b.drop (i + a.length)⟩]

/-- The script between two lists with nothing in common at their fronts and ends; parts of them are
compared with `compare`. -/
def middle (compare : List α → List α → Script α) (a b : List α) : Script α :=
  if a.isEmpty then [⟨.insert, b⟩]
  else if b.isEmpty then [⟨.delete, a⟩]
  else
    let (long, short) := if b.length < a.length then (a, b) else (b, a)
    match Shared.occurrences short long with
    | i :: _ => within a b i
    | [] =>
      if short.length = 1 then replace a b
      else
        match HalfMatch.find? a b with
        | some m =>
          compare m.firstBefore m.secondBefore ++
            ⟨.keep, m.shared⟩ :: compare m.firstAfter m.secondAfter
        | none =>
          match Middle.find? a b with
          | some (x, y) => compare (a.take x) (b.take y) ++ compare (a.drop x) (b.drop y)
          | none => replace a b

/-- A kept part, unless it is empty. -/
def kept (items : List α) : Script α := if items.isEmpty then [] else [⟨.keep, items⟩]

/-- Compares two lists, dividing them at most `fuel` times in a row. -/
def compareUpTo : Nat → List α → List α → Script α
  | 0, a, b => replace a b
  | fuel + 1, a, b =>
    if a = b then kept a
    else
      let front := Shared.frontLength a b
      let a' := a.drop front
      let b' := b.drop front
      let back := Shared.endLength a' b'
      tidy (kept (a.take front) ++
        middle (compareUpTo fuel) (a'.take (a'.length - back)) (b'.take (b'.length - back)) ++
        kept (a'.drop (a'.length - back)))

/-- The script from one list to another. -/
def compare (a b : List α) : Script α := compareUpTo (a.length + b.length + 1) a b

end PointerMigration.Script
