/-
# Half matches

Two lists have a half match if they share a part of at least half the length of the longer. Only two
places of the longer list are tried: the shared part must hold a quarter of it that starts there.
-/
import PointerMigration.Diff.Script

namespace PointerMigration

/-- Two lists divided around a part they share. -/
structure HalfMatch (α : Type) where
  firstBefore : List α
  firstAfter : List α
  secondBefore : List α
  secondAfter : List α
  shared : List α
  deriving Repr

namespace HalfMatch

variable {α : Type} [DecidableEq α]

/-- The roles of the two lists exchanged. -/
def swap (m : HalfMatch α) : HalfMatch α :=
  { m with
    firstBefore := m.secondBefore
    firstAfter := m.secondAfter
    secondBefore := m.firstBefore
    secondAfter := m.firstAfter }

/-- The lists divided around the part that they share in both directions from the offset `i` of the
first and the offset `j` of the second. -/
def around (long short : List α) (i j : Nat) : HalfMatch α :=
  let ahead := Shared.frontLength (long.drop i) (short.drop j)
  let behind := Shared.endLength (long.take i) (short.take j)
  { firstBefore := long.take (i - behind)
    firstAfter := long.drop (i + ahead)
    secondBefore := short.take (j - behind)
    secondAfter := short.drop (j + ahead)
    shared := (short.drop (j - behind)).take (behind + ahead) }

/-- The one of two matches that shares more, the first if they share equally much. -/
def longer (m n : HalfMatch α) : HalfMatch α :=
  if m.shared.length < n.shared.length then n else m

/-- The half match that holds the quarter of `long` at the offset `i`. -/
def at? (long short : List α) (i : Nat) : Option (HalfMatch α) :=
  let seed := (long.drop i).take (long.length / 4)
  match (Shared.occurrences seed short).map (around long short i) with
  | [] => none
  | m :: rest =>
    let best := rest.foldl longer m
    if best.shared.length * 2 < long.length then none else some best

/-- The half match of a list with one that is not longer. Of two equally good ones, the later place
of the longer list wins. -/
def ofLonger? (long short : List α) : Option (HalfMatch α) :=
  if long.length < 4 || short.length * 2 < long.length then none
  else
    match at? long short ((long.length + 3) / 4), at? long short ((long.length + 1) / 2) with
    | some m, some n => some (longer n m)
    | some m, none => some m
    | none, n => n

/-- The half match of two lists. -/
def find? (a b : List α) : Option (HalfMatch α) :=
  if b.length < a.length then ofLonger? a b else (ofLonger? b a).map swap

end HalfMatch

end PointerMigration
