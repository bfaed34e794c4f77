/-
# Tidy scripts

A script is tidied in rounds. A round first joins neighbouring parts: between two kept parts at most
one deletion and then one insertion stay, and what these share at their fronts and ends is kept.
Then it shifts a single change over the kept part beside it where that makes the kept part
disappear. Rounds go on while something is shifted.
-/
import PointerMigration.Diff.Script

namespace PointerMigration.Script

variable {α : Type} [DecidableEq α]

/-! ## Joining -/

/-- The changes since the last kept part: what is deleted and what is inserted, in how many parts
each. -/
structure Pending (α : Type) where
  deleted : List α := []
  inserted : List α := []
  deletions : Nat := 0
  insertions : Nat := 0

/-- The script so far, its last part first, with elements kept at its end. -/
def keepMore (done : Script α) (items : List α) : Script α :=
  match done with
  | ⟨.keep, kept⟩ :: rest => ⟨.keep, kept ++ items⟩ :: rest
  | done => ⟨.keep, items⟩ :: done

/-- The parts of pending changes, the last first. -/
def Pending.parts (p : Pending α) : Script α :=
  (if p.insertions = 0 then [] else [⟨.insert, p.inserted⟩]) ++
    (if p.deletions = 0 then [] else [⟨.delete, p.deleted⟩])

/-- The script so far, its last part first, after pending changes and a kept part. What a deletion
and an insertion share is kept. -/
def joinKept (done : Script α) (p : Pending α) (kept : List α) : Script α :=
  if p.deletions + p.insertions = 0 then keepMore done kept
  else if p.deletions = 0 || p.insertions = 0 then ⟨.keep, kept⟩ :: (p.parts ++ done)
  else
    let front := Shared.frontLength p.inserted p.deleted
    let done := if front = 0 then done else keepMore done (p.inserted.take front)
    let inserted := p.inserted.drop front
    let deleted := p.deleted.drop front
    let back := Shared.endLength inserted deleted
    let p := { p with
      inserted := inserted.take (inserted.length - back)
      deleted := deleted.take (deleted.length - back) }
    ⟨.keep, inserted.drop (inserted.length - back) ++ kept⟩ :: (p.parts ++ done)

/-- Joins the parts of a script, given the script so far with its last part first. -/
def joinFrom : Script α → Pending α → Script α → Script α
  | done, p, [] => joinKept done p []
  | done, p, ⟨.insert, items⟩ :: rest =>
    joinFrom done { p with inserted := p.inserted ++ items, insertions := p.insertions + 1 } rest
  | done, p, ⟨.delete, items⟩ :: rest =>
    joinFrom done { p with deleted := p.deleted ++ items, deletions := p.deletions + 1 } rest
  | done, p, ⟨.keep, items⟩ :: rest => joinFrom (joinKept done p items) {} rest

/-- Joins neighbouring parts. -/
def joined (s : Script α) : Script α :=
  match joinFrom [] {} s with
  | ⟨_, []⟩ :: rest => rest.reverse
  | done => done.reverse

/-! ## Shifting -/

/-- Shifts single changes over kept parts; the result says whether any was shifted. -/
def shiftFrom : Nat → Script α → Script α → Bool → Script α × Bool
  | fuel + 1, done, before :: change :: after :: rest, shifted =>
    if before.change = .keep && after.change = .keep then
      if before.items.isSuffixOf change.items then
        let moved := before.items ++ change.items.take (change.items.length - before.items.length)
        shiftFrom fuel ({ change with items := moved } :: done)
          ({ after with items := before.items ++ after.items } :: rest) true
      else if after.items.isPrefixOf change.items then
        let moved := change.items.drop after.items.length ++ after.items
        shiftFrom fuel ({ before with items := before.items ++ after.items } :: done)
          ({ change with items := moved } :: rest) true
      else shiftFrom fuel (before :: done) (change :: after :: rest) shifted
    else shiftFrom fuel (before :: done) (change :: after :: rest) shifted
  | _, done, rest, shifted => (done.reverse ++ rest, shifted)

/-- Shifts single changes over kept parts. -/
def shift (s : Script α) : Script α × Bool := shiftFrom s.length [] s false

/-- Rounds of joining and shifting. -/
def tidyUpTo : Nat → Script α → Script α
  | 0, s => s
  | fuel + 1, s =>
    match shift (joined s) with
    | (s, true) => tidyUpTo fuel s
    | (s, false) => s

/-- A bound on the number of rounds: each one that shifts something has one kept part less, or one
changed element less and at most two kept parts more. -/
def rounds (s : Script α) : Nat := s.foldl (fun n p => n + 3 * p.items.length + 2) 2

/-- A script in tidy form. -/
def tidy (s : Script α) : Script α := tidyUpTo (rounds s) s

end PointerMigration.Script
