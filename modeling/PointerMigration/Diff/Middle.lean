/-
# The middle of a shortest script

Shortest scripts between two lists are paths through a grid. Paths are grown from both corners at
once, a change at a time; where they first meet, the lists are divided in two. A path is known by
its diagonal, the number of elements it has taken of the first list less that of the second.
-/

namespace PointerMigration.Middle

variable {α : Type} [DecidableEq α]

/-- How far the paths from one corner have come: for each diagonal the number of elements taken of
the first list, stored from the diagonal `-offset` on and -1 where there is none yet, and how many
diagonals have left the grid at either end. -/
structure Paths where
  reach : Array Int
  leftLow : Int := 0
  leftHigh : Int := 0

namespace Paths

/-- Paths that have not set out; the entry beside the first diagonal starts them. -/
def start (offset : Nat) : Paths :=
  { reach := (Array.replicate (2 * offset) (-1)).setIfInBounds (offset + 1) 0 }

/-- How far the path on a diagonal has come. -/
def on (p : Paths) (offset : Nat) (k : Int) : Int :=
  if 0 ≤ offset + k then p.reach.getD (offset + k).toNat (-1) else -1

/-- The paths after the one on a diagonal has come to `x`. -/
def advance (p : Paths) (offset : Nat) (k x : Int) : Paths :=
  { p with reach := p.reach.setIfInBounds (offset + k).toNat x }

end Paths

/-- Takes equal elements of both lists for as long as there are any. -/
def slide (a b : Array α) : Nat → Int → Int → Int
  | 0, x, _ => x
  | fuel + 1, x, y =>
    if 0 ≤ x && 0 ≤ y && x < a.size && y < b.size && a[x.toNat]? = b[y.toNat]? then
      slide a b fuel (x + 1) (y + 1)
    else x

/-- How far the path on the diagonal `k` comes with `d` changes. -/
def furthest (a b : Array α) (offset : Nat) (p : Paths) (d k : Int) : Int :=
  let x :=
    if k = -d || (k != d && p.on offset (k - 1) < p.on offset (k + 1)) then p.on offset (k + 1)
    else p.on offset (k - 1) + 1
  slide a b (a.size + 1) x (x - k)

/-- Grows the paths from one corner by one change, diagonal by diagonal from `k` on. The function
`meets` says where a path meets one from the other corner. -/
def grow (a b : Array α) (offset : Nat) (meets : Int → Int → Option (Nat × Nat)) (d : Int) :
    Nat → Int → Paths → Paths × Option (Nat × Nat)
  | 0, _, p => (p, none)
  | fuel + 1, k, p =>
    if d - p.leftHigh < k then (p, none)
    else
      let x := furthest a b offset p d k
      let p := p.advance offset k x
      if a.size < x then grow a b offset meets d fuel (k + 2) { p with leftHigh := p.leftHigh + 2 }
      else if b.size < x - k then
        grow a b offset meets d fuel (k + 2) { p with leftLow := p.leftLow + 2 }
      else
        match meets k x with
        | some place => (p, some place)
        | none => grow a b offset meets d fuel (k + 2) p

/-- Where the path from the first corner, on the diagonal `k` at `x`, meets one from the other. -/
def meetsBack (n m offset : Nat) (back : Paths) (k x : Int) : Option (Nat × Nat) :=
  let delta : Int := n - m
  let y := back.on offset (delta - k)
  if y != -1 && n - y ≤ x then some (x.toNat, (x - k).toNat) else none

/-- Where the path from the last corner, on the diagonal `k` at `x`, meets one from the other. -/
def meetsFront (n m offset : Nat) (front : Paths) (k x : Int) : Option (Nat × Nat) :=
  let delta : Int := n - m
  let y := front.on offset (delta - k)
  if y != -1 && n - x ≤ y then some (y.toNat, (y - (delta - k)).toNat) else none

/-- Grows the paths from both corners in turn, from `d` changes on. If the lengths of the
lists differ by an odd number, paths meet when the first corner's are grown, and otherwise
when the last corner's are. -/
def meet (a b aBack bBack : Array α) (offset : Nat) :
    Nat → Int → Paths → Paths → Option (Nat × Nat)
  | 0, _, _, _ => none
  | fuel + 1, d, front, back =>
    let odd := (a.size + b.size) % 2 = 1
    let size := 2 * offset + 1
    let found := if odd then meetsBack a.size b.size offset back else fun _ _ => none
    match grow a b offset found d size (-d + front.leftLow) front with
    | (_, some place) => some place
    | (front, none) =>
      let found := if odd then fun _ _ => none else meetsFront a.size b.size offset front
      match grow aBack bBack offset found d size (-d + back.leftLow) back with
      | (_, some place) => some place
      | (back, none) => meet a b aBack bBack offset fuel (d + 1) front back

/-- Where to divide two lists so that shortest scripts of the parts make a shortest
script of the whole, as a number of elements of each. There is no such place if the lists
have nothing in common. -/
def find? (a b : List α) : Option (Nat × Nat) :=
  let offset := (a.length + b.length + 1) / 2
  meet a.toArray b.toArray a.reverse.toArray b.reverse.toArray offset offset 0
    (Paths.start offset) (Paths.start offset)

end PointerMigration.Middle
