/-
# Buffers

A text with a queue of changes to it. Every change is given by positions in the text as it was. The
changes are applied in the order of their positions, those at one position in the order in which
they were queued. Reading the result leaves the queue in that order.
-/
import PointerMigration.Text.Decimal

namespace PointerMigration

/-- A text in the place of the bytes from `start` up to `stop`. -/
structure Splice where
  start : Nat
  stop : Nat
  text : Text
  deriving DecidableEq, Repr

namespace Splice

/-- Whether a change comes no later than another in the order of positions. -/
def le (a b : Splice) : Bool := a.start < b.start || (a.start = b.start && a.stop ≤ b.stop)

/-- A change as it is printed. -/
def describe (s : Splice) : Text :=
  "[" ++ Text.ofNat s.start ++ "," ++ Text.ofNat s.stop ++ ")->" ++ Text.quote s.text

/-- Changes in the order of positions; those with equal positions keep their order. -/
def inOrder (q : List Splice) : List Splice := q.mergeSort le

/-- The first two neighbours of which the second starts inside the first. -/
def overlap? : List Splice → Option (Splice × Splice)
  | a :: b :: rest => if b.start < a.stop then some (a, b) else overlap? (b :: rest)
  | _ => none

/-- What is said about two changes that overlap. -/
def overlapMessage (a b : Splice) : Text :=
  "overlapping edits: " ++ a.describe ++ ", " ++ b.describe

/-- Applies changes in order to the rest of a text from `offset`, after the change `last`. -/
def applyFrom : Nat → Option Splice → Text → List Splice → Except (Splice × Splice) Text
  | _, _, rest, [] => .ok rest
  | offset, last, rest, s :: later =>
    if s.start < offset then .error (last.getD s, s)
    else do
      let tail ← applyFrom s.stop (some s) (rest.drop (s.stop - offset)) later
      return rest.take (s.start - offset) ++ s.text ++ tail

/-- Applies changes in order to a text. -/
def apply (old : Text) (q : List Splice) : Except (Splice × Splice) Text := applyFrom 0 none old q

end Splice

/-- A text with a queue of changes. -/
structure Buffer where
  old : Text
  queue : List Splice := []
  deriving DecidableEq, Repr

namespace Buffer

/-- What is said about positions that are not in the text. -/
def invalidPosition : Text := "invalid edit position"

/-- Queues the replacement of a range, which must lie in the text. -/
def replace (b : Buffer) (start stop : Int) (text : Text) : Option Buffer :=
  if stop < start || start < 0 || (b.old.length : Int) < stop then none
  else some { b with queue := b.queue ++ [⟨start.toNat, stop.toNat, text⟩] }

/-- Queues an insertion at a position, which must lie in the text. -/
def insert (b : Buffer) (position : Int) (text : Text) : Option Buffer :=
  b.replace position position text

/-- Queues the deletion of a range, which must lie in the text. -/
def delete (b : Buffer) (start stop : Int) : Option Buffer := b.replace start stop []

/-- The first two queued changes that overlap, in the order of positions. -/
def overlap? (b : Buffer) : Option (Splice × Splice) := Splice.overlap? (Splice.inOrder b.queue)

/-- The text with the queued changes, or two changes that overlap; and the buffer with its queue in
the order of positions. -/
def read (b : Buffer) : Except (Splice × Splice) Text × Buffer :=
  let queue := Splice.inOrder b.queue
  (Splice.apply b.old queue, { b with queue })

end Buffer

end PointerMigration
