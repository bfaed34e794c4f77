/-
# Reading a buffer more than once

Reading a buffer sorts its queue, and changes may be queued after that. Nothing is seen of it later:
the sort is stable, so a queue of which a part has been sorted is sorted to what it would have been.
Every call gives the answer that it would give if nothing had been read before.
-/
import PointerMigration.Proofs.Overlap
import PointerMigration.Proofs.StableSort

namespace PointerMigration

namespace Splice

/-- Queues with the same order have the same order with more behind them. -/
theorem inOrder_append_congr {q q' : List Splice} (h : inOrder q = inOrder q')
    (more : List Splice) :
    inOrder (q ++ more) = inOrder (q' ++ more) :=
  mergeSort_append_congr le_total (fun _ _ _ => le_trans) h more

theorem inOrder_inOrder (q : List Splice) : inOrder (inOrder q) = inOrder q :=
  mergeSort_mergeSort le_total (fun _ _ _ => le_trans) q

end Splice

namespace Buffer

/-! ## Calls -/

/-- A call on a buffer. -/
inductive Call where
  | insert (position : Int) (text : Text)
  | delete (start stop : Int)
  | replace (start stop : Int) (text : Text)
  /-- Asks whether changes overlap. -/
  | check
  /-- Reads the text as bytes. -/
  | bytes
  /-- Reads the text as a string. -/
  | string
  deriving DecidableEq, Repr

/-- Whether a call asks for something and queues nothing. -/
def Call.isRead : Call → Bool
  | insert _ _ | delete _ _ | replace _ _ _ => false
  | check | bytes | string => true

/-- How a call ends. -/
inductive Answer where
  | done
  | text (t : Text)
  | error (message : Text)
  /-- The call does not return. -/
  | panic (message : Text)
  deriving DecidableEq, Repr

/-- The answer to a call that queues a change, and the buffer after it. A change that is refused
leaves the buffer as it was. -/
def queueing (b : Buffer) : Option Buffer → Answer × Buffer
  | some changed => (.done, changed)
  | none => (.panic invalidPosition, b)

/-- The answer to the question whether changes overlap. -/
def checked (b : Buffer) : Answer :=
  match b.overlap? with
  | some (x, y) => .error (Splice.overlapMessage x y)
  | none => .done

/-- The answer to a call that reads the text, and the buffer after it. -/
def reading (b : Buffer) : Answer × Buffer :=
  match b.read with
  | (.ok t, sorted) => (.text t, sorted)
  | (.error (x, y), sorted) => (.panic (Splice.overlapMessage x y), sorted)

/-- The answer to a call, and the buffer after it. -/
def call (b : Buffer) : Call → Answer × Buffer
  | .insert position text => b.queueing (b.insert position text)
  | .delete start stop => b.queueing (b.delete start stop)
  | .replace start stop text => b.queueing (b.replace start stop text)
  | .check => (b.checked, b)
  | .bytes => b.reading
  | .string => b.reading

/-- The buffer after some calls. -/
def after (b : Buffer) (calls : List Call) : Buffer := calls.foldl (fun b c => (b.call c).2) b

/-! ## Buffers that cannot be told apart -/

/-- Two buffers have the same text and queues that are sorted alike. -/
structure Alike (b b' : Buffer) : Prop where
  old_eq : b.old = b'.old
  inOrder_eq : Splice.inOrder b.queue = Splice.inOrder b'.queue

namespace Alike

theorem refl (b : Buffer) : Alike b b := ⟨rfl, rfl⟩

variable {b b' : Buffer} (h : Alike b b')

include h

theorem trans {c : Buffer} (h' : Alike b' c) : Alike b c :=
  ⟨h.old_eq.trans h'.old_eq, h.inOrder_eq.trans h'.inOrder_eq⟩

/-- The check of a buffer does not depend on the order of the queue as it was filled. -/
theorem checked_eq : b.checked = b'.checked := by
  unfold checked overlap?
  rw [h.inOrder_eq]

/-- A read gives the same of both, and the same buffer is left. -/
theorem read_eq : b.read = b'.read := by
  unfold read
  rw [h.old_eq, h.inOrder_eq]

theorem reading_eq : b.reading = b'.reading := by
  unfold reading
  rw [h.read_eq]

/-- A change is queued in both or refused in both. -/
theorem queueing_replace (start stop : Int) (text : Text) :
    (b.queueing (b.replace start stop text)).1 = (b'.queueing (b'.replace start stop text)).1 ∧
      Alike (b.queueing (b.replace start stop text)).2
        (b'.queueing (b'.replace start stop text)).2 := by
  unfold replace
  rw [h.old_eq]
  split
  · exact ⟨rfl, h⟩
  · exact ⟨rfl, rfl, Splice.inOrder_append_congr h.inOrder_eq _⟩

/-- **One call.** It is answered alike, and the buffers stay alike. -/
theorem call (c : Call) : (b.call c).1 = (b'.call c).1 ∧ Alike (b.call c).2 (b'.call c).2 := by
  cases c with
  | insert position text => exact h.queueing_replace position position text
  | delete start stop => exact h.queueing_replace start stop []
  | replace start stop text => exact h.queueing_replace start stop text
  | check => exact ⟨h.checked_eq, h⟩
  | bytes | string =>
      show b.reading.1 = b'.reading.1 ∧ Alike b.reading.2 b'.reading.2
      rw [h.reading_eq]
      exact ⟨rfl, refl _⟩

end Alike

/-- Reading a buffer leaves one that is alike. -/
theorem alike_reading (b : Buffer) : Alike b.reading.2 b := by
  have hsorted : b.reading.2 = { b with queue := Splice.inOrder b.queue } := by
    rw [reading, read]
    split
    · next heq => exact (congrArg Prod.snd heq).symm
    · next heq => exact (congrArg Prod.snd heq).symm
  rw [hsorted]
  exact ⟨rfl, Splice.inOrder_inOrder b.queue⟩

/-- A read leaves a buffer that cannot be told from the one before. -/
theorem alike_of_isRead {c : Call} (hc : c.isRead = true) (b : Buffer) : Alike (b.call c).2 b := by
  cases c with
  | insert | delete | replace => cases hc
  | check => exact Alike.refl b
  | bytes | string => exact b.alike_reading

/-- Calls leave a buffer that cannot be told from the one that they leave without the reads. -/
theorem alike_after {b b' : Buffer} (h : Alike b b') (calls : List Call) :
    Alike (b.after calls) (b'.after (calls.filter fun c => !c.isRead)) := by
  induction calls generalizing b b' with
  | nil => exact h
  | cons c calls ih =>
      rw [List.filter_cons]
      cases hc : c.isRead with
      | true => exact ih ((alike_of_isRead hc b).trans h)
      | false => exact ih (h.call c).2

/-- **Reads leave no trace.** After any calls on a buffer, each call gives the answer, be it a text,
an error or a panic, that it gives if all reads before it are left out. -/
theorem answer_without_reads (b : Buffer) (calls : List Call) (c : Call) :
    ((b.after calls).call c).1 = ((b.after (calls.filter fun c => !c.isRead)).call c).1 :=
  ((alike_after (Alike.refl b) calls).call c).1

/-- Insertions at one position stay in order although the first two were sorted behind a third. -/
example : ((({ old := "ab" } : Buffer).after
    [.insert 1 "x", .insert 1 "y", .insert 0 "v", .bytes, .insert 1 "z"]).call .string).1
      = .text (Text.ofString "vaxyzb") := by
  cbv

end Buffer

end PointerMigration
