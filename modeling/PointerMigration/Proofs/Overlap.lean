/-
# Overlaps

Replacements that overlap are refused twice: when they are written, by comparing every two of
them, and when they are applied, by comparing neighbours in the order of positions. The two
checks agree, and both say whether two of the replacements have ranges that conflict. The
order matters to neither.
-/
import PointerMigration.Edit.Buffer
import PointerMigration.Edit.Replacement
import Mathlib.Algebra.Ring.Nat
import Mathlib.Tactic.Push
import Mathlib.Tactic.Set

namespace PointerMigration

/-! ## Changes in the order of positions -/

namespace Splice

/-- Each of two changes starts before the other one stops. -/
def Conflicts (a b : Splice) : Prop := a.start < b.stop ∧ b.start < a.stop

theorem Conflicts.symm {a b : Splice} (h : Conflicts a b) : Conflicts b a := ⟨h.2, h.1⟩

/-- The order of positions in arithmetic. -/
theorem le_iff (a b : Splice) :
    a.le b = true ↔ a.start < b.start ∨ (a.start = b.start ∧ a.stop ≤ b.stop) := by
  simp [le]

theorem le_trans {a b c : Splice} (hab : a.le b = true) (hbc : b.le c = true) :
    a.le c = true := by
  rw [le_iff] at hab hbc ⊢
  omega

theorem le_total (a b : Splice) : (a.le b || b.le a) = true := by
  rw [Bool.or_eq_true, le_iff, le_iff]
  omega

theorem pairwise_inOrder (q : List Splice) :
    (inOrder q).Pairwise fun a b => a.le b = true := by
  unfold inOrder
  apply List.pairwise_mergeSort
  · intro a b c hab hbc
    exact le_trans hab hbc
  · exact le_total

/-- Of two ranges in order, the first stops before the second starts unless they conflict. -/
theorem not_conflicts_iff {a b : Splice} (hb : b.start ≤ b.stop) (h : a.le b = true) :
    ¬ Conflicts a b ↔ a.stop ≤ b.start := by
  rw [le_iff] at h
  unfold Conflicts
  omega

theorem overlap?_cons_cons (a b : Splice) (rest : List Splice) :
    overlap? (a :: b :: rest) = if b.start < a.stop then some (a, b) else overlap? (b :: rest) :=
  rfl

/-- Comparing neighbours is enough for ranges in order. -/
theorem overlap?_eq_none_iff {q : List Splice} (hrange : ∀ s ∈ q, s.start ≤ s.stop)
    (horder : q.Pairwise fun a b => a.le b = true) :
    overlap? q = none ↔ q.Pairwise fun a b => ¬ Conflicts a b := by
  induction q with
  | nil => simp [overlap?]
  | cons a q ih =>
      cases q with
      | nil => simp [overlap?]
      | cons b rest =>
          have hb : b.start ≤ b.stop := hrange b (by simp)
          obtain ⟨hfirst, hlater⟩ := List.pairwise_cons.mp horder
          have hab : ¬ Conflicts a b ↔ a.stop ≤ b.start :=
            not_conflicts_iff hb (hfirst b (by simp))
          have ih' := ih (fun s hs => hrange s (List.mem_cons_of_mem a hs)) hlater
          rw [List.pairwise_cons, ← ih', overlap?_cons_cons]
          by_cases hlt : b.start < a.stop
          · rw [if_pos hlt]
            constructor
            · intro h
              cases h
            · intro h
              exact absurd (hab.mp (h.1 b (by simp))) (by omega)
          · rw [if_neg hlt]
            refine ⟨fun h => ⟨fun c hc => ?_, h⟩, fun h => h.2⟩
            -- Whatever comes later starts no earlier than the neighbour does.
            have hc' : c.start ≤ c.stop := hrange c (List.mem_cons_of_mem a hc)
            rw [not_conflicts_iff hc' (hfirst c hc)]
            rcases List.mem_cons.mp hc with rfl | hc
            · omega
            · have hbc := (List.pairwise_cons.mp hlater).1 c hc
              rw [le_iff] at hbc
              omega

/-- The check after sorting finds an overlap exactly when two changes conflict. -/
theorem overlap?_inOrder_eq_none_iff {q : List Splice} (hrange : ∀ s ∈ q, s.start ≤ s.stop) :
    overlap? (inOrder q) = none ↔ q.Pairwise fun a b => ¬ Conflicts a b := by
  have hperm : (inOrder q).Perm q := List.mergeSort_perm q le
  rw [overlap?_eq_none_iff (fun s hs => hrange s (hperm.mem_iff.mp hs)) (pairwise_inOrder q)]
  exact hperm.pairwise_iff fun h h' => h h'.symm

/-! ## Applying changes -/

/-- The two changes at which applying stops. -/
def collision? : Except (Splice × Splice) Text → Option (Splice × Splice)
  | .ok _ => none
  | .error p => some p

/-- After a change, applying stops at the first two neighbours that overlap. -/
theorem collision?_applyFrom (a : Splice) (rest : Text) (q : List Splice) :
    collision? (applyFrom a.stop (some a) rest q) = overlap? (a :: q) := by
  induction q generalizing a rest with
  | nil => simp [applyFrom, overlap?, collision?]
  | cons b q ih =>
      rw [applyFrom, overlap?_cons_cons]
      by_cases hlt : b.start < a.stop
      · rw [if_pos hlt, if_pos hlt]
        rfl
      · rw [if_neg hlt, if_neg hlt, ← ih b (rest.drop (b.stop - a.stop))]
        cases applyFrom b.stop (some b) (rest.drop (b.stop - a.stop)) q with
        | ok tail => rfl
        | error p => rfl

/-- Applying changes to a text stops where the check of neighbours does. -/
theorem collision?_apply (old : Text) (q : List Splice) :
    collision? (apply old q) = overlap? q := by
  cases q with
  | nil => simp [apply, applyFrom, overlap?, collision?]
  | cons a q =>
      rw [← collision?_applyFrom a (old.drop a.stop) q]
      unfold apply
      rw [applyFrom, if_neg (Nat.not_lt_zero _), Nat.sub_zero]
      cases applyFrom a.stop (some a) (old.drop a.stop) q with
      | ok tail => rfl
      | error p => rfl

end Splice

/-! ## Replacements as changes -/

namespace Replacement

/-- A replacement of bytes that a text has. -/
structure Within (r : Replacement) (old : Text) : Prop where
  offset_nonneg : 0 ≤ r.offset
  length_nonneg : 0 ≤ r.length
  stop_le : r.offset.toInt + r.length.toInt ≤ old.length

/-- The change that a replacement asks for. -/
def splice (r : Replacement) : Splice := ⟨r.offset.toInt.toNat, r.stop.toInt.toNat, r.text⟩

theorem Within.toInt_nonneg {r : Replacement} {old : Text} (h : r.Within old) :
    0 ≤ r.offset.toInt ∧ 0 ≤ r.length.toInt := by
  have hoffset := Int64.le_iff_toInt_le.mp h.offset_nonneg
  have hlength := Int64.le_iff_toInt_le.mp h.length_nonneg
  rw [Int64.toInt_zero] at hoffset hlength
  exact ⟨hoffset, hlength⟩

/-- In a text whose positions are words, the offset past a replacement does not wrap around. -/
theorem Within.toInt_stop {r : Replacement} {old : Text} (h : r.Within old)
    (hold : old.length < 2 ^ 63) : r.stop.toInt = r.offset.toInt + r.length.toInt := by
  have hnonneg := h.toInt_nonneg
  have hstop := h.stop_le
  rw [stop, Int64.toInt_add]
  apply Int.bmod_eq_of_le <;> omega

/-- An insertion inside a range also starts before the range stops, so the ranges decide alone. -/
theorem overlaps_iff (r s : Replacement) :
    r.overlaps s = true ↔ r.offset < s.stop ∧ s.offset < r.stop := by
  have inside : ∀ a b : Replacement, a.insertsInside b = true →
      a.offset < b.stop ∧ b.offset < a.stop := by
    intro a b h
    simp only [insertsInside, Bool.and_eq_true, decide_eq_true_eq] at h
    obtain ⟨⟨hlength, hafter⟩, hbefore⟩ := h
    refine ⟨hbefore, ?_⟩
    rw [stop, hlength, Int64.add_zero]
    exact hafter
  simp only [overlaps, Bool.or_eq_true, Bool.and_eq_true, decide_eq_true_eq]
  constructor
  · rintro ((h | h) | h)
    · exact h
    · exact inside r s h
    · exact (inside s r h).symm
  · intro h
    exact Or.inl (Or.inl h)

/-- The check of every two replacements. -/
theorem overlap?_eq_none_iff (rs : List Replacement) :
    overlap? rs = none ↔ rs.Pairwise fun r s => ¬ (r.offset < s.stop ∧ s.offset < r.stop) := by
  induction rs with
  | nil => simp [overlap?]
  | cons r rest ih =>
      rw [overlap?, List.pairwise_cons, ← ih]
      cases hfind : rest.find? r.overlaps with
      | some s =>
          have hs : r.overlaps s = true := List.find?_some hfind
          constructor
          · intro h
            cases h
          · intro h
            exact absurd ((overlaps_iff r s).mp hs) (h.1 s (List.mem_of_find?_eq_some hfind))
      | none =>
          refine ⟨fun h => ⟨fun s hs hrs => ?_, h⟩, fun h => h.2⟩
          exact List.find?_eq_none.mp hfind s hs ((overlaps_iff r s).mpr hrs)

theorem Within.splice_start_le {r : Replacement} {old : Text} (h : r.Within old)
    (hold : old.length < 2 ^ 63) : r.splice.start ≤ r.splice.stop := by
  have hnonneg := h.toInt_nonneg
  show r.offset.toInt.toNat ≤ r.stop.toInt.toNat
  rw [h.toInt_stop hold]
  omega

/-- Replacements within a text conflict as changes exactly when they do as replacements. -/
theorem Within.conflicts_splice_iff {r s : Replacement} {old : Text} (hr : r.Within old)
    (hs : s.Within old) (hold : old.length < 2 ^ 63) :
    r.splice.Conflicts s.splice ↔ r.offset < s.stop ∧ s.offset < r.stop := by
  have hr' := hr.toInt_nonneg
  have hs' := hs.toInt_nonneg
  rw [Int64.lt_iff_toInt_lt, Int64.lt_iff_toInt_lt]
  show r.offset.toInt.toNat < s.stop.toInt.toNat ∧ s.offset.toInt.toNat < r.stop.toInt.toNat ↔ _
  rw [hr.toInt_stop hold, hs.toInt_stop hold]
  omega

/-- Whether changes conflict does not depend on the order in which the replacements were queued. -/
theorem pairwise_splice_iff {rs queued : List Replacement} {old : Text}
    (hold : old.length < 2 ^ 63) (hwithin : ∀ r ∈ queued, r.Within old) (hqueued : queued.Perm rs) :
    ((queued.map splice).Pairwise fun a b => ¬ a.Conflicts b) ↔
      rs.Pairwise fun r s => ¬ (r.offset < s.stop ∧ s.offset < r.stop) := by
  rw [List.pairwise_map, List.Pairwise.iff_of_mem fun hr hs =>
    not_congr ((hwithin _ hr).conflicts_splice_iff (hwithin _ hs) hold)]
  exact hqueued.pairwise_iff fun h h' => h h'.symm

/-- A pair is reported exactly when two positions hold replacements with ranges that conflict. -/
theorem isSome_overlap?_iff (rs : List Replacement) :
    (overlap? rs).isSome ↔ ∃ (i j : Nat) (r s : Replacement), i < j ∧ rs[i]? = some r ∧
      rs[j]? = some s ∧ r.offset < s.stop ∧ s.offset < r.stop := by
  rw [Option.isSome_iff_ne_none, ne_eq, overlap?_eq_none_iff, List.pairwise_iff_getElem]
  constructor
  · intro h
    push Not at h
    obtain ⟨i, j, hi, hj, hij, hconflict⟩ := h
    exact ⟨i, j, rs[i], rs[j], hij, List.getElem?_eq_getElem hi, List.getElem?_eq_getElem hj,
      hconflict⟩
  · rintro ⟨i, j, r, s, hij, hr, hs, hconflict⟩ h
    obtain ⟨hi, rfl⟩ := List.getElem?_eq_some_iff.mp hr
    obtain ⟨hj, rfl⟩ := List.getElem?_eq_some_iff.mp hs
    exact h i j hi hj hij hconflict

end Replacement

/-! ## The two checks -/

namespace Buffer

/-- Queues replacements in order; all of them must lie in the text. -/
def queueAll (b : Buffer) (rs : List Replacement) : Option Buffer :=
  rs.foldlM (fun b r => b.replace r.offset.toInt r.stop.toInt r.text) b

/-- What the check of a buffer says, if it finds an overlap. -/
def checkMessage? (b : Buffer) : Option Text :=
  b.overlap?.map fun (x, y) => Splice.overlapMessage x y

/-- What is said when the text with the queued changes cannot be made. -/
def readMessage? (b : Buffer) : Option Text :=
  (Splice.collision? b.read.1).map fun (x, y) => Splice.overlapMessage x y

/-- Reading a buffer fails exactly when its check does, and says the same. -/
theorem readMessage?_eq (b : Buffer) : b.readMessage? = b.checkMessage? := by
  rw [readMessage?, checkMessage?, read, Splice.collision?_apply, overlap?]

/-- Replacements within the text can be queued. -/
theorem queueAll_eq (b : Buffer) (rs : List Replacement) (hold : b.old.length < 2 ^ 63)
    (hwithin : ∀ r ∈ rs, r.Within b.old) :
    b.queueAll rs = some { b with queue := b.queue ++ rs.map Replacement.splice } := by
  induction rs generalizing b with
  | nil => simp [queueAll]
  | cons r rest ih =>
      have hr : r.Within b.old := hwithin r (by simp)
      have hnonneg := hr.toInt_nonneg
      have hstop := hr.stop_le
      have hone : b.replace r.offset.toInt r.stop.toInt r.text
          = some { b with queue := b.queue ++ [r.splice] } := by
        rw [replace, if_neg, Replacement.splice]
        rw [hr.toInt_stop hold]
        simp only [Bool.or_eq_true, decide_eq_true_eq]
        omega
      have hrest := ih { b with queue := b.queue ++ [r.splice] } hold
        (fun s hs => hwithin s (List.mem_cons_of_mem r hs))
      rw [queueAll, List.foldlM_cons, hone]
      show queueAll _ rest = _
      rw [hrest]
      simp

end Buffer

/-- **The checks agree.** For replacements within a text, queued in any order: the check of every
two replacements reports a pair exactly when the check of the buffer fails, exactly when reading the
buffer fails, exactly when two of them have ranges that conflict. Both failures say the same. -/
theorem overlap_checks_agree (old : Text) (rs queued : List Replacement)
    (hold : old.length < 2 ^ 63) (hwithin : ∀ r ∈ rs, r.Within old) (hqueued : queued.Perm rs) :
    ∃ b, Buffer.queueAll { old } queued = some b ∧
      ((Replacement.overlap? rs).isSome ↔ b.checkMessage?.isSome) ∧
      (b.checkMessage?.isSome ↔ b.readMessage?.isSome) ∧
      (b.readMessage?.isSome ↔ ∃ (i j : Nat) (r s : Replacement), i < j ∧ rs[i]? = some r ∧
        rs[j]? = some s ∧ r.offset < s.stop ∧ s.offset < r.stop) ∧
      ∀ message, b.checkMessage? = some message → b.readMessage? = some message := by
  have hwithin' : ∀ r ∈ queued, r.Within old := fun r hr => hwithin r (hqueued.mem_iff.mp hr)
  refine ⟨_, Buffer.queueAll_eq { old } queued hold hwithin', ?_⟩
  set b : Buffer := { old, queue := [] ++ queued.map Replacement.splice }
  have hrange : ∀ s ∈ queued.map Replacement.splice, s.start ≤ s.stop := by
    intro s hs
    obtain ⟨r, hr, rfl⟩ := List.mem_map.mp hs
    exact (hwithin' r hr).splice_start_le hold
  have hnone : Replacement.overlap? rs = none ↔ b.overlap? = none := by
    rw [Replacement.overlap?_eq_none_iff,
      ← Replacement.pairwise_splice_iff hold hwithin' hqueued,
      ← Splice.overlap?_inOrder_eq_none_iff hrange]
    rfl
  have hsome : (Replacement.overlap? rs).isSome ↔ b.checkMessage?.isSome := by
    rw [Buffer.checkMessage?, Option.isSome_map, Option.isSome_iff_ne_none,
      Option.isSome_iff_ne_none, ne_eq, ne_eq, hnone]
  rw [Buffer.readMessage?_eq]
  exact ⟨hsome, Iff.rfl, hsome.symm.trans (Replacement.isSome_overlap?_iff rs), fun _ h => h⟩

/-- An insertion inside a replaced range, queued before the range, is refused by both checks. -/
theorem overlap_checks_agree_insertion :
    ∃ b, Buffer.queueAll { old := "abcd" }
        [{ offset := 2, text := "x" }, { offset := 1, length := 2 }] = some b ∧
      (Replacement.overlap? [{ offset := 1, length := 2 }, { offset := 2, text := "x" }]).isSome ∧
      b.checkMessage?.isSome ∧ b.readMessage? = b.checkMessage? := by
  obtain ⟨b, hqueued, hsome, -, -, hsame⟩ := overlap_checks_agree "abcd"
    [{ offset := 1, length := 2 }, { offset := 2, text := "x" }]
    [{ offset := 2, text := "x" }, { offset := 1, length := 2 }] (by decide)
    (by
      intro r hr
      simp only [List.mem_cons, List.not_mem_nil, or_false] at hr
      rcases hr with rfl | rfl
      · exact ⟨by decide, by decide, by decide⟩
      · exact ⟨by decide, by decide, by decide⟩)
    (List.Perm.swap _ _ _)
  have hpair : (Replacement.overlap?
      [{ offset := 1, length := 2 }, { offset := 2, text := "x" }]).isSome := by decide
  obtain ⟨message, hmessage⟩ := Option.isSome_iff_exists.mp (hsome.mp hpair)
  exact ⟨b, hqueued, hpair, hsome.mp hpair, by rw [hmessage, hsame message hmessage]⟩

end PointerMigration
