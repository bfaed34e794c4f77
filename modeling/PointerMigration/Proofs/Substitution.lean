/-
# Substitution

What a queue of changes makes of a text can be said in three ways. The buffer copies the text
once from left to right and puts the changes in. Changes can be made one at a time, the last
first, so that the positions of the others stay right. And each position of the old text can be
looked at on its own: the insertions there in the order in which they were queued, the
replacement that starts there, and the byte if no range has it. All three agree for changes that
lie in the text and do not conflict.
-/
import PointerMigration.Proofs.Overlap
import PointerMigration.Proofs.StableSort
import Mathlib.Data.List.Basic

namespace PointerMigration

namespace Splice

/-! ## Changes one behind another -/

/-- No two changes conflict. -/
def Apart (q : List Splice) : Prop := q.Pairwise fun a b => ¬ Conflicts a b

instance (a b : Splice) : Decidable (Conflicts a b) := inferInstanceAs (Decidable (_ ∧ _))

instance (q : List Splice) : Decidable (Apart q) :=
  inferInstanceAs (Decidable (q.Pairwise fun a b => ¬ Conflicts a b))

/-- A change of a range that a text has. -/
def Fits (s : Splice) (old : Text) : Prop := s.start ≤ s.stop ∧ s.stop ≤ old.length

/-- Changes that come one behind another in a text, from a position on. -/
def Successive (old : Text) : Nat → List Splice → Prop
  | offset, [] => offset ≤ old.length
  | offset, s :: later => offset ≤ s.start ∧ s.Fits old ∧ Successive old s.stop later

/-- All of the changes start at the position or behind it. -/
theorem Successive.le_start {old : Text} {offset : Nat} {q : List Splice}
    (h : Successive old offset q) : ∀ s ∈ q, offset ≤ s.start := by
  induction q generalizing offset with
  | nil =>
      intro s hs
      cases hs
  | cons a later ih =>
      obtain ⟨hoffset, hfits, hlater⟩ := h
      intro s hs
      rcases List.mem_cons.mp hs with rfl | hs
      · exact hoffset
      · have := ih hlater s hs
        have := hfits.1
        omega

/-- Changes that fit, are in order and do not conflict come one behind another. -/
theorem successive_of_pairwise {old : Text} {offset : Nat} {q : List Splice}
    (hoffset : offset ≤ old.length) (hstart : ∀ s ∈ q, offset ≤ s.start)
    (hfits : ∀ s ∈ q, s.Fits old) (horder : q.Pairwise fun a b => a.le b = true)
    (hapart : Apart q) : Successive old offset q := by
  induction q generalizing offset with
  | nil => exact hoffset
  | cons a later ih =>
      obtain ⟨hfirst, horder⟩ := List.pairwise_cons.mp horder
      obtain ⟨hconflict, hapart⟩ := List.pairwise_cons.mp hapart
      refine ⟨hstart a (by simp), hfits a (by simp), ?_⟩
      apply ih (hfits a (by simp)).2 _ (fun s hs => hfits s (List.mem_cons_of_mem a hs))
        horder hapart
      intro s hs
      have hs' := hfits s (List.mem_cons_of_mem a hs)
      exact (not_conflicts_iff hs'.1 (hfirst s hs)).mp (hconflict s hs)

/-- Sorting changes that do not conflict puts them one behind another. -/
theorem successive_inOrder {old : Text} {q : List Splice} (hfits : ∀ s ∈ q, s.Fits old)
    (hapart : Apart q) : Successive old 0 (inOrder q) := by
  have hperm : (inOrder q).Perm q := List.mergeSort_perm q le
  apply successive_of_pairwise (Nat.zero_le _) (fun _ _ => Nat.zero_le _)
  · intro s hs
    exact hfits s (hperm.mem_iff.mp hs)
  · exact pairwise_inOrder q
  · exact (hperm.pairwise_iff fun h h' => h h'.symm).mpr hapart

/-! ## One change at a time -/

/-- A text with one change made. -/
def put (s : Splice) (t : Text) : Text := t.take s.start ++ s.text ++ t.drop s.stop

/-- A text with changes made one at a time, the last of them first. -/
def putAll (q : List Splice) (t : Text) : Text := q.foldr put t

theorem putAll_cons (s : Splice) (q : List Splice) (t : Text) :
    putAll (s :: q) t = (putAll q t).take s.start ++ s.text ++ (putAll q t).drop s.stop := rfl

/-- A change that fits has the text before it. -/
theorem Fits.le_length_take {s : Splice} {old : Text} {offset : Nat} (hfits : s.Fits old)
    (hoffset : offset ≤ s.start) : offset ≤ (old.take s.start).length := by
  have := hfits.1
  have := hfits.2
  rw [List.length_take]
  omega

/-- Changes leave the text before them as it is. -/
theorem Successive.take_putAll {old : Text} {offset n : Nat} {q : List Splice}
    (h : Successive old offset q) (hn : n ≤ offset) : (putAll q old).take n = old.take n := by
  induction q generalizing offset n with
  | nil => rfl
  | cons s later ih =>
      obtain ⟨hoffset, hfits, hlater⟩ := h
      have hn' : n ≤ s.start := Nat.le_trans hn hoffset
      rw [putAll_cons, ih hlater hfits.1, List.append_assoc,
        List.take_append_of_le_length (hfits.le_length_take hn'), List.take_take,
        Nat.min_eq_left hn']

/-- From a position on, the text up to the first change, the change, and the others behind it. -/
theorem Successive.drop_putAll_cons {old : Text} {offset : Nat} {s : Splice} {later : List Splice}
    (h : Successive old offset (s :: later)) :
    (putAll (s :: later) old).drop offset
      = (old.drop offset).take (s.start - offset) ++ s.text ++ (putAll later old).drop s.stop := by
  obtain ⟨hoffset, hfits, hlater⟩ := h
  rw [putAll_cons, hlater.take_putAll hfits.1, List.append_assoc, List.append_assoc,
    List.drop_append_of_le_length (hfits.le_length_take hoffset), List.drop_take]

/-- Copying the text with the changes put in is the same as making them one at a time. -/
theorem Successive.applyFrom_eq {old : Text} {offset : Nat} {q : List Splice}
    (h : Successive old offset q) (last : Option Splice) :
    applyFrom offset last (old.drop offset) q = .ok ((putAll q old).drop offset) := by
  induction q generalizing offset last with
  | nil => rfl
  | cons s later ih =>
      rw [h.drop_putAll_cons]
      obtain ⟨hoffset, hfits, hlater⟩ := h
      have hstop : offset + (s.stop - offset) = s.stop := by
        have := hfits.1
        omega
      rw [applyFrom, if_neg (Nat.not_lt.mpr hoffset), List.drop_drop, hstop, ih hlater (some s)]
      rfl

/-- Applying changes that come one behind another makes them one at a time. -/
theorem Successive.apply_eq {old : Text} {q : List Splice} (h : Successive old 0 q) :
    apply old q = .ok (putAll q old) :=
  h.applyFrom_eq none

/-! ## Each position on its own -/

/-- The changes that insert at a position. -/
def insertionsAt (q : List Splice) (i : Nat) : List Splice :=
  q.filter fun s => s.start = i && s.stop = i

/-- The changes that replace a range from a position on. -/
def replacementsAt (q : List Splice) (i : Nat) : List Splice :=
  q.filter fun s => s.start = i && decide (i < s.stop)

/-- Whether the byte at a position is in no replaced range. -/
def keeps (q : List Splice) (i : Nat) : Bool :=
  q.all fun s => decide (i < s.start) || decide (s.stop ≤ i)

/-- What stands in the place of a position: the insertions in the order in which they were queued,
the replacement that starts there, and the byte if it is kept. -/
def textAt (old : Text) (q : List Splice) (i : Nat) : Text :=
  (insertionsAt q i).flatMap text ++ (replacementsAt q i).flatMap text ++
    if keeps q i then old[i]?.toList else []

/-- A text with all changes made at once, position by position up to the end of the text. -/
def substituted (old : Text) (q : List Splice) : Text :=
  (List.range (old.length + 1)).flatMap (textAt old q)

/-- Where no change starts, the byte stands unless a range has it. -/
theorem textAt_of_start_ne {q : List Splice} {i : Nat} (h : ∀ s ∈ q, s.start ≠ i) (old : Text) :
    textAt old q i = if keeps q i then old[i]?.toList else [] := by
  have hinsertions : insertionsAt q i = [] := by
    rw [insertionsAt, List.filter_eq_nil_iff]
    intro s hs
    simp [h s hs]
  have hreplacements : replacementsAt q i = [] := by
    rw [replacementsAt, List.filter_eq_nil_iff]
    intro s hs
    simp [h s hs]
  rw [textAt, hinsertions, hreplacements]
  rfl

/-- Before all changes a text stays as it is. -/
theorem textAt_of_lt {q : List Splice} {i : Nat} (h : ∀ s ∈ q, i < s.start) (old : Text) :
    textAt old q i = old[i]?.toList := by
  have hkeeps : keeps q i = true := by
    rw [keeps, List.all_eq_true]
    intro s hs
    simp [h s hs]
  rw [textAt_of_start_ne (fun s hs => Nat.ne_of_gt (h s hs)), if_pos hkeeps]

/-- A byte of a replaced range is not kept. -/
theorem keeps_cons_inside {s : Splice} {i : Nat} (hstart : s.start ≤ i) (hstop : i < s.stop)
    (q : List Splice) : keeps (s :: q) i = false := by
  rw [keeps, List.all_cons, decide_eq_false (Nat.not_lt.mpr hstart),
    decide_eq_false (Nat.not_le.mpr hstop)]
  rfl

/-- Behind a change only the others matter. -/
theorem textAt_cons_of_stop_le {s : Splice} {i : Nat} (hstart : s.start < i) (hstop : s.stop ≤ i)
    (old : Text) (q : List Splice) : textAt old (s :: q) i = textAt old q i := by
  simp [textAt, insertionsAt, replacementsAt, keeps, Nat.ne_of_lt hstart, hstop]

/-- An insertion comes before what else stands at its position. -/
theorem textAt_cons_insertion {s : Splice} (h : s.stop = s.start) (old : Text) (q : List Splice) :
    textAt old (s :: q) s.start = s.text ++ textAt old q s.start := by
  simp [textAt, insertionsAt, replacementsAt, keeps, h]

section

variable {s : Splice} {q : List Splice} (hlater : ∀ x ∈ q, s.stop ≤ x.start) (old : Text)

include hlater

/-- A replacement stands where its range starts, if the others come behind the range. -/
theorem textAt_cons_replacement (h : s.start < s.stop) : textAt old (s :: q) s.start = s.text := by
  have hothers : ∀ x ∈ q, x.start ≠ s.start := by
    intro x hx
    have := hlater x hx
    omega
  have hinsertions : insertionsAt (s :: q) s.start = [] := by
    rw [insertionsAt, List.filter_eq_nil_iff]
    intro x hx
    rcases List.mem_cons.mp hx with rfl | hx
    · simp [Nat.ne_of_gt h]
    · simp [hothers x hx]
  have hreplacements : replacementsAt (s :: q) s.start = [s] := by
    rw [replacementsAt, List.filter_cons_of_pos (by simp [h]), List.filter_eq_nil_iff.mpr]
    intro x hx
    simp [hothers x hx]
  rw [textAt, hinsertions, hreplacements, keeps_cons_inside (Nat.le_refl _) h]
  simp

/-- Nothing stands inside a replaced range. -/
theorem textAt_cons_inside {i : Nat} (hstart : s.start < i) (hstop : i < s.stop) :
    textAt old (s :: q) i = [] := by
  rw [textAt_of_start_ne, keeps_cons_inside (Nat.le_of_lt hstart) hstop]
  · rfl
  · intro x hx
    rcases List.mem_cons.mp hx with rfl | hx
    · exact Nat.ne_of_lt hstart
    · have := hlater x hx
      omega

end

/-! ## Stretches of positions -/

/-- What stands in the place of the positions from `lo` up to `hi`. -/
def between (old : Text) (q : List Splice) (lo hi : Nat) : Text :=
  (List.range' lo (hi - lo)).flatMap (textAt old q)

theorem substituted_eq_between (old : Text) (q : List Splice) :
    substituted old q = between old q 0 (old.length + 1) := by
  rw [substituted, between, List.range_eq_range', Nat.sub_zero]

theorem between_append {lo mid hi : Nat} (hlo : lo ≤ mid) (hhi : mid ≤ hi) (old : Text)
    (q : List Splice) : between old q lo hi = between old q lo mid ++ between old q mid hi := by
  have hrange : List.range' lo (hi - lo)
      = List.range' lo (mid - lo) ++ List.range' mid (hi - mid) := by
    have happend := @List.range'_append_1 lo (mid - lo) (hi - mid)
    rw [show lo + (mid - lo) = mid by omega,
      show mid - lo + (hi - mid) = hi - lo by omega] at happend
    exact happend.symm
  rw [between, hrange, List.flatMap_append]
  rfl

theorem between_first {lo hi : Nat} (h : lo < hi) (old : Text) (q : List Splice) :
    between old q lo hi = textAt old q lo ++ between old q (lo + 1) hi := by
  rw [between, show hi - lo = hi - (lo + 1) + 1 by omega, List.range'_succ, List.flatMap_cons]
  rfl

theorem between_congr {lo hi : Nat} {old old' : Text} {q q' : List Splice}
    (h : ∀ i, lo ≤ i → i < hi → textAt old q i = textAt old' q' i) :
    between old q lo hi = between old' q' lo hi := by
  unfold between
  rw [List.flatMap_def, List.flatMap_def, List.map_congr_left]
  intro i hi'
  rw [List.mem_range'_1] at hi'
  exact h i hi'.1 (by omega)

/-- Before all changes the bytes stay as they are. -/
theorem between_of_le {lo hi : Nat} {q : List Splice} (h : ∀ s ∈ q, hi ≤ s.start) (old : Text) :
    between old q lo hi = (old.drop lo).take (hi - lo) := by
  induction hn : hi - lo generalizing lo with
  | zero => rw [between, hn]; rfl
  | succ n ih =>
      have hlt : lo < hi := by omega
      rw [between_first hlt, ih (by omega),
        textAt_of_lt fun s hs => Nat.lt_of_lt_of_le hlt (h s hs)]
      by_cases hlength : lo < old.length
      · rw [List.drop_eq_getElem_cons hlength, List.getElem?_eq_getElem hlength]
        rfl
      · rw [List.getElem?_eq_none (by omega), List.drop_eq_nil_of_le (by omega),
          List.drop_eq_nil_of_le (by omega), List.take_nil, List.take_nil]
        rfl

/-- A change stands in the place of its range. -/
theorem Fits.between_cons {s : Splice} {old : Text} {q : List Splice} (hfits : s.Fits old)
    (hlater : ∀ x ∈ q, s.stop ≤ x.start) :
    between old (s :: q) s.start (old.length + 1)
      = s.text ++ between old q s.stop (old.length + 1) := by
  have hlength := hfits.2
  have hbehind : between old (s :: q) (s.stop + 1) (old.length + 1)
      = between old q (s.stop + 1) (old.length + 1) := by
    apply between_congr
    intro i hi _
    have := hfits.1
    exact textAt_cons_of_stop_le (by omega) (by omega) old q
  -- An insertion leaves its position to the others, a replacement takes the positions of its range.
  rcases Nat.eq_or_lt_of_le hfits.1 with hinsertion | hreplacement
  · rw [between_first (by omega), textAt_cons_insertion hinsertion.symm, hinsertion, hbehind,
      List.append_assoc, ← between_first (by omega)]
  · have hinside : between old (s :: q) (s.start + 1) s.stop = [] := by
      rw [between, List.flatMap_eq_nil_iff]
      intro i hi
      rw [List.mem_range'_1] at hi
      exact textAt_cons_inside hlater old (by omega) (by omega)
    have hstop : between old (s :: q) s.stop (old.length + 1)
        = between old q s.stop (old.length + 1) := by
      apply between_congr
      intro i hi _
      exact textAt_cons_of_stop_le (by omega) hi old q
    rw [between_first (by omega), textAt_cons_replacement hlater old hreplacement,
      between_append (show s.start + 1 ≤ s.stop by omega) (show s.stop ≤ old.length + 1 by omega),
      hinside, hstop]
    rfl

/-- From a position on, changes made one at a time are those made position by position. -/
theorem Successive.drop_putAll {old : Text} {offset : Nat} {q : List Splice}
    (h : Successive old offset q) :
    (putAll q old).drop offset = between old q offset (old.length + 1) := by
  induction q generalizing offset with
  | nil =>
      rw [between_of_le (by simp)]
      show old.drop offset = _
      rw [List.take_of_length_le]
      rw [List.length_drop]
      omega
  | cons s later ih =>
      -- The positions are those before the first change and those from it on.
      rw [h.drop_putAll_cons]
      obtain ⟨hoffset, hfits, hlater⟩ := h
      have hbefore : ∀ x ∈ s :: later, s.start ≤ x.start := by
        intro x hx
        rcases List.mem_cons.mp hx with rfl | hx
        · exact Nat.le_refl _
        · exact Nat.le_trans hfits.1 (hlater.le_start x hx)
      have hlength : s.start ≤ old.length + 1 := by
        have := hfits.1
        have := hfits.2
        omega
      rw [ih hlater, between_append hoffset hlength, between_of_le hbefore,
        hfits.between_cons hlater.le_start, List.append_assoc]

theorem Successive.putAll_eq {old : Text} {q : List Splice} (h : Successive old 0 q) :
    putAll q old = substituted old q := by
  rw [substituted_eq_between, ← h.drop_putAll, List.drop_zero]

/-! ## The order of the queue -/

/-- Sorting leaves changes that are in order already as they follow one another. -/
theorem filter_inOrder {p : Splice → Bool} {q : List Splice}
    (h : (q.filter p).Pairwise fun a b => a.le b = true) : (inOrder q).filter p = q.filter p :=
  filter_mergeSort le_total (fun _ _ _ => le_trans) h

/-- Insertions at one position are in order as they were queued. -/
theorem insertionsAt_inOrder (q : List Splice) (i : Nat) :
    insertionsAt (inOrder q) i = insertionsAt q i := by
  apply filter_inOrder
  rw [List.pairwise_filter]
  apply List.pairwise_of_forall
  intro a b ha hb
  simp only [Bool.and_eq_true, decide_eq_true_eq] at ha hb
  rw [le_iff]
  omega

/-- At most one replacement starts at a position. -/
theorem replacementsAt_inOrder {q : List Splice} (h : Apart q) (i : Nat) :
    replacementsAt (inOrder q) i = replacementsAt q i := by
  apply filter_inOrder
  rw [List.pairwise_filter]
  refine h.imp fun {a b} hab ha hb => absurd ?_ hab
  simp only [Bool.and_eq_true, decide_eq_true_eq] at ha hb
  unfold Conflicts
  omega

theorem keeps_inOrder (q : List Splice) (i : Nat) : keeps (inOrder q) i = keeps q i := by
  rw [Bool.eq_iff_iff, keeps, keeps, List.all_eq_true, List.all_eq_true]
  simp only [inOrder, List.mem_mergeSort]

/-- Sorting does not change what changes made at once give. -/
theorem substituted_inOrder {q : List Splice} (h : Apart q) (old : Text) :
    substituted old (inOrder q) = substituted old q := by
  have htext : textAt old (inOrder q) = textAt old q := by
    funext i
    rw [textAt, insertionsAt_inOrder, replacementsAt_inOrder h, keeps_inOrder]
    rfl
  rw [substituted, htext]
  rfl

end Splice

/-- Reading a buffer whose changes fit and do not conflict makes them one at a time, the last first,
which is the same as making all at once. -/
theorem Buffer.read_eq {b : Buffer} (hfits : ∀ s ∈ b.queue, s.Fits b.old)
    (hapart : Splice.Apart b.queue) :
    b.read.1 = .ok (Splice.putAll (Splice.inOrder b.queue) b.old) ∧
      Splice.putAll (Splice.inOrder b.queue) b.old = Splice.substituted b.old b.queue := by
  have hsuccessive := Splice.successive_inOrder hfits hapart
  refine ⟨hsuccessive.apply_eq, ?_⟩
  rw [hsuccessive.putAll_eq, Splice.substituted_inOrder hapart]

end PointerMigration
