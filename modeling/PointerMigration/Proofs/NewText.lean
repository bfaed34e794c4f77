/-
# New texts of files

A patch asks for the changes of its replacements in order and then for a line for each header
that the file does not include. The new text is the old one with these changes made, or there is
a list of problems: a replacement runs past the end of the file, or two changes conflict. A
replacement whose end is no word is not seen to run past the end, because its end has become
negative; patching stops there.
-/
import PointerMigration.Edit.Patch
import PointerMigration.Proofs.Merge
import PointerMigration.Proofs.Substitution

namespace PointerMigration

/-! ## Where replacements end -/

namespace Replacement

/-- Offset and length are numbers of bytes. -/
def IsCounted (r : Replacement) : Prop := 0 ≤ r.offset ∧ 0 ≤ r.length

/-- The offset past the range does not fit into a word. -/
def Wraps (r : Replacement) : Prop := 2 ^ 63 ≤ r.offset.toInt + r.length.toInt

/-- The range runs past the end of a text. -/
def PastEnd (old : Text) (r : Replacement) : Prop :=
  (old.length : Int) < r.offset.toInt + r.length.toInt

instance (r : Replacement) : Decidable r.IsCounted := inferInstanceAs (Decidable (_ ∧ _))

instance (r : Replacement) : Decidable r.Wraps := inferInstanceAs (Decidable (_ ≤ _))

instance (old : Text) (r : Replacement) : Decidable (r.PastEnd old) :=
  inferInstanceAs (Decidable (_ < _))

theorem IsCounted.toInt_nonneg {r : Replacement} (h : r.IsCounted) :
    0 ≤ r.offset.toInt ∧ 0 ≤ r.length.toInt := by
  have hoffset := Int64.le_iff_toInt_le.mp h.1
  have hlength := Int64.le_iff_toInt_le.mp h.2
  rw [Int64.toInt_zero] at hoffset hlength
  exact ⟨hoffset, hlength⟩

/-- The offset past the range is the sum of offset and length if this is a word. -/
theorem IsCounted.toInt_stop {r : Replacement} (h : r.IsCounted) (hwraps : ¬ r.Wraps) :
    r.stop.toInt = r.offset.toInt + r.length.toInt := by
  have hnonneg := h.toInt_nonneg
  unfold Wraps at hwraps
  rw [stop, Int64.toInt_add]
  apply Int.bmod_eq_of_le <;> omega

/-- Otherwise it is negative. -/
theorem Wraps.toInt_stop_neg {r : Replacement} (h : r.Wraps) : r.stop.toInt < 0 := by
  have hoffset := r.offset.toInt_lt
  have hlength := r.length.toInt_lt
  unfold Wraps at h
  rw [stop, Int64.toInt_add, Int.bmod_def]
  omega

/-- A replacement that does not run past the end of a text is a change that fits. -/
theorem IsCounted.fits_splice {r : Replacement} {old : Text} (h : r.IsCounted)
    (hwraps : ¬ r.Wraps) (hend : ¬ r.PastEnd old) : r.splice.Fits old := by
  have hnonneg := h.toInt_nonneg
  unfold PastEnd at hend
  show r.offset.toInt.toNat ≤ r.stop.toInt.toNat ∧ r.stop.toInt.toNat ≤ old.length
  rw [h.toInt_stop hwraps]
  omega

end Replacement

/-! ## Problems -/

namespace Problems

theorem isEmpty_add (ps : Problems) (p : Problem) : (ps.add p).isEmpty = false := by
  unfold add
  split
  · next h =>
      rw [isEmpty, List.isEmpty_eq_false_iff]
      exact List.ne_nil_of_mem h
  · simp [isEmpty]

end Problems

/-! ## Queueing the changes of a patch -/

namespace FilePatch

section

variable (name : Text) {old : Text} {r : Replacement} (hr : r.IsCounted)
variable (q : List Splice) (ps : Problems)

include hr

/-- A replacement whose end is no word is at an invalid position. -/
theorem queueReplacement_of_wraps (hwraps : r.Wraps) :
    queueReplacement name old { old, queue := q } ps r = .error .invalidPosition := by
  have hstop := hwraps.toInt_stop_neg
  have hnonneg := hr.toInt_nonneg
  have hreplace : Buffer.replace { old, queue := q } r.offset.toInt r.stop.toInt r.text = none := by
    rw [Buffer.replace, if_pos]
    simp only [Bool.or_eq_true, decide_eq_true_eq]
    omega
  rw [queueReplacement, if_neg (by omega), hreplace]

/-- A replacement that runs past the end of the file is a problem. -/
theorem queueReplacement_of_pastEnd (hwraps : ¬ r.Wraps) (hend : r.PastEnd old) :
    ∃ p, queueReplacement name old { old, queue := q } ps r
      = .ok ({ old, queue := q }, ps.add p) := by
  have hlt : (old.length : Int) < r.stop.toInt := by
    rw [hr.toInt_stop hwraps]
    exact hend
  rw [queueReplacement, if_pos hlt]
  exact ⟨_, rfl⟩

/-- Any other replacement is queued. -/
theorem queueReplacement_of_within (hwraps : ¬ r.Wraps) (hend : ¬ r.PastEnd old) :
    queueReplacement name old { old, queue := q } ps r
      = .ok ({ old, queue := q ++ [r.splice] }, ps) := by
  have hnonneg := hr.toInt_nonneg
  have hstop := hr.toInt_stop hwraps
  unfold Replacement.PastEnd at hend
  have hreplace : Buffer.replace { old, queue := q } r.offset.toInt r.stop.toInt r.text
      = some { old, queue := q ++ [r.splice] } := by
    rw [Buffer.replace, if_neg, Replacement.splice]
    simp only [Bool.or_eq_true, decide_eq_true_eq]
    omega
  rw [queueReplacement, if_neg (by omega), hreplace]

end

/-- Queues replacements in order. -/
def queueReplacements (name old : Text) (rs : List Replacement) (state : Buffer × Problems) :
    Except PatchFailure (Buffer × Problems) :=
  rs.foldlM (fun state r => queueReplacement name old state.1 state.2 r) state

/-- The first step of queueing replacements, and the others. -/
theorem queueReplacements_cons (name old : Text) (r : Replacement) (rs : List Replacement)
    (state : Buffer × Problems) :
    queueReplacements name old (r :: rs) state
      = (queueReplacement name old state.1 state.2 r).bind (queueReplacements name old rs) :=
  List.foldlM_cons

section

variable (name old : Text) {rs : List Replacement} (hcounted : ∀ r ∈ rs, r.IsCounted)

include hcounted

/-- Queueing stops if the end of some replacement is no word. -/
theorem queueReplacements_of_wraps (hwraps : ∃ r ∈ rs, r.Wraps) (q : List Splice) (ps : Problems) :
    queueReplacements name old rs ({ old, queue := q }, ps) = .error .invalidPosition := by
  induction rs generalizing q ps with
  | nil =>
      obtain ⟨r, hr, -⟩ := hwraps
      cases hr
  | cons r rs ih =>
      have hr : r.IsCounted := hcounted r (by simp)
      have hrest := fun s hs => hcounted s (List.mem_cons_of_mem r hs)
      rw [queueReplacements_cons]
      by_cases hfirst : r.Wraps
      · rw [queueReplacement_of_wraps name hr _ _ hfirst]
        rfl
      · have hlater : ∃ s ∈ rs, s.Wraps := by
          obtain ⟨s, hs, hswraps⟩ := hwraps
          rcases List.mem_cons.mp hs with rfl | hs
          · exact absurd hswraps hfirst
          · exact ⟨s, hs, hswraps⟩
        by_cases hend : r.PastEnd old
        · obtain ⟨p, hstep⟩ := queueReplacement_of_pastEnd name hr q ps hfirst hend
          rw [hstep]
          exact ih hrest hlater _ _
        · rw [queueReplacement_of_within name hr q ps hfirst hend]
          exact ih hrest hlater _ _

/-- Otherwise the replacements that do not run past the end are queued, and there are problems
exactly if there were some or another replacement is there. -/
theorem queueReplacements_of_not_wraps (hwraps : ∀ r ∈ rs, ¬ r.Wraps) (q : List Splice)
    (ps : Problems) :
    ∃ ps', queueReplacements name old rs ({ old, queue := q }, ps)
        = .ok ({ old, queue := q ++
            (rs.filter fun r => ¬ r.PastEnd old).map Replacement.splice }, ps') ∧
      (ps'.isEmpty = true ↔ ps.isEmpty = true ∧ ∀ r ∈ rs, ¬ r.PastEnd old) := by
  induction rs generalizing q ps with
  | nil =>
      refine ⟨ps, ?_, by simp⟩
      rw [List.filter_nil, List.map_nil, List.append_nil]
      rfl
  | cons r rs ih =>
      have hr : r.IsCounted := hcounted r (by simp)
      have hfirst : ¬ r.Wraps := hwraps r (by simp)
      have hrest := ih (fun s hs => hcounted s (List.mem_cons_of_mem r hs))
        fun s hs => hwraps s (List.mem_cons_of_mem r hs)
      rw [queueReplacements_cons]
      by_cases hend : r.PastEnd old
      · obtain ⟨p, hstep⟩ := queueReplacement_of_pastEnd name hr q ps hfirst hend
        obtain ⟨ps', hqueue, hempty⟩ := hrest q (ps.add p)
        refine ⟨ps', ?_, ?_⟩
        · rw [hstep, List.filter_cons_of_neg (by simpa using hend)]
          exact hqueue
        · rw [hempty, Problems.isEmpty_add]
          simp [hend]
      · obtain ⟨ps', hqueue, hempty⟩ := hrest (q ++ [r.splice]) ps
        refine ⟨ps', ?_, ?_⟩
        · rw [queueReplacement_of_within name hr q ps hfirst hend,
            List.filter_cons_of_pos (by simpa using hend), List.map_cons]
          rw [List.append_assoc] at hqueue
          exact hqueue
        · rw [hempty]
          simp [hend]

end

/-! ## Headers -/

/-- The change that includes a header in a text, if the text does not include it. The line starts
with a newline if it would not start a line otherwise. -/
def headerSplice? (old header : Text) : Option Splice :=
  (Directive.place? old header).map fun position =>
    { start := position, stop := position,
      text := if (old.take position).getLast?.any (· != Text.newline)
        then Text.newline :: Directive.line header else Directive.line header }

/-- A directive is added at a position of the text. -/
theorem place?_le_length {old header : Text} {position : Nat}
    (h : Directive.place? old header = some position) : position ≤ old.length := by
  unfold Directive.place? at h
  simp only at h
  split at h
  · cases h
  · split at h
    · cases h
      exact Nat.sub_le _ _
    · cases h
      exact Nat.sub_le _ _

theorem fits_of_headerSplice? {old header : Text} {s : Splice}
    (h : headerSplice? old header = some s) :
    s.Fits old := by
  obtain ⟨position, hplace, rfl⟩ := Option.map_eq_some_iff.mp h
  exact ⟨Nat.le_refl _, place?_le_length hplace⟩

/-- Queueing a header never fails. -/
theorem queueHeader_eq (old : Text) (q : List Splice) (header : Text) :
    queueHeader old { old, queue := q } header
      = .ok { old, queue := q ++ (headerSplice? old header).toList } := by
  rw [queueHeader, headerSplice?]
  cases hplace : Directive.place? old header with
  | none => simp
  | some position =>
      have hle := place?_le_length hplace
      have hinsert : ∀ line, Buffer.insert { old, queue := q } position line
          = some { old, queue := q ++ [⟨position, position, line⟩] } := by
        intro line
        rw [Buffer.insert, Buffer.replace, if_neg]
        · simp
        · simp only [Bool.or_eq_true, decide_eq_true_eq]
          omega
      simp only [hinsert, Option.map_some, Option.toList_some]

theorem queueHeaders_eq (old : Text) (q : List Splice) (headers : List Text) :
    headers.foldlM (queueHeader old) { old, queue := q }
      = .ok { old, queue := q ++ headers.filterMap (headerSplice? old) } := by
  induction headers generalizing q with
  | nil => simp [pure, Except.pure]
  | cons header headers ih =>
      rw [List.foldlM_cons, queueHeader_eq]
      show List.foldlM (queueHeader old) _ headers = _
      rw [ih, List.append_assoc]
      congr 3
      cases h : headerSplice? old header with
      | none => rw [List.filterMap_cons_none h]; rfl
      | some s => rw [List.filterMap_cons_some h]; rfl

/-! ## The new text -/

/-- The changes that a patch asks for: its replacements in order, then its headers. -/
def queue (p : FilePatch) (old : Text) : List Splice :=
  p.replacements.map Replacement.splice ++ p.headers.filterMap (headerSplice? old)

/-- The new text of a buffer with the changes of a patch, after some problems. -/
def finish (p : FilePatch) (b : Buffer) (ps : Problems) : Except PatchFailure Text :=
  let ps := match b.overlap? with
    | some pair => ps.add ⟨.ofOffset p.name none (-1), Splice.overlapMessage pair.1 pair.2⟩
    | none => ps
  if !ps.isEmpty then .error (.problems ps)
  else
    match b.read.1 with
    | .ok t => .ok t
    | .error pair => .error (.problems (ps.note (Splice.overlapMessage pair.1 pair.2)))

/-- The new text is made in three steps. -/
theorem newText_eq_bind (p : FilePatch) (old : Text) :
    p.newText old = (queueReplacements p.name old p.replacements ({ old }, {})).bind fun state =>
      (p.headers.foldlM (queueHeader old) state.1).bind fun b => p.finish b state.2 := by
  refine congrArg (Except.bind _) (funext fun state => ?_)
  refine congrArg (Except.bind _) (funext fun b => ?_)
  unfold finish
  rcases b.overlap? with _ | ⟨x, y⟩
  · rcases b.read.1 with ⟨x, y⟩ | t
    · rfl
    · rfl
  · rcases b.read.1 with ⟨x', y'⟩ | t
    · rfl
    · rfl

/-- There is no new text after a problem, nor if two changes overlap. -/
theorem finish_eq_problems (p : FilePatch) {b : Buffer} {ps : Problems}
    (h : ps.isEmpty = false ∨ b.overlap? ≠ none) :
    ∃ more, p.finish b ps = .error (.problems more) := by
  unfold finish
  cases hoverlap : b.overlap? with
  | some pair => simp [Problems.isEmpty_add]
  | none =>
      have hempty : ps.isEmpty = false := h.resolve_right fun hne => hne hoverlap
      simp [hempty]

/-- Otherwise the buffer is read. -/
theorem finish_eq_ok (p : FilePatch) {b : Buffer} {ps : Problems} {t : Text}
    (hempty : ps.isEmpty = true) (hoverlap : b.overlap? = none) (hread : b.read.1 = .ok t) :
    p.finish b ps = .ok t := by
  simp [finish, hoverlap, hempty, hread]

/-- Once all changes are queued there is a text or a list of problems. -/
theorem finish_ne_invalidPosition (p : FilePatch) (b : Buffer) (ps : Problems) :
    p.finish b ps ≠ .error .invalidPosition := by
  by_cases hproblems : ps.isEmpty = false ∨ b.overlap? ≠ none
  · obtain ⟨more, hmore⟩ := p.finish_eq_problems hproblems
    simp [hmore]
  · obtain ⟨hempty, hoverlap⟩ := not_or.mp hproblems
    rw [Bool.not_eq_false] at hempty
    rw [not_ne_iff] at hoverlap
    -- The buffer can be read, because its check has found nothing.
    cases hread : b.read.1 with
    | ok t => simp [p.finish_eq_ok hempty hoverlap hread]
    | error pair =>
        have hcollision := Splice.collision?_apply b.old (Splice.inOrder b.queue)
        rw [← Buffer.overlap?, hoverlap] at hcollision
        rw [Buffer.read] at hread
        simp only at hread
        rw [hread] at hcollision
        cases hcollision

section

variable (p : FilePatch) (old : Text) (hcounted : ∀ r ∈ p.replacements, r.IsCounted)

include hcounted

/-- There is no new text if the end of some replacement is no word. -/
theorem newText_of_wraps (hwraps : ∃ r ∈ p.replacements, r.Wraps) :
    p.newText old = .error .invalidPosition := by
  rw [newText_eq_bind, queueReplacements_of_wraps p.name old hcounted hwraps]
  rfl

variable (hwraps : ∀ r ∈ p.replacements, ¬ r.Wraps)

include hwraps

/-- Otherwise the changes that do not run past the end are queued, and patching ends with the
problems or with the buffer read. -/
theorem newText_eq_finish : ∃ ps : Problems,
    (ps.isEmpty = true ↔ ∀ r ∈ p.replacements, ¬ r.PastEnd old) ∧
      p.newText old = p.finish
        { old, queue := (p.replacements.filter fun r => ¬ r.PastEnd old).map Replacement.splice ++
            p.headers.filterMap (headerSplice? old) } ps := by
  obtain ⟨ps, hqueue, hempty⟩ :=
    queueReplacements_of_not_wraps p.name old hcounted hwraps [] {}
  refine ⟨ps, hempty.trans (and_iff_right rfl), ?_⟩
  rw [newText_eq_bind, hqueue]
  show (p.headers.foldlM (queueHeader old) _).bind _ = _
  rw [queueHeaders_eq]
  rfl

/-- The changes of a patch fit if no replacement runs past the end. -/
theorem fits_of_mem_queue (hend : ∀ r ∈ p.replacements, ¬ r.PastEnd old) :
    ∀ s ∈ p.queue old, s.Fits old := by
  intro s hs
  rcases List.mem_append.mp hs with hs | hs
  · obtain ⟨r, hr, rfl⟩ := List.mem_map.mp hs
    exact (hcounted r hr).fits_splice (hwraps r hr) (hend r hr)
  · obtain ⟨header, -, hs⟩ := List.mem_filterMap.mp hs
    exact fits_of_headerSplice? hs

/-- Without a replacement that runs past the end, all changes of the patch are queued. -/
theorem newText_eq_finish_queue (hend : ∀ r ∈ p.replacements, ¬ r.PastEnd old) :
    ∃ ps : Problems, ps.isEmpty = true ∧
      p.newText old = p.finish { old, queue := p.queue old } ps := by
  obtain ⟨ps, hempty, hfinish⟩ := p.newText_eq_finish old hcounted hwraps
  refine ⟨ps, hempty.mpr hend, ?_⟩
  rw [hfinish, List.filter_eq_self.mpr fun r hr => by simpa using hend r hr]
  rfl

/-- Two changes overlap in the buffer exactly if two changes of the patch conflict. -/
theorem overlap?_queue (hend : ∀ r ∈ p.replacements, ¬ r.PastEnd old) :
    ({ old, queue := p.queue old } : Buffer).overlap? = none ↔ Splice.Apart (p.queue old) :=
  Splice.overlap?_inOrder_eq_none_iff fun s hs =>
    (p.fits_of_mem_queue old hcounted hwraps hend s hs).1

/-- There is no new text if a replacement runs past the end or two changes conflict. -/
theorem newText_eq_problems
    (h : (∃ r ∈ p.replacements, r.PastEnd old) ∨ ¬ Splice.Apart (p.queue old)) :
    ∃ ps, p.newText old = .error (.problems ps) := by
  by_cases hend : ∀ r ∈ p.replacements, ¬ r.PastEnd old
  · have hconflict : ¬ Splice.Apart (p.queue old) :=
      h.resolve_left fun ⟨r, hr, hpast⟩ => hend r hr hpast
    obtain ⟨ps, -, hfinish⟩ := p.newText_eq_finish_queue old hcounted hwraps hend
    rw [hfinish]
    apply p.finish_eq_problems
    right
    rwa [ne_eq, p.overlap?_queue old hcounted hwraps hend]
  · obtain ⟨ps, hempty, hfinish⟩ := p.newText_eq_finish old hcounted hwraps
    rw [hfinish]
    apply p.finish_eq_problems
    left
    rw [Bool.eq_false_iff, ne_eq, hempty]
    exact hend

/-- Otherwise the new text is the old one with the changes made. -/
theorem newText_eq_ok (hend : ∀ r ∈ p.replacements, ¬ r.PastEnd old)
    (hapart : Splice.Apart (p.queue old)) :
    p.newText old = .ok (Splice.putAll (Splice.inOrder (p.queue old)) old) ∧
      Splice.putAll (Splice.inOrder (p.queue old)) old = Splice.substituted old (p.queue old) := by
  obtain ⟨ps, hempty, hfinish⟩ := p.newText_eq_finish_queue old hcounted hwraps hend
  obtain ⟨hread, hsame⟩ := Buffer.read_eq (b := { old, queue := p.queue old })
    (p.fits_of_mem_queue old hcounted hwraps hend) hapart
  refine ⟨?_, hsame⟩
  rw [hfinish]
  exact p.finish_eq_ok hempty ((p.overlap?_queue old hcounted hwraps hend).mpr hapart) hread

omit hwraps in
/-- Patching stops exactly if the end of some replacement is no word. -/
theorem newText_eq_invalidPosition_iff :
    p.newText old = .error .invalidPosition ↔ ∃ r ∈ p.replacements, r.Wraps := by
  constructor
  · intro hstop
    by_contra hnot
    obtain ⟨ps, -, hfinish⟩ :=
      p.newText_eq_finish old hcounted fun r hr hwraps => hnot ⟨r, hr, hwraps⟩
    rw [hfinish] at hstop
    exact p.finish_ne_invalidPosition _ _ hstop
  · exact p.newText_of_wraps old hcounted

end

end FilePatch

/-! ## Replacements that were read -/

theorem EditStream.readCount_nonneg {t : Text} {n : Int64} (h : readCount t = some n) : 0 ≤ n := by
  unfold readCount at h
  split at h
  · split at h
    · cases h
    · next hneg =>
        cases h
        exact Int64.not_lt.mp hneg
  · cases h

/-- A replacement that has been read has an offset and a length that are numbers of bytes. -/
theorem EditStream.Record.isCounted_of_parse {t : Text} {r : Replacement}
    (h : Record.parse t = .ok (.replace r)) : r.IsCounted := by
  unfold Record.parse at h
  split at h
  · split at h
    · split at h
      · next offset length hoffset hlength =>
          cases h
          exact ⟨readCount_nonneg hoffset, readCount_nonneg hlength⟩
      · cases h
    · split at h
      · cases h
      · cases h
  · cases h

/-- All replacements of a patch set that was read are of this kind. -/
theorem PatchSet.isCounted_of_parse {stream : Text} {set : PatchSet} (h : parse stream = .ok set)
    {f : FilePatch} (hf : f ∈ set.files) : ∀ r ∈ f.replacements, r.IsCounted := by
  intro r hr
  obtain ⟨rs, hparse, rfl⟩ := parse_eq_ok_iff.mp h
  obtain ⟨-, -, hrecords⟩ := EditStream.parse_eq_ok_iff.mp hparse
  rw [eq_patchFor_of_mem hf, patchFor_eq] at hr
  obtain ⟨x, hx, hown⟩ := List.mem_filterMap.mp hr
  obtain ⟨rfl, -⟩ := ownReplacement?_eq_some_iff.mp hown
  obtain ⟨t, -, ht⟩ := EditStream.exists_of_mem_readRecords hrecords hx
  exact EditStream.Record.isCounted_of_parse ht

/-! ## The whole file -/

/-- **Simultaneous substitution.** Let the ends of all replacements of a patch be words. If one of
them runs past the end of the file, or two changes of the patch conflict, there is a list of
problems and no new text. Otherwise the new text is the old one with the changes made one at a time,
from the last to the first in the order of positions. That is the text with all changes made at
once: every byte outside the replaced ranges is kept in its order, and at each position the
insertions come in the order of the queue, before a replacement that starts there. -/
theorem newText_eq_substituted (p : FilePatch) (old : Text)
    (hcounted : ∀ r ∈ p.replacements, r.IsCounted) (hwraps : ∀ r ∈ p.replacements, ¬ r.Wraps) :
    ((∃ r ∈ p.replacements, r.PastEnd old) ∨ ¬ Splice.Apart (p.queue old) →
      ∃ ps, p.newText old = .error (.problems ps)) ∧
    ((∀ r ∈ p.replacements, ¬ r.PastEnd old) → Splice.Apart (p.queue old) →
      p.newText old = .ok (Splice.putAll (Splice.inOrder (p.queue old)) old) ∧
      Splice.putAll (Splice.inOrder (p.queue old)) old = Splice.substituted old (p.queue old)) :=
  ⟨p.newText_eq_problems old hcounted hwraps, p.newText_eq_ok old hcounted hwraps⟩

/-- A header and two insertions in front of a replacement: the insertions keep the order of
the queue, in which the line of the header is last, and the replacement comes behind them
though it was queued first. -/
theorem newText_eq_substituted_insertions :
    FilePatch.newText
        { name := "s.h", headers := ["p.h"],
          replacements := [{ offset := 15, length := 5, text := "P<int> " },
            { offset := 15, text := "// 1\n" }, { offset := 15, text := "// 2\n" }] }
        "#include \"a.h\"\nint* p;\n"
      = .ok "#include \"a.h\"\n// 1\n// 2\n#include \"p.h\"\nP<int> p;\n" := by
  obtain ⟨hnew, hsame⟩ := (newText_eq_substituted
    { name := "s.h", headers := ["p.h"],
      replacements := [{ offset := 15, length := 5, text := "P<int> " },
        { offset := 15, text := "// 1\n" }, { offset := 15, text := "// 2\n" }] }
    "#include \"a.h\"\nint* p;\n" (by decide) (by decide)).2 (by decide) (by decide)
  rw [hnew, hsame]
  decide

end PointerMigration
