/-
# The order of replacements

The replacements of a file are merged from many passes, and the order in which they arrive has no
meaning. Whether there is a new text does not depend on it. Nor does the new text itself, unless
two different texts are inserted at one position: insertions at a position are the only changes
whose order can be seen.
-/
import PointerMigration.Proofs.NewText

namespace PointerMigration

/-- A list with nothing but copies of one value is the only one of its permutations. -/
theorem eq_of_perm_of_forall_eq {α : Type} {l l' : List α} (hperm : l.Perm l')
    (h : ∀ a ∈ l, ∀ b ∈ l, a = b) : l = l' := by
  cases l with
  | nil => rw [hperm.nil_eq]
  | cons a l =>
      have hcopies : a :: l = List.replicate (l.length + 1) a :=
        List.eq_replicate_iff.mpr ⟨rfl, fun b hb => h b hb a (by simp)⟩
      rw [hcopies] at hperm ⊢
      exact (List.perm_replicate.mp hperm.symm).symm

/-! ## Changes in another order -/

namespace Splice

/-- Changes that insert at one position insert the same. -/
def InsertionsAgree (q : List Splice) : Prop :=
  ∀ a ∈ q, ∀ b ∈ q, a.start = a.stop → b.start = b.stop → a.start = b.start → a.text = b.text

instance : Std.Symm fun a b : Splice => ¬ Conflicts a b := ⟨fun _ _ h h' => h h'.symm⟩

theorem apart_iff_of_perm {q q' : List Splice} (hperm : q.Perm q') : Apart q ↔ Apart q' :=
  hperm.pairwise_iff fun h h' => h h'.symm

theorem insertionsAt_append (q later : List Splice) (i : Nat) :
    insertionsAt (q ++ later) i = insertionsAt q i ++ insertionsAt later i :=
  List.filter_append ..

/-- The insertions at a position are copies of one if they agree. -/
theorem insertionsAt_of_perm {q q' : List Splice} (hperm : q.Perm q') (hagree : InsertionsAgree q)
    (i : Nat) : insertionsAt q i = insertionsAt q' i := by
  refine eq_of_perm_of_forall_eq (hperm.filter _) fun a ha b hb => ?_
  simp only [insertionsAt, List.mem_filter, Bool.and_eq_true, decide_eq_true_eq] at ha hb
  obtain ⟨ha, hastart, hastop⟩ := ha
  obtain ⟨hb, hbstart, hbstop⟩ := hb
  have htext := hagree a ha b hb (by omega) (by omega) (by omega)
  cases a
  cases b
  simp_all

/-- At most one replacement starts at a position. -/
theorem replacementsAt_of_perm {q q' : List Splice} (hperm : q.Perm q')
    (hapart : Apart q) (i : Nat) :
    replacementsAt q i = replacementsAt q' i := by
  refine eq_of_perm_of_forall_eq (hperm.filter _) fun a ha b hb => ?_
  simp only [replacementsAt, List.mem_filter, Bool.and_eq_true, decide_eq_true_eq] at ha hb
  by_contra hne
  -- Two of them would both have the byte at the position.
  refine List.Pairwise.forall hapart ha.1 hb.1 hne ?_
  unfold Conflicts
  omega

theorem keeps_of_perm {q q' : List Splice} (hperm : q.Perm q') (i : Nat) :
    keeps q i = keeps q' i := by
  rw [Bool.eq_iff_iff, keeps, keeps, List.all_eq_true, List.all_eq_true]
  simp only [hperm.mem_iff]

/-- Changes in another order give the same text if their insertions agree. What is queued behind
them keeps its place. -/
theorem substituted_of_perm {q q' later : List Splice} (hperm : q.Perm q')
    (hagree : InsertionsAgree q) (hapart : Apart (q ++ later)) (old : Text) :
    substituted old (q ++ later) = substituted old (q' ++ later) := by
  have hall : (q ++ later).Perm (q' ++ later) := hperm.append_right later
  have htext : textAt old (q ++ later) = textAt old (q' ++ later) := by
    funext i
    rw [textAt, textAt, insertionsAt_append, insertionsAt_append, insertionsAt_of_perm hperm hagree,
      replacementsAt_of_perm hall hapart, keeps_of_perm hall]
  rw [substituted, substituted, htext]

end Splice

/-! ## Replacements in another order -/

/-- A replacement is an insertion if its length is zero. -/
theorem Replacement.IsCounted.splice_start_eq_stop_iff {r : Replacement} (h : r.IsCounted)
    (hwraps : ¬ r.Wraps) : r.splice.start = r.splice.stop ↔ r.length = 0 := by
  have hnonneg := h.toInt_nonneg
  rw [← Int64.toInt_inj, Int64.toInt_zero]
  show r.offset.toInt.toNat = r.stop.toInt.toNat ↔ _
  rw [h.toInt_stop hwraps]
  omega

theorem Replacement.IsCounted.splice_start_eq_iff {r s : Replacement} (hr : r.IsCounted)
    (hs : s.IsCounted) : r.splice.start = s.splice.start ↔ r.offset = s.offset := by
  have hr' := hr.toInt_nonneg
  have hs' := hs.toInt_nonneg
  rw [← Int64.toInt_inj]
  show r.offset.toInt.toNat = s.offset.toInt.toNat ↔ _
  omega

namespace FilePatch

section

variable {p q : FilePatch} (hheaders : p.headers = q.headers)
variable (hperm : p.replacements.Perm q.replacements) (old : Text)

include hheaders hperm

theorem queue_perm : (p.queue old).Perm (q.queue old) := by
  rw [queue, queue, hheaders]
  exact (hperm.map _).append_right _

end

section

variable (p : FilePatch) (old : Text) (hcounted : ∀ r ∈ p.replacements, r.IsCounted)
variable (hwraps : ∀ r ∈ p.replacements, ¬ r.Wraps)

include hcounted hwraps

/-- There is a new text if no replacement runs past the end and no two changes conflict. -/
theorem exists_newText_iff :
    (∃ t, p.newText old = .ok t) ↔
      (∀ r ∈ p.replacements, ¬ r.PastEnd old) ∧ Splice.Apart (p.queue old) := by
  constructor
  · rintro ⟨t, ht⟩
    by_contra hnot
    have hproblems : (∃ r ∈ p.replacements, r.PastEnd old) ∨ ¬ Splice.Apart (p.queue old) := by
      by_cases hend : ∀ r ∈ p.replacements, ¬ r.PastEnd old
      · exact Or.inr fun hapart => hnot ⟨hend, hapart⟩
      · push Not at hend
        exact Or.inl hend
    obtain ⟨ps, hps⟩ := p.newText_eq_problems old hcounted hwraps hproblems
    rw [hps] at ht
    cases ht
  · rintro ⟨hend, hapart⟩
    exact ⟨_, (p.newText_eq_ok old hcounted hwraps hend hapart).1⟩

/-- The new text is the old one with all changes made at once. -/
theorem newText_eq_ok_iff {t : Text} :
    p.newText old = .ok t ↔
      ((∀ r ∈ p.replacements, ¬ r.PastEnd old) ∧ Splice.Apart (p.queue old)) ∧
        t = Splice.substituted old (p.queue old) := by
  constructor
  · intro ht
    have hmade := (p.exists_newText_iff old hcounted hwraps).mp ⟨t, ht⟩
    obtain ⟨hnew, hsame⟩ := p.newText_eq_ok old hcounted hwraps hmade.1 hmade.2
    rw [hsame] at hnew
    exact ⟨hmade, Except.ok.inj (ht.symm.trans hnew)⟩
  · rintro ⟨⟨hend, hapart⟩, rfl⟩
    obtain ⟨hnew, hsame⟩ := p.newText_eq_ok old hcounted hwraps hend hapart
    rw [hnew, hsame]

/-- The changes for replacements insert the same at a position if the replacements do. -/
theorem insertionsAgree_of_replacements
    (h : ∀ r ∈ p.replacements, ∀ s ∈ p.replacements, r.length = 0 → s.length = 0 →
      r.offset = s.offset → r.text = s.text) :
    Splice.InsertionsAgree (p.replacements.map Replacement.splice) := by
  intro a ha b hb haempty hbempty hstart
  obtain ⟨r, hr, rfl⟩ := List.mem_map.mp ha
  obtain ⟨s, hs, rfl⟩ := List.mem_map.mp hb
  exact h r hr s hs (((hcounted r hr).splice_start_eq_stop_iff (hwraps r hr)).mp haempty)
    (((hcounted s hs).splice_start_eq_stop_iff (hwraps s hs)).mp hbempty)
    (((hcounted r hr).splice_start_eq_iff (hcounted s hs)).mp hstart)

end

end FilePatch

/-- **The order does not matter.** Let two patches have the same headers and the same replacements
in any order, all with ends that are words. On every text, one of them gives a new text if and
only if the other does. If no two of the replacements insert different texts at one offset, the
new texts are equal. -/
theorem newText_of_perm (p q : FilePatch) (old : Text) (hheaders : p.headers = q.headers)
    (hperm : p.replacements.Perm q.replacements) (hcounted : ∀ r ∈ p.replacements, r.IsCounted)
    (hwraps : ∀ r ∈ p.replacements, ¬ r.Wraps) :
    ((∃ t, p.newText old = .ok t) ↔ ∃ t, q.newText old = .ok t) ∧
    ((∀ r ∈ p.replacements, ∀ s ∈ p.replacements, r.length = 0 → s.length = 0 →
        r.offset = s.offset → r.text = s.text) →
      ∀ t, p.newText old = .ok t ↔ q.newText old = .ok t) := by
  have hcounted' : ∀ r ∈ q.replacements, r.IsCounted :=
    fun r hr => hcounted r (hperm.mem_iff.mpr hr)
  have hwraps' : ∀ r ∈ q.replacements, ¬ r.Wraps := fun r hr => hwraps r (hperm.mem_iff.mpr hr)
  have hqueue := FilePatch.queue_perm hheaders hperm old
  have hmade : ((∀ r ∈ p.replacements, ¬ r.PastEnd old) ∧ Splice.Apart (p.queue old)) ↔
      (∀ r ∈ q.replacements, ¬ r.PastEnd old) ∧ Splice.Apart (q.queue old) := by
    simp only [hperm.mem_iff, Splice.apart_iff_of_perm hqueue]
  refine ⟨?_, fun hsame t => ?_⟩
  · rw [p.exists_newText_iff old hcounted hwraps, q.exists_newText_iff old hcounted' hwraps', hmade]
  · rw [p.newText_eq_ok_iff old hcounted hwraps, q.newText_eq_ok_iff old hcounted' hwraps', ← hmade]
    refine and_congr_right fun h => ?_
    have htext : Splice.substituted old (p.queue old) = Splice.substituted old (q.queue old) := by
      have hagree := p.insertionsAgree_of_replacements hcounted hwraps hsame
      rw [FilePatch.queue, FilePatch.queue, ← hheaders]
      exact Splice.substituted_of_perm (hperm.map _) hagree h.2 old
    rw [htext]

/-- An insertion made twice, a replacement that starts there and a header whose line is added there
too. In the other order the replacement comes first, and the text is the same. -/
theorem newText_of_perm_reversed :
    FilePatch.newText
        { name := "s.h", headers := ["p.h"],
          replacements := [{ offset := 15, text := "// 1\n" }, { offset := 15, text := "// 1\n" },
            { offset := 15, length := 5, text := "P<int> " }] }
        "#include \"a.h\"\nint* p;\n"
      = .ok "#include \"a.h\"\n// 1\n// 1\n#include \"p.h\"\nP<int> p;\n" ∧
    FilePatch.newText
        { name := "s.h", headers := ["p.h"],
          replacements := [{ offset := 15, length := 5, text := "P<int> " },
            { offset := 15, text := "// 1\n" }, { offset := 15, text := "// 1\n" }] }
        "#include \"a.h\"\nint* p;\n"
      = .ok "#include \"a.h\"\n// 1\n// 1\n#include \"p.h\"\nP<int> p;\n" := by
  have hsame := (newText_of_perm
    { name := "s.h", headers := ["p.h"],
      replacements := [{ offset := 15, text := "// 1\n" }, { offset := 15, text := "// 1\n" },
        { offset := 15, length := 5, text := "P<int> " }] }
    { name := "s.h", headers := ["p.h"],
      replacements := [{ offset := 15, length := 5, text := "P<int> " },
        { offset := 15, text := "// 1\n" }, { offset := 15, text := "// 1\n" }] }
    "#include \"a.h\"\nint* p;\n" rfl (by decide) (by decide) (by decide)).2 (by decide)
  have hnew := (FilePatch.newText_eq_ok_iff
    { name := "s.h", headers := ["p.h"],
      replacements := [{ offset := 15, text := "// 1\n" }, { offset := 15, text := "// 1\n" },
        { offset := 15, length := 5, text := "P<int> " }] }
    "#include \"a.h\"\nint* p;\n" (by decide) (by decide)
    (t := "#include \"a.h\"\n// 1\n// 1\n#include \"p.h\"\nP<int> p;\n")).mpr ⟨by decide, by decide⟩
  exact ⟨hnew, (hsame _).mp hnew⟩

end PointerMigration
