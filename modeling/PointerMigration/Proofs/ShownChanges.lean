/-
# Changes that a diff shows

A diff compares lines without their newlines, so it shows a change if and only if the lines differ.
Two different texts have the same lines if one of them lacks the newline at its end and is the other
one otherwise. For such texts the heading is printed and nothing below it.
-/
import PointerMigration.Edit.Patch
import PointerMigration.Proofs.LineDiff

namespace PointerMigration

/-! ## Texts with the same lines -/

namespace Text

/-- A text lacks the newline at its end that another one has. -/
def LacksNewline (s t : Text) : Prop := s ≠ [] ∧ s.getLast? ≠ some newline ∧ t = s ++ [newline]

/-- The lines of a text, each with its newline, are the text, or the text with the
newline that it lacks. -/
theorem unlines_lines (t : Text) : unlines (lines t) = t ∨ LacksNewline t (unlines (lines t)) := by
  -- The induction is on the length, as a line may have any number of bytes.
  induction hlength : t.length using Nat.strongRecOn generalizing t with
  | ind n ih =>
    by_cases hmem : newline ∈ t
    · obtain ⟨line, rest, rfl, hline⟩ := List.eq_append_cons_of_mem hmem
      rw [List.length_append, List.length_cons] at hlength
      rw [lines_append_newline hline, unlines_cons]
      rcases ih rest.length (by omega) rest rfl with hrest | ⟨hne, hlast, hrest⟩
      · exact Or.inl (by rw [hrest])
      · refine Or.inr ⟨by simp, ?_, by rw [hrest]; simp⟩
        rw [List.getLast?_append_of_ne_nil _ (List.cons_ne_nil _ _),
          List.getLast?_cons_of_ne_nil hne]
        exact hlast
    · rw [lines_of_notMem hmem]
      by_cases ht : t = []
      · exact Or.inl (by simp [ht])
      · refine Or.inr ⟨ht, fun hlast => hmem (List.mem_of_getLast? hlast), ?_⟩
        simp [ht]

/-- The newline at the end makes no difference to the lines. -/
theorem LacksNewline.lines_eq {s t : Text} (h : LacksNewline s t) : lines s = lines t := by
  obtain ⟨hne, hlast, rfl⟩ := h
  have hunlines : unlines (lines s) = s ++ [newline] := by
    rcases unlines_lines s with hs | ⟨-, -, hs⟩
    · -- The written lines end with a newline and this text does not.
      have hnil : lines s ≠ [] := by
        intro hnil
        rw [hnil] at hs
        exact hne hs.symm
      exact absurd (hs ▸ getLast?_unlines hnil) hlast
    · exact hs
  rw [← hunlines, lines_unlines fun line hline => newline_notMem_of_mem_lines hline]

/-- Texts with the same lines are the same up to the newline at the end. -/
theorem lines_eq_iff {s t : Text} :
    lines s = lines t ↔ s = t ∨ LacksNewline s t ∨ LacksNewline t s := by
  constructor
  · intro h
    have hs := unlines_lines s
    have ht := unlines_lines t
    rw [h] at hs
    rcases hs with hs | ⟨hsne, hslast, hs⟩
    · rcases ht with ht | ht
      · exact Or.inl (hs.symm.trans ht)
      · exact Or.inr (Or.inr (hs ▸ ht))
    · rcases ht with ht | ⟨-, -, ht⟩
      · exact Or.inr (Or.inl ⟨hsne, hslast, ht.symm.trans hs⟩)
      · exact Or.inl (List.append_cancel_right (hs.symm.trans ht))
  · rintro (rfl | h | h)
    · rfl
    · exact h.lines_eq
    · exact h.lines_eq.symm

end Text

/-! ## Unchanged lines -/

open DiffLine

theorem DiffLine.deletesFirst_of_kept {ls : List DiffLine} (h : ∀ l ∈ ls, l.isKept = true) :
    deletesFirst ls = ls := by
  induction ls with
  | nil => rfl
  | cons l ls ih =>
      obtain ⟨hl, hls⟩ := List.forall_mem_cons.mp h
      have hchange : l.change = .keep := isKept_iff.mp hl
      rw [deletesFirst, deletesFirstFrom, hchange]
      exact congrArg (l :: ·) (ih hls)

theorem Hunk.ofLines_of_kept {ls : List DiffLine} (h : ∀ l ∈ ls, l.isKept = true) :
    ofLines ls = [] := by
  have hrest : ls.dropWhile isKept = [] := List.dropWhile_eq_nil_iff.mpr h
  simp [ofLines, hunksFrom, hrest]

namespace Diff

theorem isKept_of_mem_ofScript_kept {table : List Text} {rs : List Int32} {l : DiffLine}
    (h : l ∈ ofScript table (Script.kept rs)) : l.isKept = true := by
  obtain ⟨p, hp, hl⟩ := List.mem_flatMap.mp h
  obtain ⟨r, -, rfl⟩ := List.mem_map.mp hl
  rw [Script.kept] at hp
  split at hp
  · cases hp
  · obtain rfl := List.mem_singleton.mp hp
    rfl

/-- Two texts with the same lines have no hunks. -/
theorem ofLines_of_lines_eq {old new : Text} (h : Text.lines old = Text.lines new) :
    Hunk.ofLines (linesBy Script.compare old new) = [] := by
  have hcompare : ∀ rs : List Int32, Script.compare rs rs = Script.kept rs := fun rs => by
    rw [Script.compare, Script.compareUpTo, if_pos rfl]
  rw [linesBy, h]
  simp only [hcompare]
  rw [deletesFirst_of_kept fun l hl => isKept_of_mem_ofScript_kept hl]
  exact Hunk.ofLines_of_kept fun l hl => isKept_of_mem_ofScript_kept hl

/-! ## Diffs that show a change -/

/-- Below the heading of a printed diff stands a hunk with a line that is removed or added. -/
def ShowsChange (printed : Option Text) (oldName newName : Text) : Prop :=
  ∃ body hs, printed = some (heading oldName newName ++ body) ∧ Hunk.read? body = some hs ∧
    ∃ h ∈ hs, ∃ l ∈ h.lines, l.isKept = false

/-- A printed diff of different lines shows a change, since without a hunk the lines
would stay as they are. -/
theorem IsPrinted.showsChange {printed : Option Text} {oldName old newName new : Text}
    (h : IsPrinted printed oldName old newName new) (hlines : Text.lines old ≠ Text.lines new) :
    ShowsChange printed oldName newName := by
  obtain ⟨body, hs, hprinted, hread, hdiff⟩ := h
  have hne : hs ≠ [] := by
    rintro rfl
    exact hlines (Option.some.inj hdiff.applies)
  obtain ⟨k, hk⟩ := List.exists_mem_of_ne_nil hs hne
  exact ⟨body, hs, hprinted, hread, k, hk, (hdiff.tight k hk).changes⟩

theorem not_showsChange_heading (oldName newName : Text) :
    ¬ ShowsChange (some (heading oldName newName)) oldName newName := by
  rintro ⟨body, hs, hprinted, hread, k, hk, -⟩
  have hbody : body = [] := List.self_eq_append_right.mp (Option.some.inj hprinted)
  rw [hbody] at hread
  cases hread
  cases hk

theorem unified_of_lines_eq {old new : Text} (oldName newName : Text) (hne : old ≠ new)
    (h : Text.lines old = Text.lines new) :
    unified oldName old newName new = some (heading oldName newName) := by
  rw [unified, unifiedBy, if_neg hne, ofLines_of_lines_eq h, List.flatMap_nil, List.append_nil]

end Diff

/-- The diff of a patch is that of its two texts, unless they are the same. -/
theorem FilePatch.some_diff (p : FilePatch) {old new : Text} (hne : old ≠ new) :
    some (p.diff old new) = Diff.unified ("old/" ++ p.name) old ("new/" ++ p.name) new := by
  rw [diff, Diff.unified, Diff.unifiedBy, if_neg hne]
  rfl

/-- **Changes that a diff shows.** As long as a rune can be found for each different line, the
diff of two different texts shows a change unless one of them lacks the newline at the end of the
other, whatever script leads from the runes of the old lines to those of the new ones. If one
lacks it, the diff is the heading alone, so the preview of a patch that only adds or removes this
newline shows no change. -/
theorem unified_shows_change_iff {old new : Text} (hne : old ≠ new)
    (hlines : (Text.lines old ++ Text.lines new).eraseDups.length ≤ 1112064) :
    (∀ (compare : List Int32 → List Int32 → Script Int32) (oldName newName : Text),
        Script.source (compare (Diff.oldRunes old new) (Diff.newRunes old new))
          = Diff.oldRunes old new →
        Script.target (compare (Diff.oldRunes old new) (Diff.newRunes old new))
          = Diff.newRunes old new →
        ¬ (Text.LacksNewline old new ∨ Text.LacksNewline new old) →
        Diff.ShowsChange (Diff.unifiedBy compare oldName old newName new) oldName newName) ∧
      (∀ oldName newName : Text,
        (Diff.ShowsChange (Diff.unified oldName old newName new) oldName newName ↔
          ¬ (Text.LacksNewline old new ∨ Text.LacksNewline new old)) ∧
        (Text.LacksNewline old new ∨ Text.LacksNewline new old →
          Diff.unified oldName old newName new = some (Diff.heading oldName newName))) ∧
      ∀ p : FilePatch,
        Diff.ShowsChange (some (p.diff old new)) ("old/" ++ p.name) ("new/" ++ p.name) ↔
        ¬ (Text.LacksNewline old new ∨ Text.LacksNewline new old) := by
  have hsame : Text.lines old = Text.lines new ↔
      Text.LacksNewline old new ∨ Text.LacksNewline new old := by
    rw [Text.lines_eq_iff, or_iff_right hne]
  rw [← hsame]
  have hshows : ∀ oldName newName : Text,
      Diff.ShowsChange (Diff.unified oldName old newName new) oldName newName ↔
        Text.lines old ≠ Text.lines new := by
    refine fun oldName newName => ⟨fun hshows heq => ?_, ?_⟩
    · rw [Diff.unified_of_lines_eq oldName newName hne heq] at hshows
      exact Diff.not_showsChange_heading oldName newName hshows
    · exact (Diff.isPrinted_unifiedBy oldName newName hne hlines
        (Script.leads_compare _ _)).showsChange
  refine ⟨fun compare oldName newName hsource htarget hdiffer => ?_,
    fun oldName newName => ⟨?_, ?_⟩, fun p => ?_⟩
  · exact (Diff.isPrinted_unifiedBy oldName newName hne hlines ⟨hsource, htarget⟩).showsChange
      hdiffer
  · exact hshows oldName newName
  · exact Diff.unified_of_lines_eq oldName newName hne
  · rw [p.some_diff hne]
    exact hshows _ _

/-- Only the first of these texts lacks a newline at its end, but their lines differ. -/
theorem unified_shows_change_iff_longer :
    Diff.ShowsChange (Diff.unified "x" "a\nb" "y" "a\nb\n\n") "x" "y" ∧
      Diff.ShowsChange (Diff.unifiedBy Script.replace "x" "a\nb" "y" "a\nb\n\n") "x" "y" := by
  have hne : Text.ofString "a\nb" ≠ Text.ofString "a\nb\n\n" := by decide
  have hlines : (Text.lines "a\nb" ++ Text.lines "a\nb\n\n").eraseDups.length ≤ 1112064 := by decide
  have hnot : ¬ (Text.LacksNewline "a\nb" "a\nb\n\n" ∨ Text.LacksNewline "a\nb\n\n" "a\nb") := by
    unfold Text.LacksNewline
    decide
  obtain ⟨hall, hown, -⟩ := unified_shows_change_iff hne hlines
  have hleads :=
    Script.leads_replace (Diff.oldRunes "a\nb" "a\nb\n\n") (Diff.newRunes "a\nb" "a\nb\n\n")
  exact ⟨(hown "x" "y").1.mpr hnot,
    hall Script.replace "x" "y" hleads.source_eq hleads.target_eq hnot⟩

/-- A patch that ends the only line of a file changes the file, but its diff is the heading
alone. -/
theorem added_newline_not_shown :
    FilePatch.newText ⟨"a.cc", [⟨"a.cc", 1, 0, "\n", false⟩], []⟩ "x" = .ok "x\n" ∧
      Text.ofString "x" ≠ Text.ofString "x\n" ∧
      FilePatch.diff ⟨"a.cc", [⟨"a.cc", 1, 0, "\n", false⟩], []⟩ "x" "x\n"
        = "diff old/a.cc new/a.cc\n--- old/a.cc\n+++ new/a.cc\n" ∧
      ¬ Diff.ShowsChange (Diff.unified "old/a.cc" "x" "new/a.cc" "x\n") "old/a.cc" "new/a.cc" := by
  have hne : Text.ofString "x" ≠ Text.ofString "x\n" := by decide
  have hheading : Diff.unified "old/a.cc" "x" "new/a.cc" "x\n"
      = some (Diff.heading "old/a.cc" "new/a.cc") :=
    Diff.unified_of_lines_eq _ _ hne (by decide)
  refine ⟨by decide +kernel, hne, ?_, ?_⟩
  · exact congrArg (·.getD []) hheading
  · rw [hheading]
    exact Diff.not_showsChange_heading _ _

end PointerMigration
