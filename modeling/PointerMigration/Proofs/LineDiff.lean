/-
# Diffs of texts

Lines are compared as runes. As long as there are no more different lines than runes that may stand
in a text, a rune stands for one line, and it is not changed when runes are written as a text and
read back. So a script that leads from the runes of the old lines to the runes of the new ones gives
a diff from the old lines to the new ones, whatever the script is. The hunks printed for it are read
back, stand where they say, and turn the old lines into the new ones.
-/
import PointerMigration.Proofs.Comparison
import PointerMigration.Proofs.HunkReader
import PointerMigration.Proofs.Hunks
import PointerMigration.Proofs.Utf8

namespace PointerMigration

open DiffLine

namespace LineRune

/-! ## One rune for each line -/

/-- The number of runes that may stand in a text, and so of lines that can be told apart. -/
def capacity : Nat := 1112064

/-- The code point for a line number. -/
def codePoint (i : Nat) : Nat := if i < 0xD800 then i else i + 0x800

/-- The rune of a line may stand in a text, as long as there are not too many lines. -/
theorem isValid_codePoint {i : Nat} (h : i < capacity) : Rune.isValid (codePoint i) = true := by
  rw [Rune.isValid_iff]
  unfold codePoint capacity at *
  split <;> omega

theorem codePoint_lt {i : Nat} (h : i < capacity) : codePoint i < 2 ^ 31 := by
  unfold codePoint capacity at *
  split <;> omega

/-- The rune of a line is its number, moved past the surrogates. -/
theorem ofIndex_ofNat {i : Nat} (h : i < capacity) :
    ofIndex (Int64.ofNat i) = Int32.ofNat (codePoint i) := by
  unfold capacity at h
  have hle : (0xD800 : Int64) ≤ Int64.ofNat i ↔ 0xD800 ≤ i :=
    Int64.ofNat_le_iff_le (by decide) (by omega)
  unfold ofIndex codePoint
  by_cases hi : i < 0xD800
  · rw [if_pos hi, if_neg (by rw [hle]; omega)]
    exact Int64.toInt32_ofNat'
  · rw [if_neg hi, if_pos (by rw [hle]; omega)]
    have hsum : Int64.ofNat i + 0x800 = Int64.ofNat (i + 0x800) := (Int64.ofNat_add i 0x800).symm
    rw [hsum]
    exact Int64.toInt32_ofNat'

/-- The line number of a rune is the one it was made for. -/
theorem index_codePoint {i : Nat} (h : i < capacity) :
    (index (Int32.ofNat (codePoint i))).toInt.toNat = i := by
  have hlt := codePoint_lt h
  have hle : (0xE000 : Int32) ≤ Int32.ofNat (codePoint i) ↔ 0xE000 ≤ codePoint i :=
    Int32.ofNat_le_iff_le (by decide) hlt
  unfold index
  unfold capacity at h
  by_cases hi : i < 0xD800
  · have hcode : codePoint i = i := if_pos hi
    rw [hcode] at hle hlt ⊢
    rw [if_neg (by rw [hle]; omega), Int32.toInt_toInt64, Int32.toInt_ofNat_of_lt hlt,
      Int.toNat_natCast]
  · have hcode : codePoint i = i + 0x800 := if_neg hi
    rw [hcode] at hle ⊢
    have hback : Int32.ofNat (i + 0x800) - 0x800 = Int32.ofNat i := by
      rw [Int32.ofNat_add]
      exact Int32.add_sub_cancel _ _
    rw [if_pos (by rw [hle]; omega), hback, Int32.toInt_toInt64, Int32.toInt_ofNat_of_lt (by omega),
      Int.toNat_natCast]

/-- A rune of a table that is small enough stands for the line it was made for. -/
theorem line_ofLine {table : List Text} (hsize : table.length ≤ capacity) {l : Text}
    (hl : l ∈ table) :
    line table (ofLine table l) = l := by
  have hlt : table.idxOf l < table.length := List.idxOf_lt_length_iff.mpr hl
  rw [line, ofLine, ofIndex_ofNat (by omega), index_codePoint (by omega), List.getElem?_idxOf hl]
  rfl

/-- Runes of a table that is small enough are read as they were written. -/
theorem throughText_eq {table : List Text} (hsize : table.length ≤ capacity) {rs : List Int32}
    (h : ∀ r ∈ rs, ∃ l ∈ table, r = ofLine table l) : throughText rs = rs := by
  -- Each rune is a code point that may stand in a text.
  have hcode : ∀ r ∈ rs, ∃ i < capacity, r = Int32.ofNat (codePoint i) := by
    intro r hr
    obtain ⟨l, hl, rfl⟩ := h r hr
    have hlt : table.idxOf l < table.length := List.idxOf_lt_length_iff.mpr hl
    exact ⟨table.idxOf l, by omega, ofIndex_ofNat (by omega)⟩
  have hnat : ∀ i < capacity,
      (if Int32.ofNat (codePoint i) < 0 then Rune.replacement
        else (Int32.ofNat (codePoint i)).toInt.toNat) = codePoint i := by
    intro i hi
    have hint := Int32.toInt_ofNat_of_lt (codePoint_lt hi)
    have hpos : ¬ Int32.ofNat (codePoint i) < 0 := by
      rw [Int32.lt_iff_toInt_lt, hint, Int32.toInt_zero]
      omega
    rw [if_neg hpos, hint, Int.toNat_natCast]
  unfold throughText
  rw [Text.runes_ofRunes]
  · rw [List.map_map]
    conv_rhs => rw [← List.map_id rs]
    refine List.map_congr_left fun r hr => ?_
    obtain ⟨i, hi, rfl⟩ := hcode r hr
    rw [Function.comp_apply, hnat i hi]
    rfl
  · intro n hn
    obtain ⟨r, hr, rfl⟩ := List.mem_map.mp hn
    obtain ⟨i, hi, rfl⟩ := hcode r hr
    rw [hnat i hi]
    exact isValid_codePoint hi

end LineRune

namespace Diff

/-! ## From scripts to lines -/

open LineRune Script

/-- Lines of one change are old lines unless they are inserted, and new lines unless they are
deleted. -/
theorem texts_map (table : List Text) (change : Change) (items : List Int32) :
    oldTexts (items.map fun r => ⟨change, line table r⟩)
        = (if change = .insert then [] else items).map (line table) ∧
      newTexts (items.map fun r => ⟨change, line table r⟩)
        = (if change = .delete then [] else items).map (line table) := by
  have hchanges : (Change.keep != .insert) = true ∧ (Change.keep != .delete) = true ∧
      (Change.delete != .insert) = true ∧ (Change.insert != .delete) = true := by decide
  unfold oldTexts newTexts
  rw [List.filter_map, List.filter_map]
  cases change <;> simp [Function.comp_def, hchanges]

/-- The lines of a script of runes are those that its runes stand for. -/
theorem texts_ofScript (table : List Text) {s : Script Int32}
    (h : ∀ p ∈ s, throughText p.items = p.items) :
    oldTexts (ofScript table s) = (source s).map (line table) ∧
      newTexts (ofScript table s) = (target s).map (line table) := by
  induction s with
  | nil => exact ⟨rfl, rfl⟩
  | cons p s ih =>
      obtain ⟨hold, hnew⟩ := ih fun q hq => h q (List.mem_cons_of_mem p hq)
      have hp := h p (by simp)
      have hcons : ofScript table (p :: s)
          = (p.items.map fun r => ⟨p.change, line table r⟩) ++ ofScript table s := by
        rw [ofScript, List.flatMap_cons, hp]
        rfl
      obtain ⟨hitemsOld, hitemsNew⟩ := texts_map table p.change p.items
      rw [hcons, oldTexts_append, newTexts_append, hold, hnew, source_cons, target_cons,
        List.map_append, List.map_append, hitemsOld, hitemsNew]
      exact ⟨rfl, rfl⟩

/-- All lines of a script are lines of the table. -/
theorem items_subset {s : Script Int32} {a b rs : List Int32} (h : Leads s a b) (ha : a ⊆ rs)
    (hb : b ⊆ rs) :
    ∀ p ∈ s, p.items ⊆ rs := by
  intro p hp r hr
  by_cases hinsert : p.change = .insert
  · refine hb ?_
    rw [← h.target_eq, target, List.mem_flatMap]
    exact ⟨p, hp, by simpa [hinsert] using hr⟩
  · refine ha ?_
    rw [← h.source_eq, source, List.mem_flatMap]
    exact ⟨p, hp, by simpa [hinsert] using hr⟩

/-- The runes of the old lines, as they are compared. -/
def oldRunes (old new : Text) : List Int32 :=
  (Text.lines old).map (ofLine (LineRune.table (Text.lines old) (Text.lines new)))

/-- The runes of the new lines, as they are compared. -/
def newRunes (old new : Text) : List Int32 :=
  (Text.lines new).map (ofLine (LineRune.table (Text.lines old) (Text.lines new)))

/-- A script that leads from the runes of the old lines to those of the new ones gives
a diff of the lines. -/
theorem texts_linesBy {compare : List Int32 → List Int32 → Script Int32} {old new : Text}
    (hsize : (LineRune.table (Text.lines old) (Text.lines new)).length ≤ capacity)
    (hcompare : Leads (compare (oldRunes old new) (newRunes old new)) (oldRunes old new)
    (newRunes old new)) :
    oldTexts (linesBy compare old new) = Text.lines old ∧
      newTexts (linesBy compare old new) = Text.lines new := by
  have hmem : ∀ l ∈ Text.lines old ++ Text.lines new,
      l ∈ LineRune.table (Text.lines old) (Text.lines new) :=
    fun l hl => List.mem_eraseDups.mpr hl
  have hback : ∀ ls ⊆ Text.lines old ++ Text.lines new,
      (ls.map (ofLine (LineRune.table (Text.lines old) (Text.lines new)))).map
        (line (LineRune.table (Text.lines old) (Text.lines new))) = ls := by
    intro ls hls
    rw [List.map_map]
    conv_rhs => rw [← List.map_id ls]
    exact List.map_congr_left fun l hl => line_ofLine hsize (hmem l (hls hl))
  have hitems : ∀ p ∈ compare (oldRunes old new) (newRunes old new),
      throughText p.items = p.items := by
    intro p hp
    refine throughText_eq hsize fun r hr => ?_
    have hrunes : r ∈ oldRunes old new ++ newRunes old new :=
      items_subset hcompare (List.subset_append_left _ _) (List.subset_append_right _ _) p hp hr
    rw [oldRunes, newRunes, ← List.map_append, List.mem_map] at hrunes
    obtain ⟨l, hl, rfl⟩ := hrunes
    exact ⟨l, hmem l hl, rfl⟩
  obtain ⟨hold, hnew⟩ := texts_ofScript (LineRune.table (Text.lines old) (Text.lines new)) hitems
  rw [hcompare.source_eq, oldRunes, hback _ (List.subset_append_left _ _)] at hold
  rw [hcompare.target_eq, newRunes, hback _ (List.subset_append_right _ _)] at hnew
  rw [linesBy, oldTexts_deletesFirst, newTexts_deletesFirst]
  exact ⟨hold, hnew⟩

/-! ## Printed diffs -/

/-- A printed diff: below the heading stand hunks that are a diff of the lines of the two texts. The
heads of the hunks say where they begin and how many lines they have in the one way in which it can
be written (`Hunk.readRange?_eq_some_iff`). -/
def IsPrinted (printed : Option Text) (oldName old newName new : Text) : Prop :=
  ∃ body hs, printed = some (heading oldName newName ++ body) ∧ Hunk.read? body = some hs ∧
    Hunk.IsDiff hs (Text.lines old) (Text.lines new)

/-- What is printed for a script that leads from the old lines to the new ones is a diff of the
texts. -/
theorem isPrinted_unifiedBy {compare : List Int32 → List Int32 → Script Int32} {old new : Text}
    (oldName newName : Text) (hne : old ≠ new)
    (hsize : (LineRune.table (Text.lines old) (Text.lines new)).length ≤ capacity)
    (hcompare : Leads (compare (oldRunes old new) (newRunes old new)) (oldRunes old new)
    (newRunes old new)) :
    IsPrinted (unifiedBy compare oldName old newName new) oldName old newName new := by
  obtain ⟨hold, hnew⟩ := texts_linesBy hsize hcompare
  have hdiff := @Hunk.isDiff_ofLines (linesBy compare old new) (removalsFirst_deletesFirst _)
  rw [hold, hnew] at hdiff
  -- Every line of a hunk is a line of one of the texts, so it can be read back.
  have hclean : ∀ h ∈ Hunk.ofLines (linesBy compare old new), ∀ l ∈ h.lines,
      Text.newline ∉ l.text := by
    intro h hh l hl
    have hmem : l ∈ linesBy compare old new := ((Hunk.covers_ofLines _).isInfix hh).subset hl
    by_cases hinsert : l.change = .insert
    · refine @Text.newline_notMem_of_mem_lines new _ ?_
      rw [← hnew, newTexts]
      exact List.mem_map_of_mem (List.mem_filter.mpr ⟨hmem, by simp [hinsert]⟩)
    · refine @Text.newline_notMem_of_mem_lines old _ ?_
      rw [← hold, oldTexts]
      exact List.mem_map_of_mem (List.mem_filter.mpr ⟨hmem, by simp [hinsert]⟩)
  refine ⟨(Hunk.ofLines (linesBy compare old new)).flatMap Hunk.render, _, ?_,
    Hunk.read?_render hclean, hdiff⟩
  rw [unifiedBy, if_neg hne]

end Diff

/-- The diff of two different texts is a correct diff of their lines, as long as a rune can
be found for each different line, whatever script leads from the runes of the old lines to
those of the new ones. -/
theorem unified_isPrinted {old new : Text} (oldName newName : Text) (hne : old ≠ new)
    (hlines : (Text.lines old ++ Text.lines new).eraseDups.length ≤ 1112064) :
    (∀ compare : List Int32 → List Int32 → Script Int32,
        Script.source (compare (Diff.oldRunes old new) (Diff.newRunes old new))
          = Diff.oldRunes old new →
        Script.target (compare (Diff.oldRunes old new) (Diff.newRunes old new))
          = Diff.newRunes old new →
        Diff.IsPrinted (Diff.unifiedBy compare oldName old newName new) oldName old newName new) ∧
      Diff.IsPrinted (Diff.unified oldName old newName new) oldName old newName new :=
  ⟨fun _ hsource htarget => Diff.isPrinted_unifiedBy oldName newName hne hlines ⟨hsource, htarget⟩,
    Diff.isPrinted_unifiedBy oldName newName hne hlines (Script.leads_compare _ _)⟩

/-- A script that replaces everything gives a correct diff as well as one that keeps the first
line. -/
theorem unified_isPrinted_replaced :
    Diff.IsPrinted (Diff.unifiedBy Script.replace "x" "a\nb\n" "y" "a\nc\n") "x" "a\nb\n"
      "y" "a\nc\n" ∧
      Diff.unifiedBy Script.replace "x" "a\nb\n" "y" "a\nc\n"
        = some ("diff x y\n--- x\n+++ y\n@@ -1,2 +1,2 @@\n-a\n-b\n+a\n+c\n" : Text) ∧
      Diff.IsPrinted (Diff.unified "x" "a\nb\n" "y" "a\nc\n") "x" "a\nb\n" "y" "a\nc\n" ∧
      Diff.unified "x" "a\nb\n" "y" "a\nc\n"
        = some ("diff x y\n--- x\n+++ y\n@@ -1,2 +1,2 @@\n a\n-b\n+c\n" : Text) := by
  have hne : (Text.ofString "a\nb\n" : Text) ≠ Text.ofString "a\nc\n" := by decide
  have hlines : (Text.lines "a\nb\n" ++ Text.lines "a\nc\n").eraseDups.length ≤ 1112064 := by decide
  obtain ⟨hall, hown⟩ := unified_isPrinted "x" "y" hne hlines
  have hleads :=
    Script.leads_replace (Diff.oldRunes "a\nb\n" "a\nc\n") (Diff.newRunes "a\nb\n" "a\nc\n")
  exact ⟨hall Script.replace hleads.source_eq hleads.target_eq, by decide +kernel, hown,
    by decide +kernel⟩

end PointerMigration
