/-
# Streams are read back

What a run of passes writes is read back as what the passes ask for: for each file the replacements
of the passes in order, each of them once, and the header where one of them needs it.
-/
import PointerMigration.Proofs.Merge

namespace PointerMigration

open EditStream

/-! ## The blocks of a run -/

/-- A line of a block is a mark or the line of a record. -/
theorem EditStream.mem_lines_of_blocks {rss : List (List Record)} {line : Text}
    (h : line ∈ rss.flatMap fun rs => blockLines (rs.map Record.line)) :
    IsMark line ∨ ∃ r ∈ rss.flatten, line = r.line := by
  obtain ⟨rs, hrs, hline⟩ := List.mem_flatMap.mp h
  rw [blockLines, List.mem_cons, List.mem_append, List.mem_singleton] at hline
  rcases hline with hline | hline | hline
  · exact Or.inl (Or.inl hline)
  · obtain ⟨r, hr, rfl⟩ := List.mem_map.mp hline
    exact Or.inr ⟨r, List.mem_flatten.mpr ⟨rs, hrs, hr⟩, rfl⟩
  · exact Or.inl (Or.inr hline)

/-- The marks are short lines that end in no carriage return. -/
theorem EditStream.IsMark.spec {line : Text} (h : IsMark line) :
    Text.newline ∉ line ∧ line.length < lineLimit ∧ Text.dropReturn line = line := by
  rcases h with rfl | rfl
  · exact ⟨by decide, by decide, by decide⟩
  · exact ⟨by decide, by decide, by decide⟩

/-- Blocks of records that can be read back are read as these records, each of them once. -/
theorem EditStream.parse_blocks {rss : List (List Record)}
    (hwritable : ∀ r ∈ rss.flatten, r.Writable)
    (hfit : ∀ r ∈ rss.flatten, r.line.length < lineLimit) :
    parse (rss.flatMap block) = .ok (rss.flatten.map Record.plain).eraseDups := by
  have hspec : ∀ line ∈ rss.flatMap fun rs => blockLines (rs.map Record.line),
      Text.newline ∉ line ∧ line.length < lineLimit ∧ Text.dropReturn line = line := by
    intro line hline
    rcases mem_lines_of_blocks hline with hmark | ⟨r, hr, rfl⟩
    · exact hmark.spec
    · exact ⟨(hwritable r hr).isLine.newline_notMem, hfit r hr, (hwritable r hr).dropReturn_line⟩
  have hlines : Text.readLines lineLimit (rss.flatMap block)
      = (rss.flatMap fun rs => blockLines (rs.map Record.line), false) := by
    have hread := Text.readLines_unlines_append (fun line h => (hspec line h).1)
      (fun line h => (hspec line h).2.1) []
    rw [List.append_nil, List.map_congr_left (g := id) fun line h => (hspec line h).2.2,
      List.map_id] at hread
    rw [flatMap_block, hread]
    simp [Text.readLines, Text.lines]
  have hcomplete : completeFrom 1 none (rss.flatMap fun rs => blockLines (rs.map Record.line))
      = (rss.flatten.map Record.line, none) := by
    have hmarks : ∀ ls ∈ rss.map (List.map Record.line), ∀ line ∈ ls, ¬ IsMark line := by
      intro ls hls line hline
      obtain ⟨rs, hrs, rfl⟩ := List.mem_map.mp hls
      obtain ⟨r, hr, rfl⟩ := List.mem_map.mp hline
      have hr' : r ∈ rss.flatten := List.mem_flatten.mpr ⟨rs, hrs, hr⟩
      rw [← (hwritable r hr').dropReturn_line]
      exact r.not_isMark_line
    have hblocks := completeFrom_blocks 1 hmarks []
    rw [List.append_nil, List.flatMap_map] at hblocks
    rw [hblocks, List.map_flatten]
    simp [completeFrom]
  rw [parse_eq hlines hcomplete, readRecords_lines]
  · rfl
  · exact hwritable

/-! ## The patches of a run -/

namespace PatchSet

/-- The replacements for a file, when each record was kept once. -/
theorem filterMap_ownReplacement?_eraseDups (rs : List Record) (name : Text) :
    (rs.map Record.plain).eraseDups.filterMap (ownReplacement? name)
      = (((rs.filterMap Record.replacement?).filter fun r => r.file = name).map
          Replacement.plain).eraseDups := by
  rw [filterMap_eraseDups]
  · congr 1
    induction rs with
    | nil => rfl
    | cons x rs ih =>
        cases x with
        | replace r =>
            have hplain : r.plain.file = r.file := rfl
            by_cases hname : r.file = name
            · simp [ownReplacement?, Record.plain, Record.file, Record.replacement?,
                hplain, hname, ih]
            · simp [ownReplacement?, Record.plain, Record.file, Record.replacement?,
                hplain, hname, ih]
        | header file h =>
            simp [List.filterMap_cons, ownReplacement?, Record.plain, Record.replacement?, ih]
  · intro x _ y _ r hx hy
    rw [(ownReplacement?_eq_some_iff.mp hx).1, (ownReplacement?_eq_some_iff.mp hy).1]

/-- The headers for a file, when each record was kept once and all headers are the same. -/
theorem filterMap_ownHeader?_eraseDups {rs : List Record} {heading : Text}
    (h : ∀ file name, .header file name ∈ rs → name = heading) (name : Text) :
    (rs.map Record.plain).eraseDups.filterMap (ownHeader? name)
      = if .header name heading ∈ rs then [heading] else [] := by
  have hmem : ∀ t, t ∈ (rs.map Record.plain).filterMap (ownHeader? name) ↔
      .header name t ∈ rs := by
    intro t
    rw [List.filterMap_map, List.mem_filterMap]
    constructor
    · rintro ⟨z, hz, hown⟩
      cases z with
      | replace r => cases hown
      | header file t' => exact ownHeader?_eq_some_iff.mp hown ▸ hz
    · intro ht
      exact ⟨_, ht, by simp [ownHeader?, Record.plain]⟩
  rw [filterMap_eraseDups fun x _ y _ t hx hy =>
    (ownHeader?_eq_some_iff.mp hx).trans (ownHeader?_eq_some_iff.mp hy).symm]
  cases hall : (rs.map Record.plain).filterMap (ownHeader? name) with
  | nil =>
      have hnot : .header name heading ∉ rs := by
        rw [← hmem, hall]
        exact List.not_mem_nil
      rw [if_neg hnot]
      rfl
  | cons t ts =>
      have hsame : ∀ t' ∈ t :: ts, t' = heading := by
        intro t' ht'
        rw [← hall, hmem] at ht'
        exact h name t' ht'
      have ht : t = heading := hsame t (by simp)
      have hin : .header name heading ∈ rs := by
        rw [← hmem, hall, ht]
        exact List.mem_cons_self
      have hts : (ts.filter fun t' => !t' == t) = [] := by
        rw [List.filter_eq_nil_iff]
        intro t' ht'
        simp [ht, hsame t' (List.mem_cons_of_mem t ht')]
      rw [if_pos hin, List.eraseDups_cons, hts, ht]
      rfl

end PatchSet

/-- A file needs the header: there is one, and a replacement of some pass asks for it. -/
def NeedsHeader (header : Text) (passes : List Pass) (name : Text) : Prop :=
  header ≠ [] ∧ ∃ p ∈ passes, ∃ r ∈ p.replacements, r.file = name ∧ r.needsHeader = true

instance (header : Text) (passes : List Pass) (name : Text) :
    Decidable (NeedsHeader header passes name) := inferInstanceAs (Decidable (_ ∧ _))

section

variable {passes : List Pass} (hclasses : ∀ p ∈ passes, p.language.hasClasses = true)

include hclasses

theorem Session.writing_eq : writing passes = passes := List.filter_eq_self.mpr hclasses

/-- A run that starts without any header has a header record for each file that needs the header. -/
theorem Session.header_mem_written_iff (header name : Text) :
    .header name header ∈ (written header [] passes).flatten ↔ NeedsHeader header passes name := by
  rw [header_mem_written, writing_eq hclasses]
  constructor
  · rintro ⟨-, -, r, hr, hheader, hneeds, hfile⟩
    obtain ⟨p, hp, hr⟩ := List.mem_flatMap.mp hr
    exact ⟨hheader, p, hp, r, hr, hfile, hneeds⟩
  · rintro ⟨hheader, p, hp, r, hr, hfile, hneeds⟩
    exact ⟨rfl, List.not_mem_nil, r, List.mem_flatMap.mpr ⟨p, hp, hr⟩, hheader, hneeds, hfile⟩

/-- The records of a run are about the files of its replacements. -/
theorem Session.exists_written_file_iff (header name : Text) :
    (∃ x ∈ (written header [] passes).flatten, x.file = name) ↔
      ∃ p ∈ passes, ∃ r ∈ p.replacements, r.file = name := by
  constructor
  · rintro ⟨x, hx, rfl⟩
    obtain ⟨p, hp, r, hr, rfl | ⟨-, rfl⟩⟩ := mem_written hx
    · exact ⟨p, hp, r, hr, rfl⟩
    · exact ⟨p, hp, r, hr, rfl⟩
  · rintro ⟨p, hp, r, hr, rfl⟩
    have hmem : r ∈ (written header [] passes).flatten.filterMap Record.replacement? := by
      rw [filterMap_replacement?_written, writing_eq hclasses]
      exact List.mem_flatMap.mpr ⟨p, hp, hr⟩
    obtain ⟨x, hx, hreplacement⟩ := List.mem_filterMap.mp hmem
    cases x with
    | replace s => exact ⟨_, hx, by rw [← Option.some.inj hreplacement]; rfl⟩
    | header file h => cases hreplacement

end

/-- **Round trip.** The stream of a run whose passes can use the wrapper is read back. The patch
set has the files of the replacements, each once; for each file it has the replacements of the
passes in order, those with equal offset, length and text only where they come first, and the
header if the file needs it. -/
theorem parse_flushAll {header out : Text} {passes : List Pass} {log : List LogEntry}
    (hflush : Command.flushAll { header } passes = (log, out, none))
    (hclasses : ∀ p ∈ passes, p.language.hasClasses = true)
    (hwritable : ∀ p ∈ passes, ∀ r ∈ p.replacements, r.Writable)
    (hheader : Text.newline ∉ header) (hreturn : header.getLast? ≠ some Text.carriageReturn)
    (hfit : ∀ p ∈ passes, ∀ r ∈ p.replacements, (Record.replace r).line.length < lineLimit ∧
      (header ≠ [] → r.needsHeader = true →
        (Record.header r.file header).line.length < lineLimit)) :
    ∃ set, PatchSet.parse out = .ok set ∧
      (set.files.map FilePatch.name).Nodup ∧
      (∀ name, name ∈ set.files.map FilePatch.name ↔
        ∃ p ∈ passes, ∃ r ∈ p.replacements, r.file = name) ∧
      ∀ f ∈ set.files,
        f.replacements = ((passes.flatMap fun p => p.replacements.filter fun r =>
          r.file = f.name).map Replacement.plain).eraseDups ∧
        f.headers = if NeedsHeader header passes f.name then [header] else [] := by
  have hrecords : ∀ x ∈ (Session.written header [] passes).flatten,
      x.Writable ∧ x.line.length < lineLimit := by
    intro x hx
    obtain ⟨p, hp, r, hr, rfl | ⟨hasks, rfl⟩⟩ := Session.mem_written hx
    · exact ⟨hwritable p hp r hr, (hfit p hp r hr).1⟩
    · have hr' := hwritable p hp r hr
      exact ⟨⟨hr'.file_line, hr'.file_field, hheader, hreturn⟩,
        (hfit p hp r hr).2 hasks.1 hasks.2.1⟩
  refine ⟨PatchSet.ofRecords ((Session.written header [] passes).flatten.map
    Record.plain).eraseDups, ?_, PatchSet.nodup_names_ofRecords _, ?_, ?_⟩
  · rw [PatchSet.parse, Session.output_flushAll hflush,
      parse_blocks (fun x hx => (hrecords x hx).1) fun x hx => (hrecords x hx).2]
    rfl
  · intro name
    rw [PatchSet.mem_names_ofRecords, ← Session.exists_written_file_iff hclasses header]
    constructor
    · rintro ⟨x, hx, rfl⟩
      obtain ⟨y, hy, rfl⟩ := List.mem_map.mp (List.mem_eraseDups.mp hx)
      exact ⟨y, hy, y.file_plain.symm⟩
    · rintro ⟨y, hy, rfl⟩
      exact ⟨y.plain, List.mem_eraseDups.mpr (List.mem_map_of_mem hy), y.file_plain⟩
  · intro f hf
    have hpatch := PatchSet.eq_patchFor_of_mem hf
    rw [PatchSet.patchFor_eq, PatchSet.filterMap_ownReplacement?_eraseDups,
      PatchSet.filterMap_ownHeader?_eraseDups
        fun file name h => ((Session.header_mem_written _ _ _ _ _).mp h).1] at hpatch
    constructor
    · rw [congrArg FilePatch.replacements hpatch]
      simp only [Session.filterMap_replacement?_written, Session.writing_eq hclasses,
        List.filter_flatMap]
    · rw [congrArg FilePatch.headers hpatch]
      simp only [Session.header_mem_written_iff hclasses]

/-- Two passes that change one header file alike, the second with a line break and a separator in
it. -/
theorem parse_flushAll_shared :
    ∃ out set, Command.flushAll { header := "c.h" }
        [{ unit := [], language := .cxx, verdicts := [],
           edits := [⟨"a.h", [⟨"a.h", 4, 5, "P<int> ", true⟩]⟩] },
         { unit := [], language := .objCxx, verdicts := [],
           edits := [⟨"a.h", [⟨"a.h", 4, 5, "P<int> ", true⟩, ⟨"a.h", 20, 0, ":::\n:", false⟩]⟩] }]
        = ([], out, none) ∧
      PatchSet.parse out = .ok set ∧
      ∀ f ∈ set.files, f.name = "a.h" →
        f.replacements = [⟨"a.h", 4, 5, "P<int> ", false⟩, ⟨"a.h", 20, 0, ":::\n:", false⟩] ∧
        f.headers = ["c.h"] := by
  have hfirst : Replacement.Writable ⟨"a.h", 4, 5, "P<int> ", true⟩ :=
    ⟨by decide, by decide, by decide, isField_of_notMem (by decide), by decide, by decide⟩
  have hsecond : Replacement.Writable ⟨"a.h", 20, 0, ":::\n:", false⟩ :=
    ⟨by decide, by decide, by decide, isField_of_notMem (by decide), by decide, by decide⟩
  have hflush : Command.flushAll { header := "c.h" }
      [{ unit := [], language := .cxx, verdicts := [],
         edits := [⟨"a.h", [⟨"a.h", 4, 5, "P<int> ", true⟩]⟩] },
       { unit := [], language := .objCxx, verdicts := [],
         edits := [⟨"a.h", [⟨"a.h", 4, 5, "P<int> ", true⟩, ⟨"a.h", 20, 0, ":::\n:", false⟩]⟩] }]
      = ([], _, none) := rfl
  obtain ⟨set, hparse, -, -, hfiles⟩ := parse_flushAll hflush (by decide)
    (by
      intro p hp r hr
      simp only [List.mem_cons, List.not_mem_nil, or_false] at hp
      rcases hp with rfl | rfl
      · simp only [Pass.replacements, List.flatMap_cons, List.flatMap_nil, List.append_nil,
          List.mem_singleton] at hr
        exact hr ▸ hfirst
      · simp only [Pass.replacements, List.flatMap_cons, List.flatMap_nil, List.append_nil,
          List.mem_cons, List.not_mem_nil, or_false] at hr
        rcases hr with rfl | rfl
        · exact hfirst
        · exact hsecond)
    (by decide) (by decide) (by decide)
  refine ⟨_, set, hflush, hparse, fun f hf hname => ?_⟩
  obtain ⟨hreplacements, hheaders⟩ := hfiles f hf
  rw [hreplacements, hheaders, hname]
  exact ⟨by decide, by decide⟩

end PointerMigration
