/-
# Streams cut short

A run that stops early leaves a stream cut short at any byte. The block that was not finished is to
be dropped, also when another stream follows. That is so when the cut is behind a line. A cut inside
a line joins the rest of the line with the first mark of the next stream, so that the mark is not
seen: the two blocks become one, or the next block has no beginning.
-/
import PointerMigration.Proofs.Merge

namespace PointerMigration

namespace EditStream

/-! ## Complete blocks -/

theorem beginMark_ne_nil : beginMark ≠ [] := by decide

/-- Lines that can stand in a block. -/
def IsBody (ls : List Text) : Prop :=
  ∀ line ∈ ls, Text.newline ∉ line ∧ ¬ IsMark (Text.dropReturn line)

instance (ls : List Text) : Decidable (IsBody ls) :=
  inferInstanceAs (Decidable (∀ line ∈ ls, Text.newline ∉ line ∧
    ¬ (Text.dropReturn line = beginMark ∨ Text.dropReturn line = endMark)))

/-- Lines that can stand in a block are not read as marks. -/
theorem IsBody.not_isMark {ls : List Text} (h : IsBody ls) :
    ∀ line ∈ ls.map Text.dropReturn, ¬ IsMark line := by
  intro line hline
  obtain ⟨line, hline', rfl⟩ := List.mem_map.mp hline
  exact (h line hline').2

theorem not_isMark_of_isBody {lss : List (List Text)} (h : ∀ ls ∈ lss, IsBody ls) :
    ∀ ls ∈ lss.map (List.map Text.dropReturn), ∀ line ∈ ls, ¬ IsMark line := by
  intro ls hls
  obtain ⟨ls, hls', rfl⟩ := List.mem_map.mp hls
  exact (h ls hls').not_isMark

/-- A text that consists of complete blocks. -/
def Complete (t : Text) : Prop :=
  ∃ lss : List (List Text), (∀ ls ∈ lss, IsBody ls) ∧ t = Text.unlines (lss.flatMap blockLines)

/-- The longest part of a text from its start on that consists of complete blocks. -/
structure LongestComplete (c p : Text) : Prop where
  complete : Complete c
  starts : c <+: p
  longest : ∀ d, Complete d → d <+: p → d.length ≤ c.length

theorem LongestComplete.unique {c d p : Text} (hc : LongestComplete c p)
    (hd : LongestComplete d p) :
    c = d := by
  have hlength : c.length = d.length :=
    Nat.le_antisymm (hd.longest c hc.complete hc.starts) (hc.longest d hd.complete hd.starts)
  exact (List.prefix_of_prefix_length_le hc.starts hd.starts hlength.le).eq_of_length hlength

/-- The marks end in no carriage return. -/
theorem map_dropReturn_blockLines (ls : List Text) :
    (blockLines ls).map Text.dropReturn = blockLines (ls.map Text.dropReturn) := by
  have hbegin : Text.dropReturn beginMark = beginMark := by decide
  have hend : Text.dropReturn endMark = endMark := by decide
  simp [blockLines, hbegin, hend]

theorem map_dropReturn_blocks (lss : List (List Text)) :
    (lss.flatMap blockLines).map Text.dropReturn
      = (lss.map (List.map Text.dropReturn)).flatMap blockLines := by
  rw [List.map_flatMap, List.flatMap_map]
  simp only [map_dropReturn_blockLines]

/-- The lines of blocks have no newlines inside. -/
theorem newline_notMem_blocks {lss : List (List Text)} (h : ∀ ls ∈ lss, IsBody ls) :
    ∀ line ∈ lss.flatMap blockLines, Text.newline ∉ line := by
  intro line hline
  obtain ⟨ls, hls, hline⟩ := List.mem_flatMap.mp hline
  rw [blockLines, List.mem_cons, List.mem_append, List.mem_singleton] at hline
  rcases hline with rfl | hline | rfl
  · decide
  · exact (h ls hls line hline).1
  · decide

/-- Blocks end with a mark. -/
theorem getLast?_blocks {lss : List (List Text)} (h : lss.flatMap blockLines ≠ []) :
    (lss.flatMap blockLines).getLast? = some endMark := by
  have hlss : lss ≠ [] := fun hnil => h (by rw [hnil, List.flatMap_nil])
  rw [← List.dropLast_concat_getLast hlss, List.flatMap_append, List.flatMap_singleton, blockLines,
    ← List.cons_append, ← List.append_assoc, List.getLast?_concat]

/-- A stream of complete blocks that is not empty starts with a mark. -/
theorem Complete.eq_nil_or {t : Text} (h : Complete t) :
    t = [] ∨ ∃ rest, t = beginMark ++ Text.newline :: rest := by
  obtain ⟨lss, -, rfl⟩ := h
  cases lss with
  | nil => exact Or.inl rfl
  | cons ls lss => exact Or.inr ⟨_, by rw [List.flatMap_cons, blockLines, List.cons_append,
      Text.unlines_cons]⟩

/-- A reader of complete blocks, also of the first lines of them, meets no end without a
beginning. -/
theorem Complete.completeFrom_snd {t : Text} (h : Complete t) (number limit : Nat) :
    (completeFrom number none (Text.readLines limit t).1).2 = none := by
  obtain ⟨lss, hbody, rfl⟩ := h
  have hall :
      (completeFrom number none ((lss.flatMap blockLines).map Text.dropReturn)).2 = none := by
    have hblocks := completeFrom_blocks number (not_isMark_of_isBody hbody) []
    rw [List.append_nil] at hblocks
    rw [map_dropReturn_blocks, hblocks]
    rfl
  have hsplit : (lss.flatMap blockLines).map Text.dropReturn
      = ((lss.flatMap blockLines).takeWhile fun line => line.length < limit).map Text.dropReturn ++
        ((lss.flatMap blockLines).dropWhile fun line => line.length < limit).map
          Text.dropReturn := by
    rw [← List.map_append, List.takeWhile_append_dropWhile]
  rw [hsplit] at hall
  rw [Text.readLines, Text.lines_unlines (newline_notMem_blocks hbody)]
  exact completeFrom_of_append hall

/-- A line that ends with the mark of a block ends in no carriage return. -/
theorem dropReturn_append_beginMark (part : Text) :
    Text.dropReturn (part ++ beginMark) = part ++ beginMark := by
  apply Text.dropReturn_of_getLast?
  rw [List.getLast?_append_of_ne_nil part beginMark_ne_nil]
  decide

/-- The mark of a block is not seen behind a part of a line. -/
theorem not_isMark_append_beginMark {part : Text} (h : part ≠ []) :
    ¬ IsMark (part ++ beginMark) := by
  have hlength : 0 < part.length := List.length_pos_iff.mpr h
  have hbegin : beginMark.length = 21 := by decide
  have hend : endMark.length = 19 := by decide
  rintro (hmark | hmark)
  · have := congrArg List.length hmark
    rw [List.length_append] at this
    omega
  · have := congrArg List.length hmark
    rw [List.length_append, hend] at this
    omega

/-- A part of a line in front of a block is one line with the mark of the block. -/
theorem lines_joined {part : Text} (hpart : Text.newline ∉ part) (rest : Text) :
    Text.lines (part ++ (beginMark ++ Text.newline :: rest))
      = (part ++ beginMark) :: Text.lines rest := by
  have hjoined : ∀ line ∈ [part ++ beginMark], Text.newline ∉ line := by
    intro line hline
    rw [List.mem_singleton.mp hline, List.mem_append, not_or]
    exact ⟨hpart, by decide⟩
  have hlines : part ++ (beginMark ++ Text.newline :: rest)
      = Text.unlines [part ++ beginMark] ++ rest := by simp
  rw [hlines, Text.lines_unlines_append hjoined, List.singleton_append]

/-- The line fits if no line of the stream is too long. -/
theorem length_joined {part : Text} (hpart : Text.newline ∉ part) {rest : Text}
    (h : (Text.readLines lineLimit (part ++ (beginMark ++ Text.newline :: rest))).2 = false) :
    (part ++ beginMark).length < lineLimit := by
  rw [Text.readLines, lines_joined hpart, List.any_cons, Bool.or_eq_false_iff] at h
  exact Nat.lt_of_not_le (of_decide_eq_false h.1)

/-- It is read as this line if it fits. -/
theorem readLines_joined {part : Text} (hpart : Text.newline ∉ part)
    (hfit : (part ++ beginMark).length < lineLimit) (rest : Text) :
    Text.readLines lineLimit (part ++ (beginMark ++ Text.newline :: rest))
      = ((part ++ beginMark) :: (Text.readLines lineLimit rest).1,
          (Text.readLines lineLimit rest).2) := by
  have hshort : ¬ lineLimit ≤ (part ++ beginMark).length := by omega
  rw [Text.readLines, lines_joined hpart, List.takeWhile_cons, if_pos (decide_eq_true hfit),
    List.map_cons, dropReturn_append_beginMark, List.any_cons, decide_eq_false hshort,
    Bool.false_or]
  rfl

theorem readLines_beginMark (rest : Text) :
    Text.readLines lineLimit (beginMark ++ Text.newline :: rest)
      = (beginMark :: (Text.readLines lineLimit rest).1, (Text.readLines lineLimit rest).2) :=
  readLines_joined List.not_mem_nil (by decide) rest

/-- The first line that is read of complete blocks is a mark, if there is any. -/
theorem Complete.readLines_starts {t : Text} (h : Complete t) :
    (Text.readLines lineLimit t).1 = [] ∨
      ∃ rest, (Text.readLines lineLimit t).1 = beginMark :: rest := by
  rcases h.eq_nil_or with rfl | ⟨rest, rfl⟩
  · exact Or.inl rfl
  · exact Or.inr ⟨_, by rw [readLines_beginMark]⟩

/-- What a run writes consists of complete blocks, if no name has a newline. -/
theorem complete_written {rss : List (List Record)} (h : ∀ r ∈ rss.flatten, r.IsLine) :
    Complete (rss.flatMap block) := by
  refine ⟨rss.map (List.map Record.line), ?_, ?_⟩
  · intro ls hls line hline
    obtain ⟨rs, hrs, rfl⟩ := List.mem_map.mp hls
    obtain ⟨r, hr, rfl⟩ := List.mem_map.mp hline
    exact ⟨(h r (List.mem_flatten.mpr ⟨rs, hrs, hr⟩)).newline_notMem, r.not_isMark_line⟩
  · rw [flatMap_block, List.flatMap_map]

/-! ## Where a cut falls -/

/-- Lines at the start of blocks are complete blocks and the first lines of one more. -/
theorem exists_open_block {lss : List (List Text)} {before rest : List Text}
    (h : lss.flatMap blockLines = before ++ rest) :
    ∃ done more opened, lss = done ++ more ∧ before = done.flatMap blockLines ++ opened ∧
      ((opened = [] ∧ rest = more.flatMap blockLines) ∨
        ∃ ls ∈ more, ∃ first last, ls = first ++ last ∧ opened = beginMark :: first) := by
  induction lss generalizing before with
  | nil =>
      obtain ⟨rfl, rfl⟩ := List.append_eq_nil_iff.mp h.symm
      exact ⟨[], [], [], rfl, rfl, Or.inl ⟨rfl, rfl⟩⟩
  | cons ls lss ih =>
      -- The lines end in a later block, or in this one, which then may be complete.
      rw [List.flatMap_cons] at h
      rcases List.append_eq_append_iff.mp h with ⟨before', rfl, hrest⟩ | ⟨tail, hblock, rfl⟩
      · obtain ⟨done, more, opened, rfl, rfl, hopened⟩ := ih hrest
        refine ⟨ls :: done, more, opened, rfl, ?_, hopened⟩
        rw [List.flatMap_cons, List.append_assoc]
      · cases before with
        | nil =>
            refine ⟨[], ls :: lss, [], rfl, rfl, Or.inl ⟨rfl, ?_⟩⟩
            rw [List.flatMap_cons, hblock, List.nil_append]
        | cons b first =>
            have hls : ls ++ [endMark] = first ++ tail := (List.cons.inj hblock).2
            obtain rfl : beginMark = b := (List.cons.inj hblock).1
            rcases List.eq_nil_or_concat tail with rfl | ⟨last, b, rfl⟩
            · refine ⟨[ls], lss, [], rfl, ?_, Or.inl ⟨rfl, rfl⟩⟩
              rw [← List.append_nil (beginMark :: first), ← hblock]
              simp
            · rw [List.concat_eq_append, ← List.append_assoc] at hls
              exact ⟨[], ls :: lss, beginMark :: first, rfl, rfl, Or.inr
                ⟨ls, by simp, first, last, (List.append_inj' hls rfl).1, rfl⟩⟩

/-- How a stream of blocks is cut: complete blocks, lines of a block that is open, and a part of a
line. The part is one of the first mark if no block is open. -/
structure Cut (lss done : List (List Text)) (opened : List Text) (part p : Text) : Prop where
  text_eq : p = Text.unlines (done.flatMap blockLines ++ opened) ++ part
  done_body : ∀ ls ∈ done, IsBody ls
  lines_mem : ∀ line ∈ done.flatMap blockLines ++ opened, line ∈ lss.flatMap blockLines
  kept_start : ∃ later, lss.flatten = done.flatten ++ later
  part_starts : part = [] ∨ ∃ line ∈ lss.flatMap blockLines, part <+: line
  opened_eq : (opened = [] ∧ part <+: beginMark) ∨ ∃ ls, IsBody ls ∧ opened = beginMark :: ls

/-- Every cut of a stream of blocks is of this form. -/
theorem exists_cut {lss : List (List Text)} (hbody : ∀ ls ∈ lss, IsBody ls) {p : Text}
    (h : p <+: Text.unlines (lss.flatMap blockLines)) :
    ∃ done opened part, Cut lss done opened part p := by
  obtain ⟨before, rest, part, hlines, rfl, hpart⟩ := Text.exists_of_isPrefix_unlines h
  obtain ⟨done, more, opened, rfl, rfl, hopened⟩ := exists_open_block hlines
  have hstarts : part = [] ∨ ∃ line later, rest = line :: later ∧ part <+: line :=
    hpart.imp_right fun hsome => hsome.2
  refine ⟨done, opened, part, rfl, fun ls hls => hbody ls (List.mem_append_left _ hls), ?_,
    ⟨more.flatten, List.flatten_append⟩, ?_, ?_⟩
  · intro line hline
    rw [hlines]
    exact List.mem_append_left _ hline
  · refine hstarts.imp_right fun ⟨line, later, hrest, hline⟩ => ⟨line, ?_, hline⟩
    rw [hlines, hrest]
    exact List.mem_append_right _ (by simp)
  · rcases hopened with ⟨rfl, rfl⟩ | ⟨ls, hls, first, last, rfl, rfl⟩
    · refine Or.inl ⟨rfl, ?_⟩
      rcases hstarts with rfl | ⟨line, later, hmore, hline⟩
      · exact List.nil_prefix
      · cases more with
        | nil => cases hmore
        | cons ls more =>
            obtain ⟨rfl, -⟩ := List.cons.inj hmore
            exact hline
    · refine Or.inr ⟨first, fun line hline => ?_, rfl⟩
      exact hbody _ (List.mem_append_right _ hls) line (List.mem_append_left _ hline)

section

variable {lss done : List (List Text)} {opened : List Text} {part p c : Text}
variable (hcut : Cut lss done opened part p) (hbody : ∀ ls ∈ lss, IsBody ls)

include hcut hbody

/-- The part of a line has no newline. -/
theorem Cut.newline_notMem_part : Text.newline ∉ part := by
  rcases hcut.part_starts with rfl | ⟨line, hline, hpart⟩
  · exact List.not_mem_nil
  · exact fun hmem => newline_notMem_blocks hbody line hline (hpart.subset hmem)

theorem Cut.newline_notMem_lines :
    ∀ line ∈ done.flatMap blockLines ++ opened, Text.newline ∉ line :=
  fun line hline => newline_notMem_blocks hbody line (hcut.lines_mem line hline)

omit hbody in
/-- The lines of the open block as they are read. -/
theorem Cut.opened_lines :
    opened.map Text.dropReturn = [] ∨ ∃ ls, (∀ line ∈ ls, ¬ IsMark line) ∧
      opened.map Text.dropReturn = beginMark :: ls := by
  rcases hcut.opened_eq with ⟨rfl, -⟩ | ⟨ls, hls, rfl⟩
  · exact Or.inl rfl
  · exact Or.inr ⟨ls.map Text.dropReturn, hls.not_isMark, rfl⟩

omit hbody in
/-- No line of the open block is its end. -/
theorem Cut.endMark_notMem_opened : endMark ∉ opened := by
  rcases hcut.opened_eq with ⟨rfl, -⟩ | ⟨ls, hls, rfl⟩
  · exact List.not_mem_nil
  · rw [List.mem_cons, not_or]
    refine ⟨by decide, fun hmem => ?_⟩
    exact (hls endMark hmem).2 (Or.inr (by decide))

/-- The longest part that consists of complete blocks ends before the open block. -/
theorem Cut.longestComplete : LongestComplete (Text.unlines (done.flatMap blockLines)) p := by
  have hp : p = Text.unlines (done.flatMap blockLines) ++ (Text.unlines opened ++ part) := by
    rw [hcut.text_eq, Text.unlines_append, List.append_assoc]
  have hdone : Text.unlines (done.flatMap blockLines) <+: p := hp ▸ List.prefix_append _ _
  refine ⟨⟨done, hcut.done_body, rfl⟩, hdone, fun d hcomplete hstarts => ?_⟩
  rcases List.prefix_or_prefix_of_prefix hstarts hdone with hshort | ⟨more, rfl⟩
  · exact hshort.length_le
  by_cases hmore : more = []
  · rw [hmore, List.append_nil]
  · -- More lines of the open block would end with the end of a block.
    exfalso
    obtain ⟨mss, hmss, hcomplete⟩ := hcomplete
    have hne : mss.flatMap blockLines ≠ [] := by
      intro hnil
      rw [hnil, Text.unlines_nil] at hcomplete
      exact hmore (List.append_eq_nil_iff.mp hcomplete).2
    have hlast : more.getLast? = some Text.newline := by
      rw [← List.getLast?_append_of_ne_nil (Text.unlines (done.flatMap blockLines)) hmore,
        hcomplete]
      exact Text.getLast?_unlines hne
    rw [hp, List.prefix_append_right_inj] at hstarts
    obtain ⟨before, rest, hopened, rfl⟩ := Text.exists_of_isPrefix_of_getLast?
      (fun line hline => hcut.newline_notMem_lines hbody line (List.mem_append_right _ hline))
      (hcut.newline_notMem_part hbody) hstarts hlast
    have hlines : mss.flatMap blockLines = done.flatMap blockLines ++ before := by
      rw [← Text.lines_unlines (newline_notMem_blocks hmss), ← hcomplete, ← Text.unlines_append]
      refine Text.lines_unlines fun line hline => hcut.newline_notMem_lines hbody line ?_
      rw [hopened, ← List.append_assoc]
      exact List.mem_append_left _ hline
    have hbefore : before ≠ [] := fun hnil => hmore (by rw [hnil, Text.unlines_nil])
    have hend : before.getLast? = some endMark := by
      rw [← List.getLast?_append_of_ne_nil (done.flatMap blockLines) hbefore, ← hlines]
      exact getLast?_blocks hne
    apply hcut.endMark_notMem_opened
    rw [hopened]
    exact List.mem_append_left _ (List.mem_of_getLast? hend)

end

/-! ## Reading on behind a cut -/

/-- A whole stream is a cut without an open block. -/
theorem cut_whole {lss : List (List Text)} (hbody : ∀ ls ∈ lss, IsBody ls) :
    Cut lss lss [] [] (Text.unlines (lss.flatMap blockLines)) where
  text_eq := by simp
  done_body := hbody
  lines_mem line hline := by rwa [List.append_nil] at hline
  kept_start := ⟨[], (List.append_nil _).symm⟩
  part_starts := Or.inl rfl
  opened_eq := Or.inl ⟨rfl, List.nil_prefix⟩

/-- The lines of an open block are dropped when a block begins, or when nothing follows. -/
theorem completeFrom_opened {opened ls : List Text}
    (hopened : opened = [] ∨ ∃ first, (∀ line ∈ first, ¬ IsMark line) ∧ opened = beginMark :: first)
    (hls : ls = [] ∨ ∃ rest, ls = beginMark :: rest) :
    (completeFrom 1 none (opened ++ ls)).1 = (completeFrom 1 none ls).1 ∧
      ((completeFrom 1 none (opened ++ ls)).2 = none ↔ (completeFrom 1 none ls).2 = none) := by
  rcases hopened with rfl | ⟨first, hfirst, rfl⟩
  · exact ⟨rfl, Iff.rfl⟩
  · rw [List.cons_append, completeFrom_begin, completeFrom_lines _ hfirst]
    rcases hls with rfl | ⟨rest, rfl⟩
    · simp [completeFrom]
    · rw [completeFrom_begin, completeFrom_begin]
      exact completeFrom_number _ _ _ _

/-- The texts of the records that are kept of a stream, as often as they come. -/
def kept (stream : Text) : List Text :=
  (completeFrom 1 none (Text.readLines lineLimit stream).1).1

/-- A stream that ends behind a line. -/
def IsLineCut (p : Text) : Prop := p = [] ∨ p.getLast? = some Text.newline

/-- The lines behind the complete blocks `c` of a stream, as they are read when a block follows. -/
def pendingLines (c p : Text) : List Text :=
  (Text.lines (p.drop c.length ++ beginMark)).map Text.dropReturn

/-- A block is open, and the complete blocks have all that is then read as its records. -/
def Repeats (c p : Text) : Prop :=
  ∃ rest, pendingLines c p = beginMark :: rest ∧ ∀ line ∈ rest, line ∈ kept c

/-- Streams without faults in their lines are read alike if they keep the same records. -/
theorem parse_congr {s t : Text}
    (hlong : (Text.readLines lineLimit s).2 = (Text.readLines lineLimit t).2)
    (hs : (completeFrom 1 none (Text.readLines lineLimit s).1).2 = none)
    (ht : (completeFrom 1 none (Text.readLines lineLimit t).1).2 = none)
    (hkept : (kept s).eraseDups = (kept t).eraseDups) : parse s = parse t := by
  have hrecords : readRecords (kept s) = readRecords (kept t) := by
    rw [readRecords, readRecords, hkept]
  unfold kept at hrecords
  rw [parse_eq_bind, parse_eq_bind, hs, ht, hlong, hrecords]

section

variable {lss done : List (List Text)} {opened : List Text} {part p c : Text}
variable (hcut : Cut lss done opened part p) (hbody : ∀ ls ∈ lss, IsBody ls)

include hcut hbody

/-- A cut is behind a line exactly when no part of a line is left. -/
theorem Cut.isLineCut_iff : IsLineCut p ↔ part = [] := by
  rw [hcut.text_eq, IsLineCut]
  constructor
  · intro h
    by_contra hpart
    rcases h with h | h
    · exact hpart (List.append_eq_nil_iff.mp h).2
    · rw [List.getLast?_append_of_ne_nil _ hpart] at h
      exact hcut.newline_notMem_part hbody (List.mem_of_getLast? h)
  · rintro rfl
    rw [List.append_nil]
    by_cases hlines : done.flatMap blockLines ++ opened = []
    · exact Or.inl (by rw [hlines, Text.unlines_nil])
    · exact Or.inr (Text.getLast?_unlines hlines)

/-- The lines of the open block, the last of them joined with the mark. -/
theorem Cut.pendingLines_eq :
    pendingLines (Text.unlines (done.flatMap blockLines)) p
      = opened.map Text.dropReturn ++ [part ++ beginMark] := by
  have hjoined : Text.newline ∉ part ++ beginMark := by
    rw [List.mem_append, not_or]
    exact ⟨hcut.newline_notMem_part hbody, by decide⟩
  have hdrop : p.drop (Text.unlines (done.flatMap blockLines)).length
      = Text.unlines opened ++ part := by
    rw [hcut.text_eq, Text.unlines_append, List.append_assoc, List.drop_left]
  rw [pendingLines, hdrop, List.append_assoc, Text.lines_unlines_append
    (fun line hline => hcut.newline_notMem_lines hbody line (List.mem_append_right _ hline)),
    Text.lines_of_notMem hjoined, if_neg (by simp [beginMark_ne_nil]), List.map_append,
    List.map_singleton, dropReturn_append_beginMark]

variable (hfit : ∀ line ∈ lss.flatMap blockLines, line.length < lineLimit)

include hfit

/-- What is read of a stream that is cut and goes on with a text. -/
theorem Cut.readLines_append (t : Text) :
    Text.readLines lineLimit (p ++ t)
      = ((done.map (List.map Text.dropReturn)).flatMap blockLines ++
            (opened.map Text.dropReturn ++ (Text.readLines lineLimit (part ++ t)).1),
          (Text.readLines lineLimit (part ++ t)).2) := by
  rw [hcut.text_eq, List.append_assoc, Text.readLines_unlines_append
    (hcut.newline_notMem_lines hbody) fun line hline => hfit line (hcut.lines_mem line hline)]
  rw [List.map_append, map_dropReturn_blocks, List.append_assoc]

/-- The records of the complete blocks come first, then what the open block and the text give. -/
theorem Cut.completeFrom_append (t : Text) :
    kept (p ++ t) = done.flatten.map Text.dropReturn ++ (completeFrom 1 none
        (opened.map Text.dropReturn ++ (Text.readLines lineLimit (part ++ t)).1)).1 ∧
      ((completeFrom 1 none (Text.readLines lineLimit (p ++ t)).1).2 = none ↔
        (completeFrom 1 none
          (opened.map Text.dropReturn ++ (Text.readLines lineLimit (part ++ t)).1)).2 = none) := by
  rw [kept, hcut.readLines_append hbody hfit t,
    completeFrom_blocks 1 (not_isMark_of_isBody hcut.done_body), List.map_flatten]
  obtain ⟨hfirst, hnone⟩ := completeFrom_number
    (1 + ((done.map (List.map Text.dropReturn)).flatMap blockLines).length) 1 none
    (opened.map Text.dropReturn ++ (Text.readLines lineLimit (part ++ t)).1)
  exact ⟨by rw [hfirst], hnone⟩

omit hbody in
theorem Cut.done_fit : ∀ line ∈ done.flatMap blockLines, line.length < lineLimit :=
  fun line hline => hfit line (hcut.lines_mem line (List.mem_append_left _ hline))

omit hbody in
/-- What is read of the complete blocks and of a text behind them. -/
theorem Cut.complete_append (t : Text) :
    (Text.readLines lineLimit (Text.unlines (done.flatMap blockLines) ++ t)).2
        = (Text.readLines lineLimit t).2 ∧
      kept (Text.unlines (done.flatMap blockLines) ++ t)
        = done.flatten.map Text.dropReturn ++ kept t ∧
      ((completeFrom 1 none
          (Text.readLines lineLimit (Text.unlines (done.flatMap blockLines) ++ t)).1).2 = none ↔
        (completeFrom 1 none (Text.readLines lineLimit t).1).2 = none) := by
  have hwhole := cut_whole hcut.done_body
  have hdone := hcut.done_fit hfit
  refine ⟨?_, hwhole.completeFrom_append hcut.done_body hdone t⟩
  rw [hwhole.readLines_append hcut.done_body hdone, List.nil_append]

omit hbody in
/-- The complete blocks have their records. -/
theorem Cut.kept_eq :
    kept (Text.unlines (done.flatMap blockLines)) = done.flatten.map Text.dropReturn := by
  have hkept := (hcut.complete_append hfit []).2.1
  have hnil : kept [] = [] := rfl
  rwa [List.append_nil, hnil, List.append_nil] at hkept

/-- A cut behind a line drops the open block. -/
theorem Cut.parse_append_of_line (hpart : part = []) {t : Text} (ht : Complete t) :
    parse (p ++ t) = parse (Text.unlines (done.flatMap blockLines) ++ t) := by
  obtain ⟨hkept, hnone⟩ := hcut.completeFrom_append hbody hfit t
  obtain ⟨hlong', hkept', hnone'⟩ := hcut.complete_append hfit t
  rw [hpart, List.nil_append] at hkept hnone
  have hclean := ht.completeFrom_snd 1 lineLimit
  have hopened := completeFrom_opened hcut.opened_lines ht.readLines_starts
  apply parse_congr
  · rw [hcut.readLines_append hbody hfit, hpart, hlong', List.nil_append]
  · exact hnone.mpr (hopened.2.mpr hclean)
  · exact hnone'.mpr hclean
  · rw [hkept, hkept', hopened.1, kept]

section

variable {ls : List Text} (hls : IsBody ls) (hopened : opened = beginMark :: ls)

include hls hopened

/-- The lines of the open block are pending when the part of a line is read. -/
theorem Cut.completeFrom_opened (t : Text) :
    kept (p ++ t) = done.flatten.map Text.dropReturn ++
        (completeFrom 1 (some (ls.map Text.dropReturn).reverse)
          (Text.readLines lineLimit (part ++ t)).1).1 ∧
      ((completeFrom 1 none (Text.readLines lineLimit (p ++ t)).1).2 = none ↔
        (completeFrom 1 (some (ls.map Text.dropReturn).reverse)
          (Text.readLines lineLimit (part ++ t)).1).2 = none) := by
  obtain ⟨hkept, hnone⟩ := hcut.completeFrom_append hbody hfit t
  have hbegin : Text.dropReturn beginMark = beginMark := by decide
  rw [hopened, List.map_cons, hbegin, List.cons_append, completeFrom_begin,
    completeFrom_lines _ hls.not_isMark, List.append_nil] at hkept hnone
  obtain ⟨hfirst, hsecond⟩ := completeFrom_number (1 + 1 + (ls.map Text.dropReturn).length) 1
    (some (ls.map Text.dropReturn).reverse) (Text.readLines lineLimit (part ++ t)).1
  exact ⟨by rw [hkept, hfirst], hnone.trans hsecond⟩

/-- The mark of the next block is not seen behind a part of a line, so that its lines come behind
those of the open block and the line that the mark is part of. -/
theorem Cut.completeFrom_joined (hpart : part ≠ [])
    (hjoined : (part ++ beginMark).length < lineLimit) (rest : Text) :
    kept (p ++ (beginMark ++ Text.newline :: rest)) = done.flatten.map Text.dropReturn ++
        (completeFrom 1 (some ((part ++ beginMark) :: (ls.map Text.dropReturn).reverse))
          (Text.readLines lineLimit rest).1).1 ∧
      ((completeFrom 1 none
          (Text.readLines lineLimit (p ++ (beginMark ++ Text.newline :: rest))).1).2 = none ↔
        (completeFrom 1 (some ((part ++ beginMark) :: (ls.map Text.dropReturn).reverse))
          (Text.readLines lineLimit rest).1).2 = none) := by
  obtain ⟨hkept, hnone⟩ := hcut.completeFrom_opened hbody hfit hls hopened
    (beginMark ++ Text.newline :: rest)
  rw [readLines_joined (hcut.newline_notMem_part hbody) hjoined,
    completeFrom_line _ (not_isMark_append_beginMark hpart), Option.map_some] at hkept hnone
  obtain ⟨hfirst, hsecond⟩ := completeFrom_number (1 + 1) 1
    (some ((part ++ beginMark) :: (ls.map Text.dropReturn).reverse))
    (Text.readLines lineLimit rest).1
  exact ⟨by rw [hkept, hfirst], hnone.trans hsecond⟩

/-- The lines of the open block, the last joined with the mark, are read as records of the
next block, or dropped. -/
theorem Cut.pending_kept_or_dropped (hpart : part ≠ [])
    (hjoined : (part ++ beginMark).length < lineLimit) {t : Text} (ht : Complete t) :
    (Text.readLines lineLimit (p ++ t)).2 = (Text.readLines lineLimit t).2 ∧
      (completeFrom 1 none (Text.readLines lineLimit (p ++ t)).1).2 = none ∧
      ∃ pending, pending ⊆ ls.map Text.dropReturn ++ [part ++ beginMark] ∧
        kept (p ++ t) = done.flatten.map Text.dropReturn ++ (pending ++ kept t) := by
  have hnewline := hcut.newline_notMem_part hbody
  have hlong : (Text.readLines lineLimit (p ++ t)).2
      = (Text.readLines lineLimit (part ++ t)).2 := by
    rw [hcut.readLines_append hbody hfit]
  rcases ht.eq_nil_or with rfl | ⟨rest, rfl⟩
  · -- Nothing follows: the part of a line is a line, and it may be the end of the block.
    have hread : Text.readLines lineLimit (part ++ []) = ([Text.dropReturn part], false) := by
      rw [List.append_nil]
      refine Text.readLines_of_notMem hnewline hpart ?_
      rw [List.length_append] at hjoined
      omega
    obtain ⟨hkept, hnone⟩ := hcut.completeFrom_opened hbody hfit hls hopened []
    rw [hread] at hkept hnone hlong
    by_cases hmark : IsMark (Text.dropReturn part)
    · rcases hmark with hmark | hmark
      · rw [hmark, completeFrom_begin] at hkept hnone
        exact ⟨hlong, hnone.mpr rfl, [], List.nil_subset _, hkept⟩
      · rw [hmark, completeFrom_end, List.reverse_reverse] at hkept hnone
        exact ⟨hlong, hnone.mpr rfl, ls.map Text.dropReturn, List.subset_append_left _ _, hkept⟩
    · rw [completeFrom_line _ hmark] at hkept hnone
      exact ⟨hlong, hnone.mpr rfl, [], List.nil_subset _, hkept⟩
  · obtain ⟨hkept, hnone⟩ := hcut.completeFrom_joined hbody hfit hls hopened hpart hjoined rest
    obtain ⟨hfirst, hsecond⟩ := completeFrom_number 1 (1 + 1) (some [])
      (Text.readLines lineLimit rest).1
    have hclean := ht.completeFrom_snd 1 lineLimit
    rw [readLines_beginMark, completeFrom_begin] at hclean
    have hkeptNext : kept (beginMark ++ Text.newline :: rest)
        = (completeFrom 1 (some []) (Text.readLines lineLimit rest).1).1 := by
      rw [kept, readLines_beginMark, completeFrom_begin, hfirst]
    rw [readLines_joined hnewline hjoined] at hlong
    rw [readLines_beginMark, hkeptNext]
    rcases completeFrom_pending 1 [] ((part ++ beginMark) :: (ls.map Text.dropReturn).reverse)
        (Text.readLines lineLimit rest).1 with hpending | hpending
    · rw [List.nil_append] at hpending
      rw [hpending] at hkept hnone
      refine ⟨hlong, hnone.mpr (hsecond.mpr hclean), _, List.Subset.refl _, ?_⟩
      rw [hkept, List.reverse_cons, List.reverse_reverse]
    · rw [List.nil_append] at hpending
      rw [hpending] at hkept hnone
      exact ⟨hlong, hnone.mpr (hsecond.mpr hclean), [], List.nil_subset _, hkept⟩

/-- Nothing changes behind a cut if the open block repeats records. -/
theorem Cut.parse_append_of_repeats (hpart : part ≠ [])
    (hrepeats : ls.map Text.dropReturn ++ [part ++ beginMark] ⊆ done.flatten.map Text.dropReturn)
    {t : Text} (ht : Complete t) :
    parse (p ++ t) = parse (Text.unlines (done.flatMap blockLines) ++ t) := by
  -- The joined line fits, because it is one of the lines that were read before.
  have hjoined : (part ++ beginMark).length < lineLimit := by
    obtain ⟨line, hline, heq⟩ := List.mem_map.mp
      (hrepeats (List.mem_append_right _ (List.mem_singleton_self (part ++ beginMark))))
    obtain ⟨ms, hms, hline⟩ := List.mem_flatten.mp hline
    have hlength := hfit line (hcut.lines_mem line (List.mem_append_left _
      (List.mem_flatMap.mpr ⟨ms, hms, by simp [blockLines, hline]⟩)))
    have := (Text.dropReturn_isPrefix line).length_le
    rw [← heq]
    omega
  obtain ⟨hlong, hnone, pending, hpending, hkept⟩ :=
    hcut.pending_kept_or_dropped hbody hfit hls hopened hpart hjoined ht
  obtain ⟨hlong', hkept', hnone'⟩ := hcut.complete_append hfit t
  apply parse_congr
  · rw [hlong, hlong']
  · exact hnone
  · exact hnone'.mpr (ht.completeFrom_snd 1 lineLimit)
  · rw [hkept, hkept', eraseDups_append_of_subset (List.Subset.trans hpending hrepeats)]

end

omit hbody in
/-- A block without records adds nothing to the records of the complete blocks. -/
theorem Cut.parse_append_block_nil {rs : List Record}
    (hrs : readRecords (done.flatten.map Text.dropReturn) = .ok rs) :
    parse (Text.unlines (done.flatMap blockLines) ++ block []) = .ok rs := by
  obtain ⟨hlong, hkept, hnone⟩ := hcut.complete_append hfit (block [])
  have hnil : kept (block []) = [] := by decide
  rw [parse_eq_ok_iff]
  refine ⟨hlong.trans (by decide), hnone.mpr (by decide), ?_⟩
  rw [← kept, hkept, hnil, List.append_nil, hrs]

/-- If a block without records leaves the records as they are behind a part of a line, then a block
is open that repeats records. -/
theorem Cut.repeats_of_parse_append (hpart : part ≠ []) {rs rs' : List Record}
    (hrs : readRecords (done.flatten.map Text.dropReturn) = .ok rs)
    (hrs' : parse (p ++ block []) = .ok rs') (hlength : rs'.length = rs.length) :
    ∃ ls, opened = beginMark :: ls ∧
      ls.map Text.dropReturn ++ [part ++ beginMark] ⊆ done.flatten.map Text.dropReturn := by
  have hblock : block [] = beginMark ++ Text.newline :: (endMark ++ [Text.newline]) := by decide
  have hend : Text.readLines lineLimit (endMark ++ [Text.newline]) = ([endMark], false) := by decide
  have hnewline := hcut.newline_notMem_part hbody
  rw [hblock] at hrs'
  obtain ⟨hlong, hnone, hrecords⟩ := parse_eq_ok_iff.mp hrs'
  have hjoined : (part ++ beginMark).length < lineLimit := by
    rw [hcut.readLines_append hbody hfit] at hlong
    exact length_joined hnewline hlong
  rcases hcut.opened_eq with ⟨hopened, -⟩ | ⟨ls, hls, hopened⟩
  · -- No block is open, so that the block without records ends without a beginning.
    rw [(hcut.completeFrom_append hbody hfit _).2, hopened, List.map_nil, List.nil_append,
      readLines_joined hnewline hjoined, hend,
      completeFrom_line _ (not_isMark_append_beginMark hpart)] at hnone
    simp [completeFrom, endMark_ne_beginMark] at hnone
  · refine ⟨ls, hopened, ?_⟩
    have hkept := (hcut.completeFrom_joined hbody hfit hls hopened hpart hjoined
      (endMark ++ [Text.newline])).1
    rw [hend, completeFrom_end, List.reverse_cons, List.reverse_reverse] at hkept
    rw [← kept, hkept] at hrecords
    apply subset_of_length_eraseDups
    rw [← length_readRecords hrs, ← hlength, length_readRecords hrecords]
    simp [completeFrom]

end

end EditStream

open EditStream

/-! ## Streams of runs -/

/-- The stream of a run in which no pass fails, where no name has a newline. -/
def IsWritten (out : Text) : Prop :=
  ∃ (header : Text) (passes : List Pass) (log : List LogEntry),
    Text.newline ∉ header ∧ (∀ p ∈ passes, ∀ r ∈ p.replacements, Text.newline ∉ r.file) ∧
    Command.flushAll { header } passes = (log, out, none)

theorem IsWritten.complete {out : Text} (h : IsWritten out) : Complete out := by
  obtain ⟨header, passes, log, hheader, hfiles, hflush⟩ := h
  rw [Session.output_flushAll hflush]
  apply complete_written
  intro x hx
  obtain ⟨p, hp, r, hr, rfl | ⟨-, rfl⟩⟩ := Session.mem_written hx
  · exact hfiles p hp r hr
  · exact ⟨hfiles p hp r hr, hheader⟩

/-- A pass with one replacement writes a block with its record. -/
theorem isWritten_block {r : Replacement} (h : Text.newline ∉ r.file) :
    IsWritten (block [.replace r]) := by
  refine ⟨[], [{ unit := [], language := .cxx, verdicts := [], edits := [⟨r.file, [r]⟩] }], [],
    List.not_mem_nil, ?_, ?_⟩
  · simpa [Pass.replacements] using h
  · have hoverlap : FileEdits.overlap? [⟨r.file, [r]⟩] = none := rfl
    simp [Command.flushAll, Session.flush, Session.flushLog, Language.hasClasses, hoverlap, records]

/-- A pass without edits writes a block without records. -/
theorem isWritten_block_nil : IsWritten (block []) :=
  ⟨[], [{ unit := [], language := .cxx, verdicts := [], edits := [] }], [], List.not_mem_nil,
    by simp [Pass.replacements], rfl⟩

/-- **Cut streams.** Of a stream that can be read and is cut short, exactly the complete
blocks are kept in front of every stream that follows, if and only if the cut is behind a
line, or the open block with the line that the next mark becomes part of has no records but
those of the complete blocks. -/
theorem cut_block_dropped_iff {s p c : Text} (hs : IsWritten s)
    (hread : ∃ set, PatchSet.parse s = .ok set) (hp : p <+: s) (hc : LongestComplete c p) :
    (∀ t, IsWritten t → PatchSet.parse (p ++ t) = PatchSet.parse (c ++ t)) ↔
      IsLineCut p ∨ Repeats c p := by
  obtain ⟨lss, hbody, rfl⟩ := hs.complete
  obtain ⟨done, opened, part, hcut⟩ := exists_cut hbody hp
  obtain rfl := hc.unique (hcut.longestComplete hbody)
  obtain ⟨set, hread⟩ := hread
  obtain ⟨all, hall, -⟩ := PatchSet.parse_eq_ok_iff.mp hread
  obtain ⟨hlong, -, hrecords⟩ := parse_eq_ok_iff.mp hall
  have hfit : ∀ line ∈ lss.flatMap blockLines, line.length < lineLimit := by
    rw [Text.readLines, Text.lines_unlines (newline_notMem_blocks hbody)] at hlong
    intro line hline
    exact Nat.lt_of_not_le fun hle => List.any_eq_false.mp hlong line hline (decide_eq_true hle)
  rw [hcut.isLineCut_iff hbody, Repeats, hcut.pendingLines_eq hbody, hcut.kept_eq hfit]
  constructor
  · intro hdropped
    by_cases hpart : part = []
    · exact Or.inl hpart
    -- A pass without edits is enough to see the difference.
    obtain ⟨rs, hrs⟩ : ∃ rs, readRecords (done.flatten.map Text.dropReturn) = .ok rs := by
      obtain ⟨later, hlater⟩ := hcut.kept_start
      rw [← kept, (cut_whole hbody).kept_eq hfit, hlater, List.map_append] at hrecords
      exact exists_readRecords_of_append hrecords
    have hparse := hdropped (block []) isWritten_block_nil
    rw [PatchSet.parse_eq_ok_iff.mpr ⟨rs, hcut.parse_append_block_nil hfit hrs, rfl⟩] at hparse
    obtain ⟨rs', hrs', hset⟩ := PatchSet.parse_eq_ok_iff.mp hparse
    have hlength : rs'.length = rs.length := by
      rw [← PatchSet.size_ofRecords, hset, PatchSet.size_ofRecords]
    obtain ⟨ls, rfl, hsubset⟩ := hcut.repeats_of_parse_append hbody hfit hpart hrs hrs' hlength
    exact Or.inr ⟨_, rfl, hsubset⟩
  · intro hcases t ht
    rw [PatchSet.parse, PatchSet.parse]
    congr 1
    by_cases hpart : part = []
    · exact hcut.parse_append_of_line hbody hfit hpart ht.complete
    obtain ⟨rest, hpending, hrest⟩ := hcases.resolve_left hpart
    rcases hcut.opened_eq with ⟨rfl, -⟩ | ⟨ls, hls, rfl⟩
    · have hmark : part ++ beginMark = beginMark := (List.cons.inj hpending).1
      exact absurd (Or.inl hmark) (not_isMark_append_beginMark hpart)
    · obtain rfl : ls.map Text.dropReturn ++ [part ++ beginMark] = rest :=
        (List.cons.inj hpending).2
      exact hcut.parse_append_of_repeats hbody hfit hls rfl hpart hrest ht.complete

/-- A cut behind a line of the second block. -/
theorem cut_block_dropped_second :
    IsWritten (block [.replace ⟨"a.cc", 1, 0, "x", false⟩] ++
        block [.replace ⟨"c.cc", 1, 1, "lost", false⟩]) ∧
      LongestComplete (block [.replace ⟨"a.cc", 1, 0, "x", false⟩])
        (block [.replace ⟨"a.cc", 1, 0, "x", false⟩] ++
          "==== BEGIN EDITS ====\nr:::c.cc:::1:::1:::lost\n") ∧
      ∀ t, IsWritten t →
        PatchSet.parse (block [.replace ⟨"a.cc", 1, 0, "x", false⟩] ++
            "==== BEGIN EDITS ====\nr:::c.cc:::1:::1:::lost\n" ++ t)
          = PatchSet.parse (block [.replace ⟨"a.cc", 1, 0, "x", false⟩] ++ t) := by
  have hwritten : IsWritten (block [.replace ⟨"a.cc", 1, 0, "x", false⟩] ++
      block [.replace ⟨"c.cc", 1, 1, "lost", false⟩]) :=
    ⟨[], [{ unit := [], language := .cxx, verdicts := [],
            edits := [⟨"a.cc", [⟨"a.cc", 1, 0, "x", false⟩]⟩] },
          { unit := [], language := .cxx, verdicts := [],
            edits := [⟨"c.cc", [⟨"c.cc", 1, 1, "lost", false⟩]⟩] }], [], by decide, by decide, rfl⟩
  have hcut : Cut [["r:::a.cc:::1:::0:::x"], ["r:::c.cc:::1:::1:::lost"]] [["r:::a.cc:::1:::0:::x"]]
      [beginMark, "r:::c.cc:::1:::1:::lost"] []
      (block [.replace ⟨"a.cc", 1, 0, "x", false⟩] ++
        "==== BEGIN EDITS ====\nr:::c.cc:::1:::1:::lost\n") :=
    ⟨by decide, by decide, by decide, ⟨_, rfl⟩, Or.inl rfl, Or.inr ⟨_, by decide, rfl⟩⟩
  have hlongest := hcut.longestComplete (by decide)
  refine ⟨hwritten, hlongest, (cut_block_dropped_iff hwritten ?_ ?_ hlongest).mpr (Or.inl ?_)⟩
  · exact ⟨_, PatchSet.parse_eq_ok_iff.mpr ⟨_, rfl, rfl⟩⟩
  · exact ⟨"==== END EDITS ====\n", by decide⟩
  · exact Or.inr (by decide)

/-- A cut inside a line: the part of the line and the mark of the next stream are kept as a
replacement of the block that was not finished. -/
theorem cut_line_joined :
    IsWritten (block [.replace ⟨"c.cc", 1, 1, "lost", false⟩]) ∧
      "==== BEGIN EDITS ====\nr:::c.cc:::1:::1:::lo" <+:
        block [.replace ⟨"c.cc", 1, 1, "lost", false⟩] ∧
      LongestComplete [] "==== BEGIN EDITS ====\nr:::c.cc:::1:::1:::lo" ∧
      IsWritten (block [.replace ⟨"d.cc", 2, 3, "x", false⟩]) ∧
      EditStream.parse ("==== BEGIN EDITS ====\nr:::c.cc:::1:::1:::lo" ++
          block [.replace ⟨"d.cc", 2, 3, "x", false⟩])
        = .ok [.replace ⟨"c.cc", 1, 1, "lo==== BEGIN EDITS ====", false⟩,
            .replace ⟨"d.cc", 2, 3, "x", false⟩] ∧
      PatchSet.parse ("==== BEGIN EDITS ====\nr:::c.cc:::1:::1:::lo" ++
          block [.replace ⟨"d.cc", 2, 3, "x", false⟩])
        ≠ PatchSet.parse ([] ++ block [.replace ⟨"d.cc", 2, 3, "x", false⟩]) := by
  have hcut : Cut [["r:::c.cc:::1:::1:::lost"]] [] [beginMark] "r:::c.cc:::1:::1:::lo"
      "==== BEGIN EDITS ====\nr:::c.cc:::1:::1:::lo" :=
    ⟨by decide, by decide, by decide, ⟨_, rfl⟩, Or.inr ⟨"r:::c.cc:::1:::1:::lost", by decide,
      "st", by decide⟩, Or.inr ⟨[], by decide, rfl⟩⟩
  refine ⟨isWritten_block (by decide), ⟨"st\n==== END EDITS ====\n", by decide⟩,
    hcut.longestComplete (by decide), isWritten_block (by decide), rfl, fun heq => ?_⟩
  -- The patch set has one edit more than it should have.
  obtain ⟨rs, hrs, hset⟩ := PatchSet.parse_eq_ok_iff.mp
    (heq.symm.trans (PatchSet.parse_eq_ok_iff.mpr ⟨_, rfl, rfl⟩))
  have hsize := congrArg PatchSet.size hset
  rw [PatchSet.size_ofRecords, PatchSet.size_ofRecords] at hsize
  cases hrs
  cases hsize

end PointerMigration
