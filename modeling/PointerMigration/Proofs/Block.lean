/-
# Blocks that were written

What a run of passes writes is a sequence of complete blocks, and the reader takes the records out
of them again. The records of a run are the replacements of its passes in order, and for each file
that needs the header one record behind the first replacement that asks for it.
-/
import PointerMigration.Command.Run
import PointerMigration.Proofs.Record

namespace PointerMigration

namespace EditStream

/-! ## Marks -/

/-- A line that starts or ends a block. -/
def IsMark (line : Text) : Prop := line = beginMark ∨ line = endMark

theorem Record.not_isMark_line (r : Record) : ¬ IsMark (Text.dropReturn r.line) := by
  rintro (h | h)
  · exact r.dropReturn_line_ne rfl h
  · exact r.dropReturn_line_ne rfl h

theorem endMark_ne_beginMark : endMark ≠ beginMark := by decide

/-- The lines of a block with the given lines between its marks. -/
def blockLines (ls : List Text) : List Text := beginMark :: (ls ++ [endMark])

theorem block_eq (rs : List Record) :
    block rs = Text.unlines (blockLines (rs.map Record.line)) := by
  simp [block, blockLines, Text.unlines]

theorem flatMap_block (rss : List (List Record)) :
    rss.flatMap block
      = Text.unlines (rss.flatMap fun rs => blockLines (rs.map Record.line)) := by
  rw [Text.unlines_flatMap, funext block_eq]

/-! ## Reading blocks -/

section

variable (number : Nat)

theorem completeFrom_begin (state : Option (List Text)) (rest : List Text) :
    completeFrom number state (beginMark :: rest) = completeFrom (number + 1) (some []) rest := by
  rw [completeFrom.eq_def]
  exact if_pos rfl

theorem completeFrom_end (records rest : List Text) :
    completeFrom number (some records) (endMark :: rest)
      = (records.reverse ++ (completeFrom (number + 1) none rest).1,
          (completeFrom (number + 1) none rest).2) := by
  rw [completeFrom, if_neg (by decide), if_pos rfl]

theorem completeFrom_line {line : Text} (h : ¬ IsMark line) (state : Option (List Text))
    (rest : List Text) :
    completeFrom number state (line :: rest)
      = completeFrom (number + 1) (state.map (line :: ·)) rest := by
  rw [completeFrom.eq_def]
  simp only
  rw [if_neg fun hline => h (Or.inl hline), if_neg fun hline => h (Or.inr hline)]

/-- The lines of a block are collected until its end. -/
theorem completeFrom_lines {ls : List Text} (h : ∀ line ∈ ls, ¬ IsMark line)
    (records rest : List Text) :
    completeFrom number (some records) (ls ++ rest)
      = completeFrom (number + ls.length) (some (ls.reverse ++ records)) rest := by
  induction ls generalizing number records with
  | nil => rfl
  | cons line ls ih =>
      rw [List.cons_append, completeFrom_line number (h line (by simp)), Option.map_some,
        ih (number + 1) fun other hother => h other (List.mem_cons_of_mem line hother)]
      rw [List.length_cons, List.reverse_cons, List.append_assoc, Nat.add_assoc,
        Nat.add_comm 1 ls.length]
      rfl

/-- A block is read whole, whatever came before it. -/
theorem completeFrom_block {ls : List Text} (h : ∀ line ∈ ls, ¬ IsMark line)
    (state : Option (List Text)) (rest : List Text) :
    completeFrom number state (blockLines ls ++ rest)
      = (ls ++ (completeFrom (number + (blockLines ls).length) none rest).1,
          (completeFrom (number + (blockLines ls).length) none rest).2) := by
  have hnumber : number + 1 + ls.length + 1 = number + (blockLines ls).length := by
    simp [blockLines]
    omega
  rw [← hnumber, blockLines, List.cons_append, List.append_assoc, completeFrom_begin,
    completeFrom_lines (number + 1) h, List.singleton_append, completeFrom_end]
  simp

/-- Blocks are read one after another. -/
theorem completeFrom_blocks {lss : List (List Text)} (h : ∀ ls ∈ lss, ∀ line ∈ ls, ¬ IsMark line)
    (rest : List Text) :
    completeFrom number none (lss.flatMap blockLines ++ rest)
      = (lss.flatten ++ (completeFrom (number + (lss.flatMap blockLines).length) none rest).1,
          (completeFrom (number + (lss.flatMap blockLines).length) none rest).2) := by
  induction lss generalizing number with
  | nil => rfl
  | cons ls lss ih =>
      rw [List.flatMap_cons, List.append_assoc, completeFrom_block number (h ls (by simp)),
        ih _ fun other hother => h other (List.mem_cons_of_mem ls hother)]
      rw [List.length_append, Nat.add_assoc, List.flatten_cons, List.append_assoc]

end

/-- The number of the first line matters only to the number of an end without a beginning. -/
theorem completeFrom_number (number other : Nat) (state : Option (List Text)) (ls : List Text) :
    (completeFrom number state ls).1 = (completeFrom other state ls).1 ∧
      ((completeFrom number state ls).2 = none ↔ (completeFrom other state ls).2 = none) := by
  induction ls generalizing number other state with
  | nil => simp [completeFrom]
  | cons line ls ih =>
      by_cases hbegin : line = beginMark
      · rw [hbegin, completeFrom_begin, completeFrom_begin]
        exact ih _ _ _
      by_cases hend : line = endMark
      · rw [hend]
        cases state with
        | none => simp [completeFrom, endMark_ne_beginMark]
        | some records =>
            rw [completeFrom_end, completeFrom_end, (ih (number + 1) (other + 1) none).1]
            exact ⟨rfl, (ih (number + 1) (other + 1) none).2⟩
      · have hline : ¬ IsMark line := fun h => h.elim hbegin hend
        rw [completeFrom_line number hline, completeFrom_line other hline]
        exact ih _ _ _

/-- Lines without an end that lacks its beginning have none when they are cut short. -/
theorem completeFrom_of_append {number : Nat} {state : Option (List Text)} {ls ms : List Text}
    (h : (completeFrom number state (ls ++ ms)).2 = none) :
    (completeFrom number state ls).2 = none := by
  induction ls generalizing number state with
  | nil => simp [completeFrom]
  | cons line ls ih =>
      rw [List.cons_append] at h
      by_cases hbegin : line = beginMark
      · rw [hbegin, completeFrom_begin] at h ⊢
        exact ih h
      by_cases hend : line = endMark
      · rw [hend] at h ⊢
        cases state with
        | none => simp [completeFrom, endMark_ne_beginMark] at h
        | some records =>
            rw [completeFrom_end] at h ⊢
            exact ih h
      · have hline : ¬ IsMark line := fun h => h.elim hbegin hend
        rw [completeFrom_line number hline] at h ⊢
        exact ih h

/-- Records that are pending when a block goes on are kept with it or dropped with it. -/
theorem completeFrom_pending (number : Nat) (records pending ls : List Text) :
    completeFrom number (some (records ++ pending)) ls
        = (pending.reverse ++ (completeFrom number (some records) ls).1,
            (completeFrom number (some records) ls).2) ∨
      completeFrom number (some (records ++ pending)) ls
        = completeFrom number (some records) ls := by
  induction ls generalizing number records with
  | nil => exact Or.inr rfl
  | cons line ls ih =>
      by_cases hbegin : line = beginMark
      · rw [hbegin, completeFrom_begin, completeFrom_begin]
        exact Or.inr rfl
      by_cases hend : line = endMark
      · rw [hend, completeFrom_end, completeFrom_end, List.reverse_append, List.append_assoc]
        exact Or.inl rfl
      · have hline : ¬ IsMark line := fun h => h.elim hbegin hend
        rw [completeFrom_line number hline, completeFrom_line number hline]
        exact ih (number + 1) (line :: records)

/-- How a stream is read: its lines, the records of its blocks, and then the faults. -/
theorem parse_eq_bind (stream : Text) :
    parse stream =
      (readRecords (completeFrom 1 none (Text.readLines lineLimit stream).1).1).bind fun records =>
        match (completeFrom 1 none (Text.readLines lineLimit stream).1).2 with
        | some line => .error (.unmatchedEnd line)
        | none =>
          if (Text.readLines lineLimit stream).2 then .error .lineTooLong else .ok records := rfl

theorem parse_eq {stream : Text} {ls texts : List Text} {tooLong : Bool}
    (hlines : Text.readLines lineLimit stream = (ls, tooLong))
    (hcomplete : completeFrom 1 none ls = (texts, none)) :
    parse stream = (readRecords texts).bind fun records =>
      if tooLong then .error .lineTooLong else .ok records := by
  rw [parse_eq_bind, hlines]
  simp only [hcomplete]

/-- A stream is read if its lines fit, no block ends without having begun, and the records are
right. -/
theorem parse_eq_ok_iff {stream : Text} {records : List Record} :
    parse stream = .ok records ↔
      (Text.readLines lineLimit stream).2 = false ∧
      (completeFrom 1 none (Text.readLines lineLimit stream).1).2 = none ∧
      readRecords (completeFrom 1 none (Text.readLines lineLimit stream).1).1 = .ok records := by
  rw [parse_eq_bind]
  generalize Text.readLines lineLimit stream = lines
  generalize completeFrom 1 none lines.1 = complete
  cases readRecords complete.1 with
  | error e => simp [Except.bind]
  | ok rs =>
      cases complete.2 with
      | some number => simp [Except.bind]
      | none => cases lines.2 <;> simp [Except.bind]

/-! ## The records of a pass -/

/-- The replacement of a record, if it is one. -/
def Record.replacement? : Record → Option Replacement
  | replace r => some r
  | header _ _ => none

section

variable (heading : Text) (included : List Text) (rs : List Replacement)

/-- A replacement asks for the header of its file. -/
def Asks (r : Replacement) (file : Text) : Prop :=
  heading ≠ [] ∧ r.needsHeader = true ∧ r.file = file

theorem records_cons (r : Replacement) :
    records heading included (r :: rs) =
      if r.needsHeader && !heading.isEmpty && !included.contains r.file then
        (.replace r :: .header r.file heading :: (records heading (r.file :: included) rs).1,
          (records heading (r.file :: included) rs).2)
      else
        (.replace r :: (records heading included rs).1, (records heading included rs).2) := rfl

/-- The condition under which a header record is written. -/
theorem writes_header_iff (r : Replacement) :
    (r.needsHeader && !heading.isEmpty && !included.contains r.file) = true ↔
      Asks heading r r.file ∧ r.file ∉ included := by
  simp [Asks, and_comm]

/-- The replacements of a pass are written in order. -/
theorem filterMap_replacement?_records :
    (records heading included rs).1.filterMap Record.replacement? = rs := by
  induction rs generalizing included with
  | nil => rfl
  | cons r rs ih =>
      rw [records_cons]
      split
      · simp only [List.filterMap_cons, Record.replacement?, ih]
      · simp only [List.filterMap_cons, Record.replacement?, ih]

/-- The files with the header afterwards: those that had it, and those for which it was asked. -/
theorem mem_records_snd (file : Text) :
    file ∈ (records heading included rs).2 ↔
      file ∈ included ∨ ∃ r ∈ rs, Asks heading r file := by
  induction rs generalizing included with
  | nil => simp [records]
  | cons r rs ih =>
      rw [records_cons]
      split
      · next h =>
          have hasks := ((writes_header_iff heading included r).mp h).1
          rw [ih, List.mem_cons]
          constructor
          · rintro ((rfl | hfile) | ⟨s, hs, hfile⟩)
            · exact Or.inr ⟨r, by simp, hasks⟩
            · exact Or.inl hfile
            · exact Or.inr ⟨s, List.mem_cons_of_mem r hs, hfile⟩
          · rintro (hfile | ⟨s, hs, hfile⟩)
            · exact Or.inl (Or.inr hfile)
            · rcases List.mem_cons.mp hs with rfl | hs
              · exact Or.inl (Or.inl hfile.2.2.symm)
              · exact Or.inr ⟨s, hs, hfile⟩
      · next h =>
          rw [writes_header_iff] at h
          rw [ih]
          constructor
          · rintro (hfile | ⟨s, hs, hfile⟩)
            · exact Or.inl hfile
            · exact Or.inr ⟨s, List.mem_cons_of_mem r hs, hfile⟩
          · rintro (hfile | ⟨s, hs, hfile⟩)
            · exact Or.inl hfile
            · rcases List.mem_cons.mp hs with rfl | hs
              · obtain ⟨hheading, hneeds, rfl⟩ := hfile
                exact Or.inl (Decidable.byContradiction fun hnot =>
                  h ⟨⟨hheading, hneeds, rfl⟩, hnot⟩)
              · exact Or.inr ⟨s, hs, hfile⟩

/-- The header records of a pass: one header, for the files without it for which it is asked. -/
theorem header_mem_records (file name : Text) :
    .header file name ∈ (records heading included rs).1 ↔
      name = heading ∧ file ∉ included ∧ ∃ r ∈ rs, Asks heading r file := by
  induction rs generalizing included with
  | nil => simp [records]
  | cons r rs ih =>
      rw [records_cons]
      split
      · next h =>
          obtain ⟨hasks, hnot⟩ := (writes_header_iff heading included r).mp h
          rw [List.mem_cons, List.mem_cons, ih]
          constructor
          · rintro (hr | hr | ⟨hname, hfile, s, hs, hs'⟩)
            · cases hr
            · cases hr
              exact ⟨rfl, hnot, r, by simp, hasks⟩
            · rw [List.mem_cons, not_or] at hfile
              exact ⟨hname, hfile.2, s, List.mem_cons_of_mem r hs, hs'⟩
          · rintro ⟨rfl, hfile, s, hs, hs'⟩
            by_cases heq : file = r.file
            · exact Or.inr (Or.inl (by rw [heq]))
            · refine Or.inr (Or.inr ⟨rfl, by simp [heq, hfile], ?_⟩)
              rcases List.mem_cons.mp hs with rfl | hs
              · exact absurd hs'.2.2.symm heq
              · exact ⟨s, hs, hs'⟩
      · next h =>
          rw [writes_header_iff] at h
          rw [List.mem_cons, ih]
          constructor
          · rintro (hr | ⟨hname, hfile, s, hs, hs'⟩)
            · cases hr
            · exact ⟨hname, hfile, s, List.mem_cons_of_mem r hs, hs'⟩
          · rintro ⟨hname, hfile, s, hs, hs'⟩
            refine Or.inr ⟨hname, hfile, ?_⟩
            rcases List.mem_cons.mp hs with rfl | hs
            · obtain ⟨hheading, hneeds, rfl⟩ := hs'
              exact absurd ⟨⟨hheading, hneeds, rfl⟩, hfile⟩ h
            · exact ⟨s, hs, hs'⟩

end

end EditStream

/-! ## The records of a run -/

/-- The replacements of a pass, file by file. -/
def Pass.replacements (p : Pass) : List Replacement := p.edits.flatMap FileEdits.replacements

namespace Session

open EditStream

/-- The records of the blocks that a run of passes writes. -/
def written (heading : Text) : List Text → List Pass → List (List Record)
  | _, [] => []
  | included, p :: rest =>
    if p.language.hasClasses then
      (records heading included p.replacements).1 ::
        written heading (records heading included p.replacements).2 rest
    else written heading included rest

/-- The passes of which something is written. -/
def writing (passes : List Pass) : List Pass := passes.filter fun p => p.language.hasClasses

/-- What writing a pass does if it does not fail. -/
theorem flush_eq_ok {s s' : Session} {p : Pass} {t : Text} (h : s.flush p = .ok (t, s')) :
    (p.language.hasClasses = false ∧ t = [] ∧ s' = s) ∨
      (p.language.hasClasses = true ∧
        t = block (records s.header s.included p.replacements).1 ∧
        s' = { s with included := (records s.header s.included p.replacements).2 }) := by
  unfold flush at h
  cases hclasses : p.language.hasClasses with
  | false =>
      rw [hclasses] at h
      simp only [Bool.not_false, if_true, Except.ok.injEq, Prod.mk.injEq] at h
      exact Or.inl ⟨rfl, h.1.symm, h.2.symm⟩
  | true =>
      rw [hclasses] at h
      simp only [Bool.not_true, Bool.false_eq_true, if_false] at h
      cases hoverlap : FileEdits.overlap? p.edits with
      | some pair => simp [hoverlap] at h
      | none =>
          rw [hoverlap] at h
          simp only [Except.ok.injEq, Prod.mk.injEq] at h
          exact Or.inr ⟨rfl, h.1.symm, h.2.symm⟩

/-- A run in which no pass fails writes the blocks of its records. -/
theorem output_flushAll {s : Session} {passes : List Pass} {log : List LogEntry} {out : Text}
    (h : Command.flushAll s passes = (log, out, none)) :
    out = (written s.header s.included passes).flatMap block := by
  induction passes generalizing s log out with
  | nil =>
      simp only [Command.flushAll, Prod.mk.injEq] at h
      rw [← h.2.1]
      rfl
  | cons p rest ih =>
      rw [Command.flushAll] at h
      cases hflush : s.flush p with
      | error b => simp [hflush] at h
      | ok result =>
          obtain ⟨t, s'⟩ := result
          rw [hflush] at h
          simp only [Prod.mk.injEq] at h
          obtain ⟨-, hout, herror⟩ := h
          have hrest : Command.flushAll s' rest
              = ((Command.flushAll s' rest).1, (Command.flushAll s' rest).2.1, none) := by
            rw [← herror]
          rw [← hout, ih hrest, written]
          rcases flush_eq_ok hflush with ⟨hclasses, rfl, rfl⟩ | ⟨hclasses, rfl, rfl⟩
          · rw [if_neg (by simp [hclasses])]
            rfl
          · rw [if_pos hclasses]
            rfl

/-- The replacements of a run are those of its passes in order. -/
theorem filterMap_replacement?_written (heading : Text) (included : List Text)
    (passes : List Pass) :
    (written heading included passes).flatten.filterMap Record.replacement?
      = (writing passes).flatMap Pass.replacements := by
  induction passes generalizing included with
  | nil => rfl
  | cons p rest ih =>
      rw [written, writing, List.filter_cons]
      split
      · rw [List.flatten_cons, List.filterMap_append, filterMap_replacement?_records, ih,
          List.flatMap_cons, writing]
      · rw [ih, writing]

/-- The header records of a run. -/
theorem header_mem_written (heading : Text) (included : List Text) (passes : List Pass)
    (file name : Text) :
    .header file name ∈ (written heading included passes).flatten ↔
      name = heading ∧ file ∉ included ∧
        ∃ r ∈ (writing passes).flatMap Pass.replacements, Asks heading r file := by
  induction passes generalizing included with
  | nil => simp [written, writing]
  | cons p rest ih =>
      rw [written, writing, List.filter_cons]
      split
      · rw [List.flatten_cons, List.mem_append, header_mem_records, ih, mem_records_snd,
          List.flatMap_cons, writing]
        simp only [List.mem_append]
        constructor
        · rintro (⟨hname, hfile, r, hr, hasks⟩ | ⟨hname, hfile, r, hr, hasks⟩)
          · exact ⟨hname, hfile, r, Or.inl hr, hasks⟩
          · exact ⟨hname, fun hnot => hfile (Or.inl hnot), r, Or.inr hr, hasks⟩
        · rintro ⟨hname, hfile, r, hr, hasks⟩
          -- The first pass that asks for the header of a file has its record.
          by_cases hfirst : ∃ s ∈ p.replacements, Asks heading s file
          · exact Or.inl ⟨hname, hfile, hfirst⟩
          · rcases hr with hr | hr
            · exact absurd ⟨r, hr, hasks⟩ hfirst
            · exact Or.inr ⟨hname, fun hnot => hnot.elim hfile hfirst, r, hr, hasks⟩
      · rw [ih, writing]

/-- A record of a run is a replacement, or the header for a replacement that asks for it. -/
theorem mem_written {heading : Text} {included : List Text} {passes : List Pass}
    {x : Record} (h : x ∈ (written heading included passes).flatten) :
    ∃ p ∈ passes, ∃ r ∈ p.replacements,
      x = .replace r ∨ (Asks heading r r.file ∧ x = .header r.file heading) := by
  have hpass : ∀ r ∈ (writing passes).flatMap Pass.replacements,
      ∃ p ∈ passes, r ∈ p.replacements := by
    intro r hr
    obtain ⟨p, hp, hr⟩ := List.mem_flatMap.mp hr
    exact ⟨p, (List.mem_filter.mp hp).1, hr⟩
  cases x with
  | replace r =>
      have hr : r ∈ (writing passes).flatMap Pass.replacements := by
        rw [← filterMap_replacement?_written heading included passes]
        exact List.mem_filterMap.mpr ⟨_, h, rfl⟩
      obtain ⟨p, hp, hr⟩ := hpass r hr
      exact ⟨p, hp, r, hr, Or.inl rfl⟩
  | header file name =>
      obtain ⟨rfl, -, r, hr, hasks⟩ := (header_mem_written _ _ _ _ _).mp h
      obtain ⟨p, hp, hr⟩ := hpass r hr
      obtain ⟨hheading, hneeds, rfl⟩ := hasks
      exact ⟨p, hp, r, hr, Or.inr ⟨⟨hheading, hneeds, rfl⟩, rfl⟩⟩

end Session

end PointerMigration
