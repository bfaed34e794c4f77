/-
# Header records

A run writes passes one after another, whether or not some of them fail. In what it writes, each
file is given the header at most once, right behind the first replacement that asks for it. A pass
that is left out, because its language has no class templates or because replacements of it overlap,
has no effect on the headers of later passes.
-/
import PointerMigration.Proofs.Block
import PointerMigration.Proofs.Overlap
import Mathlib.Data.List.Nodup

namespace PointerMigration

open EditStream

/-! ## Writing step by step -/

/-- What writing changes as it goes on: the session, and the stream so far. -/
structure Writer where
  session : Session
  stream : Text := []

/-- Records are written for one replacement after another. -/
theorem EditStream.records_append (heading : Text) (included : List Text)
    (rs ss : List Replacement) :
    records heading included (rs ++ ss) =
      ((records heading included rs).1 ++ (records heading (records heading included rs).2 ss).1,
        (records heading (records heading included rs).2 ss).2) := by
  induction rs generalizing included with
  | nil => rfl
  | cons r rs ih =>
      rw [List.cons_append, records_cons, records_cons]
      split
      · simp only [ih, List.cons_append]
      · simp only [ih, List.cons_append]

namespace Writer

/-- Steps that change a writer and can fail. What was changed before a failure stays changed. -/
abbrev Steps := EStateM Breach Writer

/-- Writes a line. -/
def emit (line : Text) : Steps Unit :=
  modify fun w => { w with stream := w.stream ++ (line ++ [Text.newline]) }

/-- Fails if two replacements of a file overlap. -/
def check (e : FileEdits) : Steps Unit :=
  match Replacement.overlap? e.replacements with
  | some (a, b) => throw (.overlap a b)
  | none => pure ()

/-- Writes a replacement. The header follows if the replacement asks for it and the file has not
been given it yet, which is noted in the session at once. -/
def putReplacement (r : Replacement) : Steps Unit := do
  emit (Record.replace r).line
  let s := (← get).session
  if r.needsHeader && !s.header.isEmpty && !s.included.contains r.file then
    modify fun w => { w with session := { s with included := r.file :: s.included } }
    emit (Record.header r.file s.header).line

/-- Writes a pass. -/
def putPass (p : Pass) : Steps Unit := do
  if p.language.hasClasses then
    forM p.edits check
    emit beginMark
    forM p.edits fun e => forM e.replacements putReplacement
    emit endMark

/-- A writer after a pass was written, or could not be. -/
def after (w : Writer) (p : Pass) : Writer :=
  match (putPass p).run w with
  | .ok _ w' => w'
  | .error _ w' => w'

/-- The outcome of writing a pass in one go. -/
def ofFlush (w : Writer) (p : Pass) : EStateM.Result Breach Writer Unit :=
  match w.session.flush p with
  | .ok (t, session) => .ok () { session, stream := w.stream ++ t }
  | .error b => .error b w

/-- A writer with the records of some replacements added. -/
def append (w : Writer) (rs : List Replacement) : Writer :=
  { session := { w.session with included := (records w.session.header w.session.included rs).2 },
    stream := w.stream ++
      Text.unlines ((records w.session.header w.session.included rs).1.map Record.line) }

/-- Checking all files stops at the first overlap. -/
theorem run_forM_check (es : List FileEdits) (w : Writer) :
    (forM es check).run w = match FileEdits.overlap? es with
      | some (a, b) => .error (.overlap a b) w
      | none => .ok () w := by
  induction es with
  | nil => rfl
  | cons e es ih =>
      rw [List.forM_cons, EStateM.run_bind, FileEdits.overlap?, List.findSome?_cons, check]
      cases Replacement.overlap? e.replacements with
      | some pair => rfl
      | none => exact ih

theorem run_putReplacement (r : Replacement) (w : Writer) :
    (putReplacement r).run w = .ok () (w.append [r]) := by
  rw [append, records_cons]
  show (if r.needsHeader && !w.session.header.isEmpty && !w.session.included.contains r.file then _
    else _ : Steps Unit).run _ = _
  split
  · show EStateM.Result.ok () _ = .ok () _
    simp [records, Text.unlines]
  · show EStateM.Result.ok () _ = .ok () _
    simp [records, Text.unlines]

/-- Writing replacements appends their records in order. -/
theorem run_forM_putReplacement (rs : List Replacement) (w : Writer) :
    (forM rs putReplacement).run w = .ok () (w.append rs) := by
  induction rs generalizing w with
  | nil => simp [append, records, Text.unlines]
  | cons r rs ih =>
      rw [List.forM_cons, EStateM.run_bind, run_putReplacement]
      simp only [ih, append]
      rw [show r :: rs = [r] ++ rs from rfl, records_append, List.map_append, Text.unlines_append,
        List.append_assoc]

/-- Writing the edits of all files appends their records in order. -/
theorem run_forM_edits (es : List FileEdits) (w : Writer) :
    (forM es fun e => forM e.replacements putReplacement).run w
      = .ok () (w.append (es.flatMap FileEdits.replacements)) := by
  rw [← run_forM_putReplacement]
  induction es generalizing w with
  | nil => rfl
  | cons e es ih =>
      rw [List.flatMap_cons, List.forM_append, List.forM_cons, EStateM.run_bind, EStateM.run_bind,
        run_forM_putReplacement]
      exact ih _

/-- **Writing in steps.** Writing a pass step by step does what writing it in one go does. In
particular it has changed nothing when it fails. -/
theorem run_putPass (w : Writer) (p : Pass) : (putPass p).run w = w.ofFlush p := by
  rw [ofFlush, Session.flush]
  cases hclasses : p.language.hasClasses with
  | false => simp [putPass, hclasses]
  | true =>
      rw [putPass, if_pos hclasses, EStateM.run_bind, run_forM_check]
      cases FileEdits.overlap? p.edits with
      | some pair => rfl
      | none =>
          simp [emit, run_forM_edits, append, block_eq, blockLines]

end Writer

/-! ## The headers of records -/

namespace EditStream

instance (heading : Text) (r : Replacement) (file : Text) : Decidable (Asks heading r file) :=
  inferInstanceAs (Decidable (_ ∧ _ ∧ _))

/-- The file that a record gives the header to. -/
def Record.headed? : Record → Option Text
  | replace _ => none
  | header file _ => some file

theorem mem_headed_iff {rs : List Record} {file : Text} :
    file ∈ rs.filterMap Record.headed? ↔ ∃ name, .header file name ∈ rs := by
  rw [List.mem_filterMap]
  constructor
  · rintro ⟨x, hx, hfile⟩
    cases x with
    | replace r => cases hfile
    | header file' name => exact ⟨name, Option.some.inj hfile ▸ hx⟩
  · rintro ⟨name, hx⟩
    exact ⟨_, hx, rfl⟩

section

variable (heading : Text) (included : List Text) (rs : List Replacement)

/-- No file is given the header twice. -/
theorem nodup_headed_records :
    ((records heading included rs).1.filterMap Record.headed?).Nodup := by
  induction rs generalizing included with
  | nil => exact List.nodup_nil
  | cons r rs ih =>
      rw [records_cons]
      split
      · simp only [List.filterMap_cons, Record.headed?]
        refine List.nodup_cons.mpr ⟨fun hmem => ?_, ih _⟩
        obtain ⟨name, hname⟩ := mem_headed_iff.mp hmem
        exact ((header_mem_records _ _ _ _ _).mp hname).2.1 List.mem_cons_self
      · simp only [List.filterMap_cons, Record.headed?]
        exact ih _

/-- Records do not start with a header. -/
theorem records_ne_header_cons (file name : Text) (later : List Record) :
    (records heading included rs).1 ≠ .header file name :: later := by
  cases rs with
  | nil => simp [records]
  | cons r rs =>
      rw [records_cons]
      split <;> simp

end

/-- What stands before a header record: no replacement asks for the header of the file but the last
one. -/
theorem before_header_of_records {heading : Text} {included : List Text} {rs : List Replacement}
    {file name : Text} {before later : List Record}
    (h : (records heading included rs).1 = before ++ .header file name :: later) :
    ∃ front r, before = front ++ [.replace r] ∧ Asks heading r file ∧
      ∀ s, .replace s ∈ front → ¬ Asks heading s file := by
  have hnot : file ∉ included := by
    have hmem : .header file name ∈ (records heading included rs).1 := by simp [h]
    exact ((header_mem_records _ _ _ _ _).mp hmem).2.1
  induction rs generalizing included before with
  | nil => simp [records] at h
  | cons r rs ih =>
      rw [records_cons] at h
      split at h
      · next hwrites =>
          have hasks := ((writes_header_iff heading included r).mp hwrites).1
          rcases before with _ | ⟨x, _ | ⟨y, before⟩⟩
          · simp at h
          · simp only [List.cons_append, List.nil_append, List.cons.injEq, Record.header.injEq] at h
            obtain ⟨rfl, ⟨rfl, -⟩, -⟩ := h
            exact ⟨[], r, rfl, hasks, by simp⟩
          · simp only [List.cons_append, List.cons.injEq] at h
            obtain ⟨rfl, rfl, hlater⟩ := h
            -- The file of the header that comes later is another one.
            have hother : file ∉ r.file :: included := by
              have hmem : .header file name ∈ (records heading (r.file :: included) rs).1 := by
                simp [hlater]
              exact ((header_mem_records _ _ _ _ _).mp hmem).2.1
            obtain ⟨front, s, rfl, hs, hfront⟩ := ih hlater hother
            refine ⟨.replace r :: .header r.file heading :: front, s, rfl, hs, ?_⟩
            intro t ht
            simp only [List.mem_cons, Record.replace.injEq, reduceCtorEq, false_or] at ht
            rcases ht with rfl | ht
            · exact fun hfile => hother (by simp [hfile.2.2])
            · exact hfront t ht
      · next hskips =>
          rw [writes_header_iff] at hskips
          rcases before with _ | ⟨x, before⟩
          · simp at h
          · simp only [List.cons_append, List.cons.injEq] at h
            obtain ⟨rfl, hlater⟩ := h
            obtain ⟨front, s, rfl, hs, hfront⟩ := ih hlater hnot
            refine ⟨.replace r :: front, s, rfl, hs, ?_⟩
            intro t ht
            simp only [List.mem_cons, Record.replace.injEq] at ht
            rcases ht with rfl | ht
            · rintro ⟨hheading, hneeds, rfl⟩
              exact hskips ⟨⟨hheading, hneeds, rfl⟩, hnot⟩
            · exact hfront t ht

end EditStream

/-! ## The headers of a run -/

/-- A pass that is written: its language has class templates, and no two replacements of a file
overlap. -/
def Pass.IsWritten (p : Pass) : Prop :=
  p.language.hasClasses = true ∧
    ∀ e ∈ p.edits, e.replacements.Pairwise fun r s => ¬ (r.offset < s.stop ∧ s.offset < r.stop)

instance (p : Pass) : Decidable p.IsWritten := inferInstanceAs (Decidable (_ ∧ _))

/-- No overlap is found if and only if the replacements of each file are apart. -/
theorem FileEdits.overlap?_eq_none_iff (es : List FileEdits) :
    overlap? es = none ↔
      ∀ e ∈ es, e.replacements.Pairwise fun r s => ¬ (r.offset < s.stop ∧ s.offset < r.stop) := by
  rw [overlap?, List.findSome?_eq_none_iff]
  simp only [Replacement.overlap?_eq_none_iff]

namespace Session

/-- The records of a run are those of all its replacements in a row. -/
theorem flatten_written (heading : Text) (included : List Text) (passes : List Pass) :
    (written heading included passes).flatten
      = (records heading included ((writing passes).flatMap Pass.replacements)).1 := by
  induction passes generalizing included with
  | nil => rfl
  | cons p rest ih =>
      rw [written, writing, List.filter_cons]
      split
      · rw [List.flatten_cons, ih, List.flatMap_cons, records_append, writing]
      · rw [ih, writing]

/-- Each block of a run has the replacements of its pass. -/
theorem map_replacements_written (heading : Text) (included : List Text) (passes : List Pass) :
    (written heading included passes).map (List.filterMap Record.replacement?)
      = (writing passes).map Pass.replacements := by
  induction passes generalizing included with
  | nil => rfl
  | cons p rest ih =>
      rw [written, writing, List.filter_cons]
      split
      · rw [List.map_cons, ih, filterMap_replacement?_records, List.map_cons, writing]
      · rw [ih, writing]

/-- The records that are written are those of a pass, after those of the passes before it. -/
theorem exists_records_of_mem_written {heading : Text} {included : List Text} {passes : List Pass}
    {rs : List Record} (h : rs ∈ written heading included passes) :
    ∃ included' p, rs = (records heading included' (Pass.replacements p)).1 := by
  induction passes generalizing included with
  | nil => cases h
  | cons p rest ih =>
      rw [written] at h
      split at h
      · rcases List.mem_cons.mp h with rfl | h
        · exact ⟨included, p, rfl⟩
        · exact ih h
      · exact ih h

end Session

namespace Writer

/-- What writing a pass does: nothing at all, a failure that changes nothing, or a block. -/
theorem run_putPass_cases (w : Writer) (p : Pass) :
    (p.language.hasClasses = false ∧ ¬ p.IsWritten ∧ (putPass p).run w = .ok () w) ∨
      (p.language.hasClasses = true ∧ ¬ p.IsWritten ∧ ∃ b, (putPass p).run w = .error b w) ∨
      (p.language.hasClasses = true ∧ p.IsWritten ∧ (putPass p).run w = .ok ()
        { session := { w.session with
            included := (records w.session.header w.session.included p.replacements).2 },
          stream := w.stream ++
            block (records w.session.header w.session.included p.replacements).1 }) := by
  rw [run_putPass, ofFlush, Session.flush, Pass.IsWritten, ← FileEdits.overlap?_eq_none_iff]
  cases p.language.hasClasses with
  | false => simp
  | true =>
      cases FileEdits.overlap? p.edits with
      | none => exact Or.inr (Or.inr ⟨rfl, ⟨rfl, rfl⟩, rfl⟩)
      | some pair => exact Or.inr (Or.inl ⟨rfl, by simp, _, rfl⟩)

/-- A run writes the blocks of the passes that are written. -/
theorem stream_foldl_after (w : Writer) (passes : List Pass) :
    (passes.foldl after w).stream = w.stream ++
      (Session.written w.session.header w.session.included
        (passes.filter fun p => p.IsWritten)).flatMap block := by
  induction passes generalizing w with
  | nil => simp [Session.written]
  | cons p rest ih =>
      rw [List.foldl_cons, ih, List.filter_cons, after]
      rcases w.run_putPass_cases p with ⟨-, hp, hrun⟩ | ⟨-, hp, b, hrun⟩ | ⟨hclasses, hp, hrun⟩
      · rw [hrun, if_neg (by simpa using hp)]
      · rw [hrun, if_neg (by simpa using hp)]
      · rw [hrun, if_pos (decide_eq_true hp), Session.written, if_pos hclasses, List.flatMap_cons,
          List.append_assoc]

end Writer

/-- **Headers.** A run of passes, some of which may not be written, writes a block for each pass
that is, with the replacements of the pass. No file is given the header twice, and a file is given
it if and only if a replacement in one of the blocks asks for it. The header of a file stands in
the same block as the first replacement that asks for it and right behind it. A pass whose
language has no class templates, or that fails because replacements overlap, writes nothing and
leaves the session as it was. -/
theorem headers_written_once (header : Text) (passes : List Pass) :
    (∃ blocks : List (List Record),
      (passes.foldl Writer.after { session := { header } }).stream = blocks.flatMap block ∧
      blocks.map (List.filterMap Record.replacement?)
        = (passes.filter fun p => p.IsWritten).map Pass.replacements ∧
      (blocks.flatten.filterMap Record.headed?).Nodup ∧
      (∀ file, file ∈ blocks.flatten.filterMap Record.headed? ↔
        ∃ p ∈ passes, p.IsWritten ∧ ∃ r ∈ p.replacements, Asks header r file) ∧
      ∀ earlier before file name after later,
        blocks = earlier ++ (before ++ .header file name :: after) :: later →
        name = header ∧ ∃ front r, before = front ++ [.replace r] ∧ Asks header r file ∧
          ∀ s, .replace s ∈ earlier.flatten ++ front → ¬ Asks header s file) ∧
    ∀ (w : Writer) (p : Pass),
      (p.language.hasClasses = false → (Writer.putPass p).run w = .ok () w) ∧
      (p.language.hasClasses = true → ¬ p.IsWritten → ∃ b, (Writer.putPass p).run w = .error b w) ∧
      (Writer.putPass p).run w = w.ofFlush p := by
  have hwriting : Session.writing (passes.filter fun p => p.IsWritten)
      = passes.filter fun p => p.IsWritten := by
    refine List.filter_eq_self.mpr fun p hp => ?_
    exact (of_decide_eq_true (List.mem_filter.mp hp).2).1
  constructor
  · refine ⟨Session.written header [] (passes.filter fun p => p.IsWritten), ?_, ?_, ?_, ?_, ?_⟩
    · rw [Writer.stream_foldl_after]
      rfl
    · rw [Session.map_replacements_written, hwriting]
    · rw [Session.flatten_written]
      exact nodup_headed_records _ _ _
    · intro file
      simp only [mem_headed_iff, Session.header_mem_written, hwriting, List.mem_flatMap,
        List.mem_filter, decide_eq_true_eq]
      constructor
      · rintro ⟨name, -, -, r, ⟨p, ⟨hp, hwritten⟩, hr⟩, hasks⟩
        exact ⟨p, hp, hwritten, r, hr, hasks⟩
      · rintro ⟨p, hp, hwritten, r, hr, hasks⟩
        exact ⟨header, rfl, List.not_mem_nil, r, ⟨p, ⟨hp, hwritten⟩, hr⟩, hasks⟩
    · intro earlier before file name after later hblocks
      have hflatten : (records header []
          ((passes.filter fun p => p.IsWritten).flatMap Pass.replacements)).1
            = (earlier.flatten ++ before) ++ .header file name :: (after ++ later.flatten) := by
        rw [← hwriting, ← Session.flatten_written, hblocks]
        simp
      have hname : name = header := by
        have hmem : .header file name ∈ (records header []
            ((passes.filter fun p => p.IsWritten).flatMap Pass.replacements)).1 := by
          rw [hflatten]
          simp
        exact ((header_mem_records _ _ _ _ _).mp hmem).1
      obtain ⟨front, r, hbefore, hasks, hfirst⟩ := before_header_of_records hflatten
      -- The block does not start with the header, so the replacement before it is in the block too.
      have hne : before ≠ [] := by
        rintro rfl
        obtain ⟨included, p, hrecords⟩ := Session.exists_records_of_mem_written
          (show .header file name :: after ∈ Session.written header []
            (passes.filter fun p => p.IsWritten) by rw [hblocks]; simp)
        exact records_ne_header_cons _ _ _ _ _ _ hrecords.symm
      obtain ⟨front', last, rfl⟩ : ∃ front' last, before = front' ++ [last] :=
        ⟨before.dropLast, before.getLast hne, (List.dropLast_append_getLast hne).symm⟩
      rw [← List.append_assoc] at hbefore
      obtain ⟨hfront, hlast⟩ := List.append_inj' hbefore rfl
      refine ⟨hname, front', r, ?_, hasks, ?_⟩
      · rw [List.singleton_inj.mp hlast]
      · rwa [hfront]
  · intro w p
    refine ⟨?_, ?_, w.run_putPass p⟩
    · intro hclasses
      rcases w.run_putPass_cases p with ⟨-, -, hrun⟩ | ⟨htrue, -⟩ | ⟨htrue, -⟩
      · exact hrun
      · simp [hclasses] at htrue
      · simp [hclasses] at htrue
    · intro hclasses hnot
      rcases w.run_putPass_cases p with ⟨hfalse, -⟩ | ⟨-, -, hrun⟩ | ⟨-, hp, -⟩
      · simp [hclasses] at hfalse
      · exact hrun
      · exact absurd hp hnot

/-- A pass in C, one with replacements that overlap, and one that is written twice. -/
def mixedPasses : List Pass :=
  let written : Pass :=
    { unit := [], language := .cxx, verdicts := [], edits := [⟨"a.h", [⟨"a.h", 4, 5, "z", true⟩]⟩] }
  [{ unit := [], language := .c, verdicts := [], edits := [⟨"c.h", [⟨"c.h", 0, 1, "x", true⟩]⟩] },
   { unit := [], language := .cxx, verdicts := [],
     edits := [⟨"a.h", [⟨"a.h", 0, 3, "x", true⟩, ⟨"a.h", 1, 3, "y", true⟩]⟩] },
   written, written]

/-- The pass that fails leaves the header of its file to the next one, and that of the pass in
C is never written. -/
theorem headers_written_once_mixed :
    ∃ blocks : List (List Record),
      (mixedPasses.foldl Writer.after { session := { header := "p.h" } }).stream
        = blocks.flatMap block ∧
      blocks.length = 2 ∧ (blocks.flatten.filterMap Record.headed?).Nodup ∧
      Text.ofString "a.h" ∈ blocks.flatten.filterMap Record.headed? ∧
      Text.ofString "c.h" ∉ blocks.flatten.filterMap Record.headed? := by
  obtain ⟨⟨blocks, hstream, hblocks, hnodup, hfiles, -⟩, -⟩ :=
    headers_written_once "p.h" mixedPasses
  refine ⟨blocks, hstream, ?_, hnodup, ?_, ?_⟩
  · have hlength := congrArg List.length hblocks
    rw [List.length_map] at hlength
    exact hlength
  · rw [hfiles]
    decide
  · rw [hfiles]
    decide

end PointerMigration
