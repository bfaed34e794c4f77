/-
# Settings in a stream

The wrapper, the accessor and the header of the settings are texts that are written into a stream. A
record is one line, with zero bytes for the line breaks of its text, and the reader of lines drops a
carriage return at the end. Settings of one line each are therefore always read, but not always as
they are: a zero byte comes back as a line break, and a carriage return at the end of the accessor
or the header does not come back.
-/
import PointerMigration.Proofs.Scopes
import PointerMigration.Proofs.Shards
import PointerMigration.Proofs.UnitData
import PointerMigration.Proofs.Verdicts

namespace PointerMigration

open EditStream

/-! ## Texts at the end of a line -/

namespace Text

/-- What is read of a text that ends a record. -/
def received (t : Text) : Text := replaceByte 0 newline (dropReturn t)

/-- A line stays as it is if it does not end with a carriage return. -/
theorem dropReturn_eq_self_iff {t : Text} :
    dropReturn t = t ↔ t.getLast? ≠ some carriageReturn := by
  refine ⟨fun h hlast => ?_, dropReturn_of_getLast?⟩
  rw [dropReturn, if_pos hlast] at h
  have hlength := congrArg List.length h
  have hne : t ≠ [] := fun hnil => by simp [hnil] at hlast
  have hpos := List.length_pos_of_ne_nil hne
  rw [List.length_dropLast] at hlength
  omega

theorem zero_notMem_received (t : Text) : 0 ∉ received t :=
  notMem_replaceByte (by decide) _

/-- The texts that are read as they are. -/
theorem received_eq_self_iff {t : Text} :
    received t = t ↔ 0 ∉ t ∧ t.getLast? ≠ some carriageReturn := by
  constructor
  · intro h
    have hzero : 0 ∉ t := h ▸ zero_notMem_received t
    refine ⟨hzero, ?_⟩
    rw [← dropReturn_eq_self_iff]
    have hlength := congrArg List.length h
    rw [received, replaceByte, List.length_map] at hlength
    exact (dropReturn_isPrefix t).eq_of_length hlength
  · rintro ⟨hzero, hlast⟩
    rw [received, dropReturn_of_getLast? hlast, replaceByte, List.map_congr_left (g := id),
      List.map_id]
    intro b hb
    have hb0 : b ≠ 0 := fun h => hzero (h ▸ hb)
    exact if_neg hb0

/-- The carriage return is dropped whether line breaks are written as they are or as zero bytes. -/
theorem dropReturn_replaceByte (t : Text) :
    dropReturn (replaceByte newline 0 t) = replaceByte newline 0 (dropReturn t) := by
  have hlast : (replaceByte newline 0 t).getLast? = some carriageReturn ↔
      t.getLast? = some carriageReturn := by
    rw [replaceByte, List.getLast?_map]
    cases t.getLast? with
    | none => simp
    | some b =>
        by_cases hb : b = newline
        · simp [hb, newline, carriageReturn]
        · simp [hb]
  unfold dropReturn
  by_cases h : t.getLast? = some carriageReturn
  · rw [if_pos h, if_pos (hlast.mpr h), replaceByte, replaceByte, List.map_dropLast]
  · rw [if_neg h, if_neg (mt hlast.mp h)]

/-- A text that was read is written as the line that it was read from. -/
theorem replaceByte_received (t : Text) :
    replaceByte newline 0 (received t) = dropReturn (replaceByte newline 0 t) := by
  rw [dropReturn_replaceByte, received]
  generalize dropReturn t = line
  simp only [replaceByte, List.map_map]
  apply List.map_congr_left
  intro b _
  by_cases hb : b = 0
  · simp [hb, newline]
  · simp [hb]

end Text

/-! ## Records -/

/-- A replacement with what is read of its text. -/
def Replacement.received (r : Replacement) : Replacement := { r with text := r.text.received }

/-- A replacement arrives as it is unless its text has a zero byte or ends with a carriage
return. -/
theorem Replacement.received_eq_self_iff {r : Replacement} :
    r.received = r ↔ 0 ∉ r.text ∧ r.text.getLast? ≠ some Text.carriageReturn := by
  rw [← Text.received_eq_self_iff]
  constructor
  · exact congrArg Replacement.text
  · intro h
    rw [received, h]

/-- A replacement whose record can be read, though the text may be another. -/
structure Replacement.Legible (r : Replacement) : Prop where
  offset_nonneg : 0 ≤ r.offset
  length_nonneg : 0 ≤ r.length
  file_line : Text.newline ∉ r.file
  file_field : IsField r.file

namespace EditStream.Record

/-- A record with what is read of its last field. -/
def received : Record → Record
  | replace r => replace r.received
  | header file name => header file (Text.dropReturn name)

/-- A record whose line can be read. -/
def Legible : Record → Prop
  | replace r => r.Legible
  | header file name => Text.newline ∉ file ∧ IsField file ∧ Text.newline ∉ name

theorem Legible.isLine {r : Record} (h : r.Legible) : r.IsLine := by
  cases r with
  | replace r => exact h.file_line
  | header file name => exact ⟨h.1, h.2.2⟩

@[simp] theorem file_received (r : Record) : r.received.file = r.file := by
  cases r with
  | replace r => rfl
  | header file name => rfl

/-- The replacement of a received record is the received replacement. -/
theorem replacement?_received (r : Record) :
    r.received.replacement? = r.replacement?.map Replacement.received := by
  cases r with
  | replace r => rfl
  | header file name => rfl

/-- The replacements of received records are the received replacements. -/
theorem filterMap_replacement?_received (rs : List Record) :
    (rs.map received).filterMap replacement?
      = (rs.filterMap replacement?).map Replacement.received := by
  rw [List.filterMap_map, List.map_filterMap]
  exact List.filterMap_congr fun r _ => r.replacement?_received

/-- A received record asks for a header if the record that was written does, up to a carriage
return. -/
theorem received_eq_header_iff {r : Record} {file name : Text} :
    r.received = header file name ↔ ∃ name', r = header file name' ∧
      Text.dropReturn name' = name := by
  cases r with
  | replace r => simp [received]
  | header file' name' => simp [received]

/-- What is read of a record has the line that is seen of it. -/
theorem line_received (r : Record) : r.received.line = r.seen := by
  cases r with
  | replace r =>
      have htext := Text.replaceByte_received r.text
      rw [seen, line, line, fields, join_five]
      simp only [dropReturn_append_separator, ← htext]
      rw [received, fields, join_five]
      rfl
  | header file name =>
      rw [seen_header]
      rfl

/-- The line that is seen of a record is read. -/
theorem Legible.parse_line {r : Record} (h : r.Legible) :
    parse r.received.line = .ok r.received.plain := by
  cases r with
  | replace r =>
      exact parse_line_replace h.offset_nonneg h.length_nonneg h.file_field
        (Text.zero_notMem_received r.text)
  | header file name => exact parse_line_header h.2.1 _

end EditStream.Record

/-- Blocks of records that can be read are read as what is read of the records, each of them
once. -/
theorem EditStream.parse_blocks_received {rss : List (List Record)}
    (hlegible : ∀ r ∈ rss.flatten, r.Legible)
    (hfit : ∀ r ∈ rss.flatten, r.line.length < lineLimit) :
    parse (rss.flatMap block)
      = .ok ((rss.flatten.map Record.received).map Record.plain).eraseDups := by
  rw [parse_blocks_eq_ok_iff fun r hr => (hlegible r hr).isLine]
  refine ⟨hfit, ?_⟩
  have hseen : rss.flatten.map Record.seen = (rss.flatten.map Record.received).map Record.line := by
    rw [List.map_map]
    exact List.map_congr_left fun r _ => r.line_received.symm
  rw [hseen, readRecords_of_parse_line]
  intro x hx
  obtain ⟨r, hr, rfl⟩ := List.mem_map.mp hx
  exact (hlegible r hr).parse_line

/-! ## Runs -/

namespace Session

theorem hasClasses_of_mem_writing {passes : List Pass} {p : Pass} (h : p ∈ writing passes) :
    p.language.hasClasses = true := (List.mem_filter.mp h).2

/-- The other passes leave no trace. -/
theorem written_writing (heading : Text) (included : List Text) (passes : List Pass) :
    written heading included (writing passes) = written heading included passes := by
  induction passes generalizing included with
  | nil => rfl
  | cons p rest ih =>
      rw [writing, List.filter_cons, written]
      split
      · next hclasses =>
          rw [written, if_pos hclasses, ← ih]
          rfl
      · exact ih included

/-- The replacements and the header of a run fit into lines. -/
def Fits (header : Text) (passes : List Pass) : Prop :=
  ∀ p ∈ writing passes, ∀ r ∈ p.replacements, (Record.replace r).line.length < lineLimit ∧
    (header ≠ [] → r.needsHeader = true → (Record.header r.file header).line.length < lineLimit)

/-- **What is read of a run.** A run writes a stream that can be read, with the files of its
replacements. A file has what is read of its replacements, each of them once, and what is read of
the header if it needs it. -/
theorem exists_parse_output {header : Text} {passes : List Pass}
    (hflush : (Command.flushAll { header } passes).2.2 = none) (hheader : Text.newline ∉ header)
    (hlegible : ∀ p ∈ writing passes, ∀ r ∈ p.replacements, r.Legible) (hfit : Fits header passes) :
    ∃ set, PatchSet.parse (Command.flushAll { header } passes).2.1 = .ok set ∧
      (∀ name, name ∈ set.files.map FilePatch.name ↔
        ∃ p ∈ writing passes, ∃ r ∈ p.replacements, r.file = name) ∧
      ∀ f ∈ set.files,
        f.replacements = (((writing passes).flatMap fun p => p.replacements.filter fun r =>
          r.file = f.name).map fun r => r.received.plain).eraseDups ∧
        f.headers =
          if NeedsHeader header (writing passes) f.name then [Text.dropReturn header] else [] := by
  have hclasses : ∀ p ∈ writing passes, p.language.hasClasses = true :=
    fun p => hasClasses_of_mem_writing
  have hrecords : ∀ x ∈ (written header [] (writing passes)).flatten,
      x.Legible ∧ x.line.length < lineLimit := by
    intro x hx
    obtain ⟨p, hp, r, hr, rfl | ⟨hasks, rfl⟩⟩ := mem_written hx
    · exact ⟨hlegible p hp r hr, (hfit p hp r hr).1⟩
    · have hr' := hlegible p hp r hr
      exact ⟨⟨hr'.file_line, hr'.file_field, hheader⟩, (hfit p hp r hr).2 hasks.1 hasks.2.1⟩
  refine ⟨PatchSet.ofRecords (((written header [] (writing passes)).flatten.map
    Record.received).map Record.plain).eraseDups, ?_, ?_, ?_⟩
  · rw [output_of_eq_none hflush, ← written_writing, PatchSet.parse,
      parse_blocks_received (fun x hx => (hrecords x hx).1) fun x hx => (hrecords x hx).2]
    rfl
  · intro name
    rw [PatchSet.mem_names_ofRecords, ← exists_written_file_iff hclasses header]
    simp only [List.mem_eraseDups, List.mem_map, exists_exists_and_eq_and, Record.file_plain,
      Record.file_received]
  · intro f hf
    have hpatch := PatchSet.eq_patchFor_of_mem hf
    have hheading : ∀ file name, .header file name ∈
        (written header [] (writing passes)).flatten.map Record.received →
          name = Text.dropReturn header := by
      intro file name h
      obtain ⟨x, hx, hreceived⟩ := List.mem_map.mp h
      obtain ⟨name', rfl, rfl⟩ := Record.received_eq_header_iff.mp hreceived
      rw [((header_mem_written _ _ _ _ _).mp hx).1]
    have hheaders : .header f.name (Text.dropReturn header) ∈
          (written header [] (writing passes)).flatten.map Record.received ↔
        .header f.name header ∈ (written header [] (writing passes)).flatten := by
      refine ⟨fun h => ?_, fun h => List.mem_map.mpr ⟨_, h, rfl⟩⟩
      obtain ⟨x, hx, hreceived⟩ := List.mem_map.mp h
      obtain ⟨name', rfl, -⟩ := Record.received_eq_header_iff.mp hreceived
      exact ((header_mem_written _ _ _ _ _).mp hx).1 ▸ hx
    rw [PatchSet.patchFor_eq, PatchSet.filterMap_ownReplacement?_eraseDups,
      PatchSet.filterMap_ownHeader?_eraseDups hheading] at hpatch
    constructor
    · rw [congrArg FilePatch.replacements hpatch]
      simp only [Record.filterMap_replacement?_received, filterMap_replacement?_written,
        writing_eq hclasses, List.filter_map, List.map_map, List.filter_flatMap]
      rfl
    · rw [congrArg FilePatch.headers hpatch]
      simp only [← header_mem_written_iff hclasses, hheaders]

end Session

/-! ## The texts of types -/

namespace CType

/-- The names in a type. -/
def names : CType → List Text
  | { name, elem, .. } =>
    name ::
      match elem with
      | some e => e.names
      | none => []

theorem names_eq (t : CType) : t.names = t.name :: t.elem.toList.flatMap names := by
  obtain ⟨kind, name, isConst, isVolatile, elem, tag⟩ := t
  cases elem with
  | none => rfl
  | some e => simp [names]

theorem zero_notMem_leading (t : CType) : 0 ∉ t.leading := by
  unfold leading qualifiers
  cases t.isConst <;> cases t.isVolatile <;> decide

theorem zero_notMem_trailing (t : CType) : 0 ∉ t.trailing := by
  unfold trailing qualifiers
  cases t.isConst <;> cases t.isVolatile <;> decide

/-- A type is spelled without zero bytes if its names have none. -/
theorem zero_notMem_spell {t : CType} (hnames : ∀ name ∈ t.names, 0 ∉ name) {s : Text}
    (h : t.spell = some s) : 0 ∉ s := by
  induction t using CType.induction generalizing s with
  | h t ih =>
      rw [names_eq, List.forall_mem_cons] at hnames
      have hleading := t.zero_notMem_leading
      have htrailing := t.zero_notMem_trailing
      have hunscoped : 0 ∉ unscoped t.name :=
        fun hzero => hnames.1 ((unscoped_suffix t.name).subset hzero)
      have hstar : 0 ∉ ("*" : Text) := by decide
      have hauto : 0 ∉ ("auto" : Text) := by decide
      rw [spell.eq_def] at h
      obtain ⟨kind, name, isConst, isVolatile, elem, tag⟩ := t
      simp only at h hnames hunscoped
      split at h
      · cases elem with
        | none => cases h
        | some e =>
            obtain ⟨inner, hinner, rfl⟩ := Option.map_eq_some_iff.mp h
            have hinner' := ih e rfl (by simpa using hnames.2) hinner
            simp [hinner', hstar, htrailing]
      · cases h
        simp [hleading, hauto]
      · cases h
        simp [hleading, hnames.1]
      · cases h
        simp [hleading, hunscoped]

/-- Nor has what a pointer points to. -/
theorem zero_notMem_spell? {t : CType} (hnames : ∀ name ∈ t.names, 0 ∉ name) {s : Text}
    (h : spell? t.pointee? = some s) : 0 ∉ s := by
  rw [names_eq, List.forall_mem_cons] at hnames
  unfold pointee? at h
  split at h
  · cases helem : t.elem with
    | none =>
        rw [helem] at h
        cases h
        exact List.not_mem_nil
    | some e =>
        rw [helem] at h hnames
        exact zero_notMem_spell (by simpa using hnames.2) h
  · cases h
    exact List.not_mem_nil

end CType

/-- The names of the types in a unit. -/
def CompilationUnit.typeNames (u : CompilationUnit) : List Text :=
  u.nodes.flatMap fun n => n.type.toList.flatMap CType.names

/-! ## The texts of settings -/

namespace Settings

/-- A replacement with a text of the settings: the wrapper around a type, for which the header is
needed, or the accessor. -/
inductive Writes (s : Settings) (r : Replacement) : Prop where
  | declaration (before pointee : Text) (hbefore : 0 ∉ before) (hpointee : 0 ∉ pointee)
      (htext : r.text = before ++ s.wrapper ++ "<" ++ pointee ++ "> ")
      (hneeds : r.needsHeader = true)
  | accessor (htext : r.text = s.accessor) (hneeds : r.needsHeader = false)

/-- What the settings put into a replacement, and into the header that it needs, is read as it
is. -/
def Carries (s : Settings) (r : Replacement) : Prop :=
  if r.needsHeader then 0 ∉ s.wrapper ∧ s.header.getLast? ≠ some Text.carriageReturn
  else 0 ∉ s.accessor ∧ s.accessor.getLast? ≠ some Text.carriageReturn

variable {s : Settings}

/-- Settings that are not refused are lines. -/
theorem newline_notMem_of_validate (h : s.validate = .ok ()) :
    Text.newline ∉ s.wrapper ++ s.accessor ++ s.header := by
  unfold validate at h
  split at h
  · cases h
  split at h
  · cases h
  split at h
  · cases h
  assumption

/-- The bytes of a declaration: those of the wrapper may be zero, and the last one is a space. -/
theorem Writes.text_of_needsHeader {r : Replacement} (h : s.Writes r)
    (hneeds : r.needsHeader = true) :
    (0 ∈ r.text ↔ 0 ∈ s.wrapper) ∧ r.text.getLast? = some 32 := by
  cases h with
  | declaration before pointee hbefore hpointee htext _ =>
      have hopen : 0 ∉ ("<" : Text) := by decide
      have hclose : 0 ∉ ("> " : Text) := by decide
      rw [htext]
      refine ⟨by simp [hbefore, hpointee, hopen, hclose], ?_⟩
      rw [List.getLast?_append]
      rfl
  | accessor _ hneeds' => rw [hneeds] at hneeds'; cases hneeds'

/-- A replacement that needs no header is the accessor. -/
theorem Writes.text_of_not_needsHeader {r : Replacement} (h : s.Writes r)
    (hneeds : r.needsHeader = false) :
    r.text = s.accessor := by
  cases h with
  | declaration _ _ _ _ _ hneeds' => rw [hneeds] at hneeds'; cases hneeds'
  | accessor htext _ => exact htext

/-- A replacement that the settings carry is read as it is. -/
theorem Writes.received_eq_of_carries {r : Replacement} (h : s.Writes r) (hcarries : s.Carries r) :
    r.received = r := by
  rw [Replacement.received_eq_self_iff]
  rw [Carries] at hcarries
  cases hneeds : r.needsHeader with
  | true =>
      rw [if_pos hneeds] at hcarries
      obtain ⟨hzero, hlast⟩ := h.text_of_needsHeader hneeds
      exact ⟨mt hzero.mp hcarries.1, by rw [hlast]; decide⟩
  | false =>
      rw [if_neg (by simp [hneeds])] at hcarries
      rwa [h.text_of_not_needsHeader hneeds]

/-- The settings carry a replacement whose text was read from the record of some replacement. -/
theorem Writes.carries_of_text_eq {r q : Replacement} (hr : s.Writes r) (hq : s.Writes q)
    (htext : r.text = q.text.received)
    (hheader : r.needsHeader = true → s.header.getLast? ≠ some Text.carriageReturn) :
    s.Carries r := by
  have hzero : 0 ∉ r.text := htext ▸ Text.zero_notMem_received q.text
  rw [Carries]
  cases hneeds : r.needsHeader with
  | true =>
      rw [if_pos rfl]
      exact ⟨mt (hr.text_of_needsHeader hneeds).1.mpr hzero, hheader hneeds⟩
  | false =>
      rw [if_neg (by simp)]
      rw [hr.text_of_not_needsHeader hneeds] at htext hzero
      refine ⟨hzero, ?_⟩
      cases hneeds' : q.needsHeader with
      | true =>
          -- A declaration ends in a space, and so does what is read of it.
          have hlast := (hq.text_of_needsHeader hneeds').2
          rw [htext, Text.received, Text.dropReturn_of_getLast? (by rw [hlast]; decide),
            Text.replaceByte, List.getLast?_map, hlast]
          decide
      | false =>
          rw [hq.text_of_not_needsHeader hneeds'] at htext
          exact (Text.received_eq_self_iff.mp htext.symm).2

end Settings

/-- The new declaration of a field has the wrapper around the type that the field points to. -/
theorem Declaration.writes_of_replacement {settings : Settings} {field : Node} {r : Replacement}
    (h : replacement settings field = .ok (some r))
    (hnames : ∀ t, field.type = some t → ∀ name ∈ t.names, 0 ∉ name) : settings.Writes r := by
  obtain ⟨htext, hneeds⟩ : text settings field = some r.text ∧ r.needsHeader = true := by
    unfold replacement at h
    split at h
    · cases h
    split at h
    · cases h
    split at h
    · cases h
    split at h
    · cases h
    split at h
    · cases h
    · next htext =>
        cases h
        exact ⟨htext, rfl⟩
  unfold text at htext
  cases htype : field.type with
  | none => simp [htype] at htext
  | some t =>
      rw [htype] at htext
      obtain ⟨pointee, hpointee, htext⟩ := Option.map_eq_some_iff.mp htext
      refine .declaration _ pointee ?_ (CType.zero_notMem_spell? (hnames t htype) hpointee)
        htext.symm hneeds
      rw [List.mem_append, not_or]
      refine ⟨?_, t.zero_notMem_leading⟩
      cases field.isMutable <;> decide

/-- The replacements of a pass have the texts of the settings. -/
theorem Pass.writes_of_run {settings : Settings} {exclusions : Exclusions}
    {u : CompilationUnit} {p : Pass} (hrun : (run settings exclusions u).2 = .ok p)
    (hnames : ∀ name ∈ u.typeNames, 0 ∉ name) {r : Replacement} (hr : r ∈ p.replacements) :
    settings.Writes r := by
  obtain ⟨input, found, outcomes, -, hfound, houtcomes, rfl⟩ := run_eq_ok_iff.mp hrun
  obtain ⟨htidy, hlists⟩ := FileEdits.ofReplacements_spec
    (found.filterMap Finding.declaration? ++ outcomes.filterMap Use.Outcome.replacement?)
  obtain ⟨e, he, hr⟩ := List.mem_flatMap.mp hr
  have hmem := (hlists r).mp ⟨e, he, (htidy.file_eq e he r hr).symm, hr⟩
  rw [List.mem_append, List.mem_filterMap, List.mem_filterMap] at hmem
  rcases hmem with ⟨f, hf, hdeclaration⟩ | ⟨o, ho, hinsertion⟩
  · cases f with
    | accepted field d =>
        cases hdeclaration
        obtain ⟨ancestors, index, hhas, -, -, hreplacement⟩ :=
          (Finding.accepted_mem_iff hfound).mp hf
        refine Declaration.writes_of_replacement hreplacement fun t ht name hname => hnames name ?_
        refine List.mem_flatMap.mpr ⟨field, (u.mem_nodes_iff field).mpr ⟨_, _, hhas⟩, ?_⟩
        rw [ht]
        simpa using hname
    | rejected | nameElsewhere | uses => cases hdeclaration
  · cases o with
    | insertion d =>
        cases hinsertion
        obtain ⟨m, -, houtcome⟩ := (mem_loggedSteps_iff houtcomes _).mp ho
        obtain ⟨-, field, place, -, -, -, rfl⟩ := Use.outcome_eq_insertion_iff.mp houtcome
        exact .accessor rfl rfl
    | untouched | inMacro => cases hinsertion

/-- The pass over a unit with a field and a use of it, with any accessor. -/
theorem exists_run_deducedBeforeField (accessor : Text) :
    ∃ p, (Pass.run { accessor } {} deducedBeforeField).2 = .ok p ∧ Session.writing [p] = [p] ∧
      (Command.flushAll { header := Settings.header {} } [p]).2.2 = none ∧
      p.replacements
        = [⟨"a.h", 10, 5, "CheckedPtr<int> ", true⟩, ⟨"a.cc", 43, 0, accessor, false⟩] ∧
      ∀ q ∈ Session.writing [p], ∀ r ∈ q.replacements, r.Legible := by
  obtain ⟨p, hrun, hwriting, hflush, hreplacements⟩ :
      ∃ p, (Pass.run { accessor } {} deducedBeforeField).2 = .ok p ∧ Session.writing [p] = [p] ∧
        (Command.flushAll { header := Settings.header {} } [p]).2.2 = none ∧
        p.replacements
          = [⟨"a.h", 10, 5, "CheckedPtr<int> ", true⟩, ⟨"a.cc", 43, 0, accessor, false⟩] :=
    ⟨_, rfl, rfl, rfl, rfl⟩
  refine ⟨p, hrun, hwriting, hflush, hreplacements, fun q hq r hr => ?_⟩
  rw [hwriting, List.mem_singleton] at hq
  rw [hq, hreplacements] at hr
  simp only [List.mem_cons, List.not_mem_nil, or_false] at hr
  rcases hr with rfl | rfl
  · exact ⟨by decide, by decide, by decide, isField_of_notMem (by decide)⟩
  · exact ⟨show (0 : Int64) ≤ 43 by decide, show (0 : Int64) ≤ 0 by decide,
      show Text.newline ∉ ("a.cc" : Text) by decide,
      isField_of_notMem (show Text.colon ∉ ("a.cc" : Text) by decide)⟩

/-- **Settings in a stream.** Passes are run with settings that are not refused over units whose
types have no zero bytes in their names, and what they ask for is written without a failure. If
the names of the files can be read and the lines fit, then the stream can be read, with the
files of the replacements. It is read as what was asked for exactly if the settings carry each
of the replacements. -/
theorem read_back_iff_carries {settings : Settings} {passes : List Pass}
    (hvalid : settings.validate = .ok ())
    (hruns : ∀ p ∈ passes, ∃ exclusions u, (Pass.run settings exclusions u).2 = .ok p ∧
      ∀ name ∈ u.typeNames, 0 ∉ name)
    (hflush : (Command.flushAll { header := settings.header } passes).2.2 = none)
    (hlegible : ∀ p ∈ Session.writing passes, ∀ r ∈ p.replacements, r.Legible)
    (hfit : Session.Fits settings.header passes) :
    ∃ set, PatchSet.parse (Command.flushAll { header := settings.header } passes).2.1 = .ok set ∧
      (∀ name, name ∈ set.files.map FilePatch.name ↔
        ∃ p ∈ Session.writing passes, ∃ r ∈ p.replacements, r.file = name) ∧
      ((∀ f ∈ set.files,
        f.replacements = (((Session.writing passes).flatMap fun p => p.replacements.filter fun r =>
          r.file = f.name).map Replacement.plain).eraseDups ∧
        f.headers =
          if NeedsHeader settings.header (Session.writing passes) f.name then [settings.header]
          else []) ↔
        ∀ p ∈ Session.writing passes, ∀ r ∈ p.replacements, settings.Carries r) := by
  have hheader : Text.newline ∉ settings.header := fun h =>
    Settings.newline_notMem_of_validate hvalid (List.mem_append_right _ h)
  have hwrites : ∀ p ∈ Session.writing passes, ∀ r ∈ p.replacements, settings.Writes r := by
    intro p hp r hr
    obtain ⟨exclusions, u, hrun, hnames⟩ := hruns p (List.mem_filter.mp hp).1
    exact Pass.writes_of_run hrun hnames hr
  obtain ⟨set, hparse, hfiles, hread⟩ := Session.exists_parse_output hflush hheader hlegible hfit
  refine ⟨set, hparse, hfiles, fun h p hp r hr => ?_, fun hcarries f hf => ?_⟩
  · obtain ⟨f, hf, hname⟩ := List.mem_map.mp ((hfiles r.file).mpr ⟨p, hp, r, hr, rfl⟩)
    obtain ⟨hreplacements, hheaders⟩ := h f hf
    rw [(hread f hf).1] at hreplacements
    rw [(hread f hf).2] at hheaders
    -- The replacement was read, though maybe from the record of another one.
    have hmem : r.plain ∈ (((Session.writing passes).flatMap fun p => p.replacements.filter fun r =>
        r.file = f.name).map fun r => r.received.plain).eraseDups := by
      rw [hreplacements, List.mem_eraseDups]
      refine List.mem_map_of_mem (List.mem_flatMap.mpr ⟨p, hp, List.mem_filter.mpr ⟨hr, ?_⟩⟩)
      simp [hname]
    obtain ⟨q, hq, hreceived⟩ := List.mem_map.mp (List.mem_eraseDups.mp hmem)
    obtain ⟨p', hp', hq⟩ := List.mem_flatMap.mp hq
    have htext : r.text = q.text.received := congrArg Replacement.text hreceived.symm
    refine (hwrites p hp r hr).carries_of_text_eq
      (hwrites p' hp' q (List.mem_filter.mp hq).1) htext ?_
    intro hneeds
    by_cases hempty : settings.header = []
    · simp [hempty]
    · have hneeded : NeedsHeader settings.header (Session.writing passes) f.name :=
        ⟨hempty, p, hp, r, hr, hname.symm, hneeds⟩
      rw [if_pos hneeded, if_pos hneeded, List.singleton_inj] at hheaders
      exact Text.dropReturn_eq_self_iff.mp hheaders
  · obtain ⟨hreplacements, hheaders⟩ := hread f hf
    constructor
    · rw [hreplacements]
      congr 1
      refine List.map_congr_left fun r hr => ?_
      obtain ⟨p, hp, hr⟩ := List.mem_flatMap.mp hr
      have hr' := (List.mem_filter.mp hr).1
      rw [(hwrites p hp r hr').received_eq_of_carries (hcarries p hp r hr')]
    · rw [hheaders]
      by_cases hneeded : NeedsHeader settings.header (Session.writing passes) f.name
      · obtain ⟨-, p, hp, r, hr, -, hneeds⟩ := hneeded
        have hcarried := hcarries p hp r hr
        rw [Settings.Carries, if_pos hneeds] at hcarried
        rw [Text.dropReturn_of_getLast? hcarried.2]
      · rw [if_neg hneeded, if_neg hneeded]

/-- The settings that there are without a file carry the edits of a declaration and a use. -/
theorem read_back_iff_carries_deduced :
    ∃ p set, (Pass.run {} {} deducedBeforeField).2 = .ok p ∧
      PatchSet.parse (Command.flushAll { header := Settings.header {} } [p]).2.1 = .ok set ∧
      ∀ f ∈ set.files,
        (f.name = "a.h" → f.replacements = [⟨"a.h", 10, 5, "CheckedPtr<int> ", false⟩] ∧
          f.headers = ["base/memory/checked_ptr.h"]) ∧
        (f.name = "a.cc" → f.replacements = [⟨"a.cc", 43, 0, ".get()", false⟩] ∧
          f.headers = []) := by
  obtain ⟨p, hrun, hwriting, hflush, hreplacements, hlegible⟩ :=
    exists_run_deducedBeforeField ".get()"
  have hfit : Session.Fits (Settings.header {}) [p] := by
    rw [Session.Fits, hwriting]
    simp only [List.mem_singleton, forall_eq, hreplacements]
    decide
  obtain ⟨set, hparse, -, hiff⟩ := @read_back_iff_carries {} [p] rfl
    (by simpa using ⟨{}, deducedBeforeField, hrun, by decide⟩) hflush hlegible hfit
  have hread := hiff.mpr (by
    rw [hwriting]
    simp only [List.mem_singleton, forall_eq, hreplacements, Settings.Carries]
    decide)
  refine ⟨p, set, hrun, hparse, fun f hf => ?_⟩
  obtain ⟨hreplaced, hheaders⟩ := hread f hf
  rw [hreplaced, hheaders, hwriting]
  simp only [NeedsHeader, List.flatMap_singleton, hreplacements, List.mem_singleton, exists_eq_left]
  refine ⟨fun hname => ?_, fun hname => ?_⟩
  · rw [hname]
    decide
  · rw [hname]
    decide

/-- Settings that are not refused may not be carried: of an accessor that ends in a carriage return,
the carriage return is not read. -/
theorem accessor_without_return :
    ∃ settings p set, settings.validate = .ok () ∧ settings.header ≠ [] ∧
      (Pass.run settings {} deducedBeforeField).2 = .ok p ∧
      PatchSet.parse (Command.flushAll { header := settings.header } [p]).2.1 = .ok set ∧
      ⟨"a.cc", 43, 0, ".get()\r", false⟩ ∈ p.replacements ∧
      (∃ f ∈ set.files, f.name = "a.cc") ∧
      ∀ f ∈ set.files, f.name = "a.cc" → f.replacements = [⟨"a.cc", 43, 0, ".get()", false⟩] := by
  obtain ⟨p, hrun, hwriting, hflush, hreplacements, hlegible⟩ :=
    exists_run_deducedBeforeField ".get()\r"
  have hfit : Session.Fits (Settings.header {}) [p] := by
    rw [Session.Fits, hwriting]
    simp only [List.mem_singleton, forall_eq, hreplacements]
    decide
  obtain ⟨set, hparse, hfiles, hread⟩ :=
    Session.exists_parse_output hflush (by decide) hlegible hfit
  have hmem : ⟨"a.cc", 43, 0, ".get()\r", false⟩ ∈ p.replacements := by
    rw [hreplacements]
    decide
  refine ⟨_, p, set, rfl, by decide, hrun, hparse, hmem, ?_, fun f hf hname => ?_⟩
  · rw [← List.mem_map, hfiles, hwriting]
    exact ⟨p, List.mem_singleton_self p, _, hmem, rfl⟩
  · rw [(hread f hf).1, hwriting, hname, List.flatMap_singleton, hreplacements]
    decide

end PointerMigration
