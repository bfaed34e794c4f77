/-
# Passes in shards

The passes of a run can be shared out among several runs, each of which starts without any header,
and the streams of these can be joined in any order. A header that one run writes once is then
written by several. As equal lines count once, both ways give the same lines, and so the same
patches: the files come in the order of their names, and all headers are one header. Only the order
of the replacements of a file is that of the lines.
-/
import PointerMigration.Proofs.CutStream
import PointerMigration.Proofs.RoundTrip

namespace PointerMigration

open EditStream

/-! ## The order of names -/

namespace Text

theorem le_iff {a b : Text} : le a b = true ↔ a ≤ b := by
  simp [le]

theorem le_trans {a b c : Text} (hab : le a b = true) (hbc : le b c = true) : le a c = true :=
  le_iff.mpr (List.le_trans (le_iff.mp hab) (le_iff.mp hbc))

theorem le_antisymm {a b : Text} (hab : le a b = true) (hba : le b a = true) : a = b :=
  List.le_antisymm (le_iff.mp hab) (le_iff.mp hba)

theorem le_or_le (a b : Text) : (le a b || le b a) = true := by
  rw [Bool.or_eq_true, le_iff, le_iff]
  exact List.le_total a b

theorem pairwise_mergeSort : ∀ l : List Text, (l.mergeSort le).Pairwise fun a b => le a b = true :=
  List.pairwise_mergeSort (fun _ _ _ => le_trans) le_or_le

/-- Names are in one order, whatever order they came in. -/
theorem mergeSort_eq_of_perm {l l' : List Text} (h : l.Perm l') :
    l.mergeSort le = l'.mergeSort le := by
  refine List.Perm.eq_of_pairwise (fun _ _ _ _ => le_antisymm) (pairwise_mergeSort l)
    (pairwise_mergeSort l') ?_
  exact (List.mergeSort_perm l le).trans (h.trans (List.mergeSort_perm l' le).symm)

end Text

namespace EditStream

/-! ## Reading blocks of lines -/

/-- The text that is read for a record that was written. -/
def Record.seen (r : Record) : Text := Text.dropReturn r.line

/-- The lines of blocks fit if those of the records do, as the marks are short. -/
theorem lines_fit_iff (rss : List (List Record)) :
    (∀ line ∈ rss.flatMap fun rs => blockLines (rs.map Record.line), line.length < lineLimit) ↔
      ∀ r ∈ rss.flatten, r.line.length < lineLimit := by
  constructor
  · intro h r hr
    obtain ⟨rs, hrs, hr⟩ := List.mem_flatten.mp hr
    apply h
    refine List.mem_flatMap.mpr ⟨rs, hrs, ?_⟩
    exact List.mem_cons_of_mem _ (List.mem_append_left _ (List.mem_map_of_mem hr))
  · intro h line hline
    rcases mem_lines_of_blocks hline with hmark | ⟨r, hr, rfl⟩
    · exact hmark.spec.2.1
    · exact h r hr

/-- Blocks are read exactly if the lines of all records fit and each of their texts can be read. -/
theorem parse_blocks_eq_ok_iff {rss : List (List Record)} (hlines : ∀ r ∈ rss.flatten, r.IsLine)
    {rs : List Record} :
    parse (rss.flatMap block) = .ok rs ↔
      (∀ r ∈ rss.flatten, r.line.length < lineLimit) ∧
        readRecords (rss.flatten.map Record.seen) = .ok rs := by
  have hbody : ∀ ls ∈ rss.map (List.map Record.line), IsBody ls := by
    intro ls hls line hline
    obtain ⟨rs, hrs, rfl⟩ := List.mem_map.mp hls
    obtain ⟨r, hr, rfl⟩ := List.mem_map.mp hline
    exact ⟨(hlines r (List.mem_flatten.mpr ⟨rs, hrs, hr⟩)).newline_notMem, r.not_isMark_line⟩
  have hblocks : rss.flatMap block
      = Text.unlines ((rss.map (List.map Record.line)).flatMap blockLines) := by
    rw [flatMap_block, List.flatMap_map]
  have htooLong : (Text.readLines lineLimit (rss.flatMap block)).2 = false ↔
      ∀ r ∈ rss.flatten, r.line.length < lineLimit := by
    rw [hblocks, Text.readLines, Text.lines_unlines (newline_notMem_blocks hbody),
      List.any_eq_false, ← lines_fit_iff, List.flatMap_map]
    simp only [decide_eq_true_eq, Nat.not_le]
  have hnone := (complete_written hlines).completeFrom_snd 1 lineLimit
  rw [parse_eq_ok_iff, htooLong]
  refine and_congr_right fun hfit => ?_
  have hkept : kept (rss.flatMap block) = rss.flatten.map Record.seen := by
    have hfit' : ∀ line ∈ (rss.map (List.map Record.line)).flatMap blockLines,
        line.length < lineLimit := by
      rw [List.flatMap_map]
      exact (lines_fit_iff rss).mpr hfit
    rw [hblocks, (cut_whole hbody).kept_eq hfit', ← List.map_flatten, List.map_map]
    rfl
  rw [kept] at hkept
  rw [hkept]
  exact and_iff_right hnone

/-- Whether records can be read does not depend on the order of the texts or on how often they come,
and nor do the records. -/
theorem readRecords_perm {ts ts' : List Text} (h : ∀ t, t ∈ ts ↔ t ∈ ts') {rs : List Record}
    (hrs : readRecords ts = .ok rs) : ∃ rs', readRecords ts' = .ok rs' ∧ rs'.Perm rs := by
  obtain ⟨hall, rfl⟩ := readRecords_eq_ok_iff.mp hrs
  refine ⟨_, readRecords_eq_ok_iff.mpr ⟨fun t ht => hall t ((h t).mpr ht), rfl⟩, ?_⟩
  exact (eraseDups_perm fun t => (h t).symm).filterMap _

/-- Blocks of the same records, in whatever order and number, are read as the same records. -/
theorem parse_blocks_perm {rss rss' : List (List Record)} (hlines : ∀ r ∈ rss.flatten, r.IsLine)
    (hsame : ∀ x, x ∈ rss.flatten ↔ x ∈ rss'.flatten) {rs : List Record}
    (h : parse (rss.flatMap block) = .ok rs) :
    ∃ rs', parse (rss'.flatMap block) = .ok rs' ∧ rs'.Perm rs := by
  obtain ⟨hfit, hread⟩ := (parse_blocks_eq_ok_iff hlines).mp h
  have htexts : ∀ t, t ∈ rss.flatten.map Record.seen ↔ t ∈ rss'.flatten.map Record.seen := by
    intro t
    simp only [List.mem_map, hsame]
  obtain ⟨rs', hread', hperm⟩ := readRecords_perm htexts hread
  refine ⟨rs',
    (parse_blocks_eq_ok_iff fun r hr => hlines r ((hsame r).mpr hr)).mpr ⟨?_, hread'⟩, hperm⟩
  intro r hr
  exact hfit r ((hsame r).mpr hr)

/-! ## What lines are read as -/

/-- The end of a text behind a separator is read without its carriage return. -/
theorem dropReturn_append_separator (a e : Text) :
    Text.dropReturn (a ++ separator ++ e) = a ++ separator ++ Text.dropReturn e := by
  by_cases he : e = []
  · have hlast : (a ++ separator).getLast? = some Text.colon := by
      rw [List.getLast?_append]
      rfl
    rw [he, List.append_nil, Text.dropReturn_of_getLast? (by rw [hlast]; decide)]
    simp [Text.dropReturn]
  · unfold Text.dropReturn
    rw [List.getLast?_append_of_ne_nil _ he, List.dropLast_append_of_ne_nil he]
    split
    · rfl
    · rfl

theorem seen_replace (r : Replacement) :
    ∃ rest, (Record.replace r).seen = replaceTag ++ separator ++ rest := by
  rw [Record.seen, Record.line, Record.fields, join_five, dropReturn_append_separator]
  exact ⟨_, rfl⟩

theorem seen_header (file name : Text) :
    (Record.header file name).seen
      = Text.join separator [headerTag, file, "-1", "-1", Text.dropReturn name] := by
  rw [Record.seen, Record.line, Record.fields, join_five, join_five]
  simp only [dropReturn_append_separator]

/-- A text without the separator is a field and at most two colons. -/
theorem exists_field_of_separator_free {t : Text} (h : ¬ separator <:+: t) :
    ∃ f n, IsField f ∧ n < 3 ∧ t = f ++ List.replicate n Text.colon := by
  have hcolons : ∃ f n, f.getLast? ≠ some Text.colon ∧ t = f ++ List.replicate n Text.colon := by
    clear h
    induction t using List.reverseRecOn with
    | nil => exact ⟨[], 0, by simp, rfl⟩
    | append_singleton t b ih =>
        by_cases hb : b = Text.colon
        · obtain ⟨f, n, hf, rfl⟩ := ih
          refine ⟨f, n + 1, hf, ?_⟩
          rw [hb, List.replicate_succ', List.append_assoc]
        · exact ⟨t ++ [b], 0, by simpa using hb, by simp⟩
  obtain ⟨f, n, hf, rfl⟩ := hcolons
  refine ⟨f, n, ⟨?_, hf⟩, ?_, rfl⟩
  · intro hsep
    exact h (hsep.trans (List.prefix_append _ _).isInfix)
  · by_contra hn
    apply h
    have hsep : List.replicate n Text.colon = separator ++ List.replicate (n - 3) Text.colon := by
      rw [show separator = List.replicate 3 Text.colon from rfl, List.replicate_append_replicate]
      congr 1
      omega
    rw [hsep]
    exact ⟨f, _, by rw [List.append_assoc]⟩

/-- A few colons in front of a text without colons are part of the field. -/
theorem isField_colons {t : Text} (ht : Text.colon ∉ t) (hne : t ≠ []) {n : Nat} (hn : n < 3) :
    IsField (List.replicate n Text.colon ++ t) := by
  constructor
  · intro hsep
    have hcount := hsep.sublist.count_le Text.colon
    rw [List.count_append, List.count_replicate_self, List.count_eq_zero_of_not_mem ht] at hcount
    have hthree : separator.count Text.colon = 3 := by decide
    omega
  · rw [List.getLast?_append_of_ne_nil _ hne]
    intro hlast
    exact ht (List.mem_of_getLast? hlast)

/-- The line of a header is read as a header with this name, for the file or, if its name ends in
colons, for one whose name does not. -/
theorem parse_seen_header {file : Text} (h : ¬ separator <:+: file) (name : Text) :
    ∃ f, Record.parse (Record.header file name).seen = .ok (.header f (Text.dropReturn name)) := by
  obtain ⟨f, n, hf, hn, rfl⟩ := exists_field_of_separator_free h
  refine ⟨f, ?_⟩
  -- The colons move over the separator into the next field.
  have hcolons : ∀ rest : Text, f ++ List.replicate n Text.colon ++ separator ++ ("-1" ++ rest)
      = f ++ separator ++ (List.replicate n Text.colon ++ "-1" ++ rest) := by
    intro rest
    have hswap : List.replicate n Text.colon ++ separator
        = separator ++ List.replicate n Text.colon := by
      rw [show separator = List.replicate 3 Text.colon from rfl, List.replicate_append_replicate,
        List.replicate_append_replicate, Nat.add_comm]
    rw [List.append_assoc f, hswap]
    simp only [List.append_assoc]
  have hjoin : Text.join separator
        [headerTag, f ++ List.replicate n Text.colon, "-1", "-1", Text.dropReturn name]
      = Text.join separator
        [headerTag, f, List.replicate n Text.colon ++ "-1", "-1", Text.dropReturn name] := by
    rw [join_five, join_five, List.append_assoc ("-1" : Text), hcolons]
    simp only [List.append_assoc]
  have hfields := splitUpTo_join (isField_of_notMem (by decide)) hf
    (isField_colons (t := "-1") (by decide) (by decide) hn) (isField_of_notMem (by decide))
    (Text.dropReturn name) (a := headerTag) (d := "-1")
  have htag : headerTag ≠ replaceTag := by decide
  rw [seen_header, hjoin, Record.parse, hfields]
  simp only [htag, if_false, if_true]

/-- The line of a replacement is read as a replacement, if it can be read. -/
theorem parse_seen_replace {r : Replacement} {x : Record}
    (h : Record.parse (Record.replace r).seen = .ok x) : ∃ s, x = .replace s := by
  obtain ⟨rest, hseen⟩ := seen_replace r
  rw [hseen, Record.parse, (isField_of_notMem (by decide)).splitUpTo_succ] at h
  split at h
  · next tag file offset length text hfields =>
      obtain ⟨rfl, -⟩ := List.cons.inj hfields
      rw [if_pos rfl] at h
      split at h
      · exact ⟨_, (Except.ok.inj h).symm⟩
      · cases h
  · cases h

/-- If all headers that were written are the same, so are those that are read. -/
theorem eq_of_header_mem_readRecords {written rs : List Record} {heading : Text}
    (hfiles : ∀ y ∈ written, ¬ separator <:+: y.file)
    (hheading : ∀ file name, .header file name ∈ written → name = heading)
    (h : readRecords (written.map Record.seen) = .ok rs) {file name : Text}
    (hmem : .header file name ∈ rs) : name = Text.dropReturn heading := by
  obtain ⟨t, ht, hparse⟩ := exists_of_mem_readRecords h hmem
  obtain ⟨y, hy, rfl⟩ := List.mem_map.mp ht
  cases y with
  | replace r =>
      obtain ⟨s, hs⟩ := parse_seen_replace hparse
      cases hs
  | header file' name' =>
      have hfile : ¬ separator <:+: file' := hfiles _ hy
      obtain ⟨f, hf⟩ := parse_seen_header hfile name'
      rw [hf] at hparse
      cases hparse
      rw [hheading file' name' hy]

/-- The replacements that are read depend only on those that were written. -/
theorem filterMap_replacement?_readRecords {written rs : List Record}
    (hfiles : ∀ y ∈ written, ¬ separator <:+: y.file)
    (h : readRecords (written.map Record.seen) = .ok rs) :
    rs.filterMap Record.replacement?
      = ((written.filterMap Record.replacement?).map fun r =>
        (Record.replace r).seen).eraseDups.filterMap
          fun t => (Record.parse t).toOption.bind Record.replacement? := by
  -- The tag tells the lines of replacements from those of headers.
  have htag : ∀ y : Record, replaceTag.isPrefixOf y.seen = y.replacement?.isSome := by
    intro y
    cases y with
    | replace r =>
        obtain ⟨rest, hseen⟩ := seen_replace r
        rw [hseen]
        rfl
    | header file name =>
        rw [seen_header, join_five]
        rfl
  have hlines : (written.map Record.seen).filter (fun t => replaceTag.isPrefixOf t)
      = (written.filterMap Record.replacement?).map fun r => (Record.replace r).seen := by
    clear h hfiles
    induction written with
    | nil => rfl
    | cons y ys ih =>
        rw [List.map_cons, List.filter_cons, htag, ih]
        cases y with
        | replace r => rfl
        | header file name => rfl
  obtain ⟨-, rfl⟩ := readRecords_eq_ok_iff.mp h
  rw [List.filterMap_filterMap, ← hlines, ← filter_eraseDups, List.filterMap_filter]
  apply List.filterMap_congr
  intro t ht
  obtain ⟨y, hy, rfl⟩ := List.mem_map.mp (List.mem_eraseDups.mp ht)
  rw [htag]
  cases y with
  | replace r => rfl
  | header file name =>
      have hfile : ¬ separator <:+: file := hfiles _ hy
      obtain ⟨f, hf⟩ := parse_seen_header hfile name
      rw [hf]
      rfl

end EditStream

/-! ## Patch sets of the same records -/

namespace PatchSet

theorem filterMap_ownReplacement? (rs : List Record) (name : Text) :
    rs.filterMap (ownReplacement? name)
      = (rs.filterMap Record.replacement?).filter fun r => r.file = name := by
  rw [List.filter_filterMap]
  apply List.filterMap_congr
  intro x _
  cases x with
  | replace r =>
      by_cases hname : r.file = name
      · simp [ownReplacement?, Record.file, Record.replacement?, Option.filter, hname]
      · simp [ownReplacement?, Record.file, Record.replacement?, Option.filter, hname]
  | header file h => simp [ownReplacement?, Record.replacement?]

/-- The files come in the order of their names. -/
theorem names_ofRecords_of_perm {rs rs' : List Record} (h : rs.Perm rs') :
    (ofRecords rs).files.map FilePatch.name = (ofRecords rs').files.map FilePatch.name := by
  rw [names_ofRecords, names_ofRecords]
  apply Text.mergeSort_eq_of_perm
  exact eraseDups_perm fun name => (h.map Record.file).mem_iff

/-- The order of the records is only seen in the order of the replacements, if all
headers are the same. -/
theorem patchFor_of_perm {rs rs' : List Record} (h : rs.Perm rs') {heading : Text}
    (hheading : ∀ file name, .header file name ∈ rs → name = heading) (name : Text) :
    (patchFor rs name).replacements.Perm (patchFor rs' name).replacements ∧
      (patchFor rs name).headers = (patchFor rs' name).headers := by
  rw [patchFor_eq, patchFor_eq]
  refine ⟨h.filterMap _, ?_⟩
  -- Lists of one value only differ in their lengths.
  have hperm := h.filterMap (ownHeader? name)
  have hsame : ∀ t ∈ rs.filterMap (ownHeader? name), t = heading := by
    intro t ht
    obtain ⟨x, hx, hown⟩ := List.mem_filterMap.mp ht
    rw [ownHeader?_eq_some_iff.mp hown] at hx
    exact hheading name t hx
  have hleft := List.eq_replicate_iff.mpr ⟨rfl, hsame⟩
  have hright := List.eq_replicate_iff.mpr ⟨rfl, fun t ht => hsame t (hperm.mem_iff.mpr ht)⟩
  show rs.filterMap (ownHeader? name) = rs'.filterMap (ownHeader? name)
  rw [hleft, hright, hperm.length_eq]

/-- If the replacements come in the same order, nothing is seen of the order of the records. -/
theorem ofRecords_of_perm {rs rs' : List Record} (h : rs.Perm rs') {heading : Text}
    (hheading : ∀ file name, .header file name ∈ rs → name = heading)
    (hreplacements : rs.filterMap Record.replacement? = rs'.filterMap Record.replacement?) :
    ofRecords rs = ofRecords rs' := by
  have hpatch : ∀ name, patchFor rs name = patchFor rs' name := by
    intro name
    have hheaders := (patchFor_of_perm h hheading name).2
    rw [patchFor_eq, patchFor_eq] at hheaders ⊢
    rw [FilePatch.mk.injEq]
    refine ⟨rfl, ?_, hheaders⟩
    rw [filterMap_ownReplacement?, filterMap_ownReplacement?, hreplacements]
  have hnames := names_ofRecords_of_perm h
  rw [names_ofRecords, names_ofRecords] at hnames
  rw [ofRecords, ofRecords, hnames]
  exact congrArg PatchSet.mk (List.map_congr_left fun name _ => hpatch name)

end PatchSet

/-! ## Runs of shards -/

namespace Session

/-- A pass can be written in every session or in none. -/
theorem exists_flush_iff (s : Session) (p : Pass) :
    (∃ t s', s.flush p = .ok (t, s')) ↔
      (p.language.hasClasses = true → FileEdits.overlap? p.edits = none) := by
  unfold flush
  cases hclasses : p.language.hasClasses with
  | false => simp
  | true =>
      cases hoverlap : FileEdits.overlap? p.edits with
      | none => simp
      | some pair => simp

/-- A run fails if one of its passes cannot be written. -/
theorem flushAll_eq_none_iff (s : Session) (passes : List Pass) :
    (Command.flushAll s passes).2.2 = none ↔
      ∀ p ∈ passes, p.language.hasClasses = true → FileEdits.overlap? p.edits = none := by
  induction passes generalizing s with
  | nil => simp [Command.flushAll]
  | cons p rest ih =>
      rw [Command.flushAll, List.forall_mem_cons, ← exists_flush_iff s p]
      cases hflush : s.flush p with
      | error b => simp
      | ok result =>
          obtain ⟨t, s'⟩ := result
          simp [ih]

theorem output_of_eq_none {s : Session} {passes : List Pass}
    (h : (Command.flushAll s passes).2.2 = none) :
    (Command.flushAll s passes).2.1 = (written s.header s.included passes).flatMap block :=
  output_flushAll (Prod.ext rfl (Prod.ext rfl h))

/-- The records of a run that starts without any header: its replacements, and the
headers they ask for. -/
theorem mem_written_iff {heading : Text} {passes : List Pass} {x : Record} :
    x ∈ (written heading [] passes).flatten ↔
      ∃ r ∈ (writing passes).flatMap Pass.replacements,
        x = .replace r ∨ (Asks heading r r.file ∧ x = .header r.file heading) := by
  cases x with
  | replace s =>
      have hmem : .replace s ∈ (written heading [] passes).flatten ↔
          s ∈ (written heading [] passes).flatten.filterMap Record.replacement? := by
        rw [List.mem_filterMap]
        constructor
        · intro hs
          exact ⟨_, hs, rfl⟩
        · rintro ⟨y, hy, hys⟩
          cases y with
          | replace r => exact Option.some.inj hys ▸ hy
          | header file name => cases hys
      rw [hmem, filterMap_replacement?_written]
      simp
  | header file name =>
      rw [header_mem_written]
      constructor
      · rintro ⟨rfl, -, r, hr, hheading, hneeds, rfl⟩
        exact ⟨r, hr, Or.inr ⟨⟨hheading, hneeds, rfl⟩, rfl⟩⟩
      · rintro ⟨r, hr, hx | ⟨hasks, hx⟩⟩
        · cases hx
        · cases hx
          exact ⟨rfl, List.not_mem_nil, r, hr, hasks⟩

/-- The records of the blocks that shards write, one after another. -/
def writtenShards (heading : Text) (shards : List (List Pass)) : List (List Record) :=
  shards.flatMap (written heading [])

theorem writing_flatten (shards : List (List Pass)) :
    writing shards.flatten = shards.flatMap writing := by
  rw [writing, List.filter_flatten, List.flatMap_def]
  rfl

/-- Shards have the records of one run, some of them more than once. -/
theorem mem_writtenShards_iff (heading : Text) {shards : List (List Pass)} {passes : List Pass}
    (h : shards.flatten.Perm passes) (x : Record) :
    x ∈ (writtenShards heading shards).flatten ↔ x ∈ (written heading [] passes).flatten := by
  have hperm : (writing shards.flatten).Perm (writing passes) := h.filter _
  have hshards : x ∈ (writtenShards heading shards).flatten ↔
      ∃ shard ∈ shards, x ∈ (written heading [] shard).flatten := by
    simp only [writtenShards, List.mem_flatten, List.mem_flatMap]
    constructor
    · rintro ⟨rs, ⟨shard, hshard, hrs⟩, hx⟩
      exact ⟨shard, hshard, rs, hrs, hx⟩
    · rintro ⟨shard, hshard, rs, hrs, hx⟩
      exact ⟨rs, ⟨shard, hshard, hrs⟩, hx⟩
  -- Whether a record is written depends on the replacements and not on the run they are in.
  rw [hshards, mem_written_iff]
  simp only [← (hperm.flatMap_right Pass.replacements).mem_iff, mem_written_iff, writing_flatten,
    List.mem_flatMap]
  constructor
  · rintro ⟨shard, hshard, r, ⟨p, hp, hr⟩, hx⟩
    exact ⟨r, ⟨p, ⟨shard, hshard, hp⟩, hr⟩, hx⟩
  · rintro ⟨r, ⟨p, ⟨shard, hshard, hp⟩, hr⟩, hx⟩
    exact ⟨shard, hshard, r, ⟨p, hp, hr⟩, hx⟩

/-- The replacements of shards are those of a run over all of their passes. -/
theorem filterMap_replacement?_writtenShards (heading : Text) (shards : List (List Pass)) :
    (writtenShards heading shards).flatten.filterMap Record.replacement?
      = (written heading [] shards.flatten).flatten.filterMap Record.replacement? := by
  rw [filterMap_replacement?_written, writing_flatten]
  induction shards with
  | nil => rfl
  | cons shard shards ih =>
      rw [writtenShards, List.flatMap_cons, List.flatten_append, List.filterMap_append,
        filterMap_replacement?_written, List.flatMap_cons, List.flatMap_append, ← ih]
      rfl

/-- What runs of shards write, joined. -/
def shardOutput (header : Text) (shards : List (List Pass)) : Text :=
  shards.flatMap fun shard => (Command.flushAll { header } shard).2.1

theorem shardOutput_eq {header : Text} {shards : List (List Pass)}
    (h : ∀ shard ∈ shards, (Command.flushAll { header } shard).2.2 = none) :
    shardOutput header shards = (writtenShards header shards).flatMap block := by
  rw [writtenShards, List.flatMap_assoc]
  apply List.flatMap_congr
  intro shard hshard
  exact output_of_eq_none (h shard hshard)

end Session

/-- **Sharing out passes.** The passes of a run that does not fail are shared out among runs
that start without any header, in any order. These do not fail either, and what they write,
joined, can be read exactly if the stream of the one run can. Then both patch sets have the
same files, each with the same replacements and headers, and they are equal if the shards have
the passes in order. -/
theorem parse_shards {header : Text} {passes : List Pass} {shards : List (List Pass)}
    (hflush : (Command.flushAll { header } passes).2.2 = none)
    (hshards : shards.flatten.Perm passes) (hheader : Text.newline ∉ header)
    (hnames : ∀ p ∈ passes, ∀ r ∈ p.replacements,
      Text.newline ∉ r.file ∧ ¬ separator <:+: r.file) :
    (∀ shard ∈ shards, (Command.flushAll { header } shard).2.2 = none) ∧
    ((∃ set, PatchSet.parse (Session.shardOutput header shards) = .ok set) ↔
      ∃ set, PatchSet.parse (Command.flushAll { header } passes).2.1 = .ok set) ∧
    ∀ sharded single, PatchSet.parse (Session.shardOutput header shards) = .ok sharded →
      PatchSet.parse (Command.flushAll { header } passes).2.1 = .ok single →
      sharded.files.map FilePatch.name = single.files.map FilePatch.name ∧
      (∀ f ∈ sharded.files, ∀ g ∈ single.files, f.name = g.name →
        f.replacements.Perm g.replacements ∧ f.headers = g.headers) ∧
      (shards.flatten = passes → sharded = single) := by
  have hfine : ∀ shard ∈ shards, (Command.flushAll { header } shard).2.2 = none := by
    intro shard hshard
    rw [Session.flushAll_eq_none_iff] at hflush ⊢
    intro p hp
    exact hflush p (hshards.mem_iff.mp (List.mem_flatten.mpr ⟨shard, hshard, hp⟩))
  have hsame := Session.mem_writtenShards_iff header hshards
  have hrecords : ∀ x ∈ (Session.written header [] passes).flatten,
      x.IsLine ∧ ¬ separator <:+: x.file := by
    intro x hx
    obtain ⟨p, hp, r, hr, rfl | ⟨-, rfl⟩⟩ := Session.mem_written hx
    · exact hnames p hp r hr
    · exact ⟨⟨(hnames p hp r hr).1, hheader⟩, (hnames p hp r hr).2⟩
  have hheading : ∀ file name, .header file name ∈ (Session.written header [] passes).flatten →
      name = header :=
    fun file name h => ((Session.header_mem_written _ _ _ _ _).mp h).1
  have hlines := fun x hx => (hrecords x hx).1
  have hlines' : ∀ x ∈ (Session.writtenShards header shards).flatten, x.IsLine :=
    fun x hx => hlines x ((hsame x).mp hx)
  rw [Session.shardOutput_eq hfine, Session.output_of_eq_none hflush]
  simp only [PatchSet.parse_eq_ok_iff]
  refine ⟨hfine, ⟨?_, ?_⟩, ?_⟩
  · rintro ⟨set, rs, hrs, -⟩
    obtain ⟨rs', hrs', -⟩ := parse_blocks_perm hlines' hsame hrs
    exact ⟨_, rs', hrs', rfl⟩
  · rintro ⟨set, rs, hrs, -⟩
    obtain ⟨rs', hrs', -⟩ := parse_blocks_perm hlines (fun x => (hsame x).symm) hrs
    exact ⟨_, rs', hrs', rfl⟩
  · rintro sharded single ⟨rs, hrs, rfl⟩ ⟨rs', hrs', rfl⟩
    have hperm : rs.Perm rs' := by
      obtain ⟨rs'', hrs'', hperm⟩ := parse_blocks_perm hlines' hsame hrs
      have heq := Except.ok.inj (hrs''.symm.trans hrs')
      exact heq ▸ hperm.symm
    -- The headers that are read may have lost a carriage return, but all of them alike.
    have hread := ((parse_blocks_eq_ok_iff hlines').mp hrs).2
    have hread' := ((parse_blocks_eq_ok_iff hlines).mp hrs').2
    have hheaders : ∀ file name, .header file name ∈ rs → name = Text.dropReturn header := by
      intro file name hmem
      exact eq_of_header_mem_readRecords (fun x hx => (hrecords x hx).2) hheading hread'
        (hperm.mem_iff.mp hmem)
    refine ⟨PatchSet.names_ofRecords_of_perm hperm, ?_, ?_⟩
    · intro f hf g hg hname
      rw [PatchSet.eq_patchFor_of_mem hf, PatchSet.eq_patchFor_of_mem hg, hname]
      exact PatchSet.patchFor_of_perm hperm hheaders g.name
    · intro horder
      refine PatchSet.ofRecords_of_perm hperm hheaders ?_
      rw [filterMap_replacement?_readRecords (fun x hx => (hrecords x ((hsame x).mp hx)).2) hread,
        filterMap_replacement?_readRecords (fun x hx => (hrecords x hx).2) hread',
        Session.filterMap_replacement?_writtenShards, horder]

/-- Two passes that need the header for one file, in two shards that are joined the other way round.
Both shards write the header, and it is read once. -/
theorem parse_shards_swapped :
    ∃ set, PatchSet.parse (Session.shardOutput "c.h"
        [[{ unit := [], language := .cxx, verdicts := [],
            edits := [⟨"a.h", [⟨"a.h", 20, 0, "x", true⟩]⟩] }],
         [{ unit := [], language := .cxx, verdicts := [],
            edits := [⟨"a.h", [⟨"a.h", 4, 5, "P<int> ", true⟩]⟩] }]]) = .ok set ∧
      ∀ f ∈ set.files, f.name = "a.h" ∧ f.headers = ["c.h"] ∧
        f.replacements.Perm [⟨"a.h", 4, 5, "P<int> ", false⟩, ⟨"a.h", 20, 0, "x", false⟩] := by
  have hsingle : PatchSet.parse (Command.flushAll { header := "c.h" }
      [{ unit := [], language := .cxx, verdicts := [],
         edits := [⟨"a.h", [⟨"a.h", 4, 5, "P<int> ", true⟩]⟩] },
       { unit := [], language := .cxx, verdicts := [],
         edits := [⟨"a.h", [⟨"a.h", 20, 0, "x", true⟩]⟩] }]).2.1
      = .ok _ :=
    PatchSet.parse_of_pairwise [.replace ⟨"a.h", 4, 5, "P<int> ", false⟩, .header "a.h" "c.h",
      .replace ⟨"a.h", 20, 0, "x", false⟩] rfl (by decide)
  obtain ⟨-, hparse, hsets⟩ := @parse_shards "c.h" _
    [[{ unit := [], language := .cxx, verdicts := [],
        edits := [⟨"a.h", [⟨"a.h", 20, 0, "x", true⟩]⟩] }],
     [{ unit := [], language := .cxx, verdicts := [],
        edits := [⟨"a.h", [⟨"a.h", 4, 5, "P<int> ", true⟩]⟩] }]]
    rfl (List.Perm.swap _ _ []) (by decide) (by decide)
  obtain ⟨set, hset⟩ := hparse.mpr ⟨_, hsingle⟩
  obtain ⟨hnames, hfiles, -⟩ := hsets set _ hset hsingle
  refine ⟨set, hset, fun f hf => ?_⟩
  have hname : f.name = "a.h" := by
    have hmem : f.name ∈ set.files.map FilePatch.name := List.mem_map_of_mem hf
    rw [hnames] at hmem
    exact List.mem_singleton.mp hmem
  obtain ⟨hreplacements, hheaders⟩ := hfiles f hf _ (List.mem_singleton.mpr rfl) hname
  exact ⟨hname, hheaders, hreplacements⟩

end PointerMigration
