/-
# Records merged by file

A patch set keeps each record once, where it came first, and sorts the records by file. Both are
filters that leave the order alone, so they can be exchanged. No record is lost and none is made up.
-/
import PointerMigration.Edit.PatchSet
import PointerMigration.Proofs.Block
import Mathlib.Algebra.BigOperators.Group.List.Lemmas

namespace PointerMigration

/-! ## First occurrences -/

section

variable {α β : Type} [BEq α] [LawfulBEq α] [BEq β] [LawfulBEq β]

/-- Values can be kept once before or after a function is applied that tells them apart. -/
theorem filterMap_eraseDups {f : α → Option β} {l : List α}
    (hinj : ∀ a ∈ l, ∀ a' ∈ l, ∀ b, f a = some b → f a' = some b → a = a') :
    l.eraseDups.filterMap f = (l.filterMap f).eraseDups := by
  -- The induction is on the length: the first value is dropped from all of the rest.
  induction hlength : l.length using Nat.strongRecOn generalizing l with
  | ind n ih =>
    cases l with
    | nil => rfl
    | cons a as =>
        have hshort : (as.filter fun x => !x == a).length < n := by
          have := List.length_filter_le (fun x => !x == a) as
          simp only [List.length_cons] at hlength
          omega
        have hrest := ih _ hshort (l := as.filter fun x => !x == a)
          (fun x hx y hy => hinj x (List.mem_cons_of_mem a (List.mem_filter.mp hx).1) y
            (List.mem_cons_of_mem a (List.mem_filter.mp hy).1)) rfl
        rw [List.eraseDups_cons]
        cases hfa : f a with
        | none =>
            rw [List.filterMap_cons_none hfa, List.filterMap_cons_none hfa, hrest]
            congr 1
            rw [List.filterMap_filter]
            apply List.filterMap_congr
            intro x _
            by_cases hxa : x = a
            · simp [hxa, hfa]
            · simp [hxa]
        | some b =>
            rw [List.filterMap_cons_some hfa, List.filterMap_cons_some hfa, hrest,
              List.eraseDups_cons]
            congr 2
            rw [List.filterMap_filter, List.filter_filterMap]
            apply List.filterMap_congr
            intro x hx
            by_cases hxa : x = a
            · simp [hxa, hfa, Option.filter]
            · cases hfx : f x with
              | none => simp [hxa]
              | some y =>
                  have hyb : y ≠ b := by
                    rintro rfl
                    exact hxa (hinj x (List.mem_cons_of_mem a hx) a (by simp) y hfx hfa)
                  simp [hxa, hyb, Option.filter]

/-- Adding values that are there already changes nothing. -/
theorem eraseDups_append_of_subset {l m : List α} (h : m ⊆ l) (k : List α) :
    (l ++ (m ++ k)).eraseDups = (l ++ k).eraseDups := by
  have hgone : m.removeAll l = [] := by
    rw [List.removeAll, List.filter_eq_nil_iff]
    intro a ha
    simp [h ha]
  rw [List.eraseDups_append, List.eraseDups_append]
  congr 2
  rw [List.removeAll, List.filter_append, ← List.removeAll, hgone]
  rfl

/-- A value that is not there yet makes the list longer. -/
theorem subset_of_length_eraseDups {l m : List α}
    (h : (l ++ m).eraseDups.length = l.eraseDups.length) : m ⊆ l := by
  intro a ha
  rw [List.eraseDups_append, List.length_append] at h
  have hnil : (m.removeAll l).eraseDups = [] := List.eq_nil_of_length_eq_zero (by omega)
  by_contra hnot
  have hmem : a ∈ (m.removeAll l).eraseDups := by
    rw [List.mem_eraseDups, List.removeAll, List.mem_filter]
    exact ⟨ha, by simpa using hnot⟩
  rw [hnil] at hmem
  exact List.not_mem_nil hmem

theorem nodup_eraseDups (l : List α) : l.eraseDups.Nodup := by
  induction hlength : l.length using Nat.strongRecOn generalizing l with
  | ind n ih =>
    cases l with
    | nil => exact List.nodup_nil
    | cons a as =>
        rw [List.eraseDups_cons, List.nodup_cons]
        refine ⟨by simp, ih _ ?_ _ rfl⟩
        have := List.length_filter_le (fun x => !x == a) as
        simp only [List.length_cons] at hlength
        omega

theorem eraseDups_perm {l l' : List α} (h : ∀ a, a ∈ l ↔ a ∈ l') :
    l.eraseDups.Perm l'.eraseDups := by
  rw [List.perm_ext_iff_of_nodup (nodup_eraseDups l) (nodup_eraseDups l')]
  intro a
  rw [List.mem_eraseDups, List.mem_eraseDups]
  exact h a

theorem filter_eraseDups (p : α → Bool) (l : List α) :
    l.eraseDups.filter p = (l.filter p).eraseDups := by
  rw [← List.filterMap_eq_filter, filterMap_eraseDups]
  intro a _ a' _ b hab hab'
  rw [Option.guard_eq_some_iff] at hab hab'
  rw [hab.1, hab'.1]

end

/-! ## Reading records -/

namespace EditStream

/-- Texts that are read back one by one are read back together. -/
theorem mapM_parse_map {g : Record → Text} {rs : List Record}
    (h : ∀ r ∈ rs, Record.parse (g r) = .ok r) : (rs.map g).mapM Record.parse = .ok rs := by
  induction rs with
  | nil => rfl
  | cons r rs ih =>
      rw [List.map_cons, List.mapM_cons, h r (by simp),
        ih fun s hs => h s (List.mem_cons_of_mem r hs)]
      rfl

/-- Texts are read together exactly if each can be read, and then one by one. -/
theorem mapM_parse_eq_ok_iff {ts : List Text} {rs : List Record} :
    ts.mapM Record.parse = .ok rs ↔
      (∀ t ∈ ts, ∃ r, Record.parse t = .ok r) ∧
        rs = ts.filterMap fun t => (Record.parse t).toOption := by
  induction ts generalizing rs with
  | nil => simp [pure, Except.pure, eq_comm]
  | cons t ts ih =>
      rw [List.mapM_cons]
      cases hfirst : Record.parse t with
      | error e =>
          constructor
          · intro h
            cases h
          · rintro ⟨h, -⟩
            obtain ⟨r, hr⟩ := h t (by simp)
            rw [hfirst] at hr
            cases hr
      | ok r =>
          have hcons : (t :: ts).filterMap (fun t => (Record.parse t).toOption)
              = r :: ts.filterMap fun t => (Record.parse t).toOption :=
            List.filterMap_cons_some (by rw [hfirst]; rfl)
          rw [hcons]
          constructor
          · intro h
            cases hrest : ts.mapM Record.parse with
            | error e =>
                rw [hrest] at h
                cases h
            | ok rs' =>
                rw [hrest] at h
                cases h
                obtain ⟨hall, hrs⟩ := ih.mp hrest
                refine ⟨?_, by rw [← hrs]⟩
                intro t' ht'
                rcases List.mem_cons.mp ht' with rfl | ht'
                · exact ⟨r, hfirst⟩
                · exact hall t' ht'
          · rintro ⟨hall, rfl⟩
            rw [ih.mpr ⟨fun t' ht' => hall t' (List.mem_cons_of_mem t ht'), rfl⟩]
            rfl

/-- Records are read exactly if each of the texts can be read. -/
theorem readRecords_eq_ok_iff {ts : List Text} {rs : List Record} :
    readRecords ts = .ok rs ↔
      (∀ t ∈ ts, ∃ r, Record.parse t = .ok r) ∧
        rs = ts.eraseDups.filterMap fun t => (Record.parse t).toOption := by
  rw [readRecords, mapM_parse_eq_ok_iff]
  simp only [List.mem_eraseDups]

/-- A record that was read was read from one of the texts. -/
theorem exists_of_mem_readRecords {ts : List Text} {rs : List Record} (h : readRecords ts = .ok rs)
    {r : Record} (hr : r ∈ rs) : ∃ t ∈ ts, Record.parse t = .ok r := by
  obtain ⟨-, rfl⟩ := readRecords_eq_ok_iff.mp h
  obtain ⟨t, ht, hparse⟩ := List.mem_filterMap.mp hr
  refine ⟨t, List.mem_eraseDups.mp ht, ?_⟩
  cases hresult : Record.parse t with
  | error e =>
      rw [hresult] at hparse
      cases hparse
  | ok s =>
      rw [hresult] at hparse
      rw [Option.some.inj hparse]

/-- Lines that are read as their records are read as these records, each of them once. -/
theorem readRecords_of_parse_line {rs : List Record}
    (h : ∀ r ∈ rs, Record.parse r.line = .ok r.plain) :
    readRecords (rs.map Record.line) = .ok (rs.map Record.plain).eraseDups := by
  have hlines : rs.map Record.line = (rs.map Record.plain).filterMap fun r => some r.line := by
    rw [List.filterMap_map, ← List.filterMap_eq_map]
    apply List.filterMap_congr
    intro r _
    simp
  have hinj : ∀ r ∈ rs.map Record.plain, ∀ s ∈ rs.map Record.plain, ∀ line : Text,
      some r.line = some line → some s.line = some line → r = s := by
    intro r hr s hs line hrl hsl
    obtain ⟨r, hr', rfl⟩ := List.mem_map.mp hr
    obtain ⟨s, hs', rfl⟩ := List.mem_map.mp hs
    rw [Record.line_plain, Option.some_inj] at hrl hsl
    have hparse := h r hr'
    rw [hrl.trans hsl.symm, h s hs'] at hparse
    exact (Except.ok.inj hparse).symm
  rw [readRecords, hlines, ← filterMap_eraseDups hinj]
  show List.mapM Record.parse (List.filterMap (some ∘ Record.line) _) = _
  rw [List.filterMap_eq_map]
  apply mapM_parse_map
  intro r hr
  obtain ⟨r, hr', rfl⟩ := List.mem_map.mp (List.mem_eraseDups.mp hr)
  rw [Record.line_plain]
  exact h r hr'

/-- Lines of records that can be read back are read as these records, each of them once. -/
theorem readRecords_lines {rs : List Record} (h : ∀ r ∈ rs, r.Writable) :
    readRecords (rs.map Record.line) = .ok (rs.map Record.plain).eraseDups :=
  readRecords_of_parse_line fun r hr => (h r hr).parse_line

/-- Each text that is kept is read as one record. -/
theorem length_mapM_parse {ts : List Text} {rs : List Record}
    (h : ts.mapM Record.parse = .ok rs) : rs.length = ts.length := by
  induction ts generalizing rs with
  | nil =>
      cases h
      rfl
  | cons t ts ih =>
      rw [List.mapM_cons] at h
      cases hfirst : Record.parse t with
      | error e =>
          rw [hfirst] at h
          cases h
      | ok r =>
          cases hrest : ts.mapM Record.parse with
          | error e =>
              rw [hfirst, hrest] at h
              cases h
          | ok rs' =>
              rw [hfirst, hrest] at h
              cases h
              simp [ih hrest]

theorem length_readRecords {ts : List Text} {rs : List Record} (h : readRecords ts = .ok rs) :
    rs.length = ts.eraseDups.length :=
  length_mapM_parse h

/-- What can be read together with more can be read on its own. -/
theorem exists_readRecords_of_append {l m : List Text} {rs : List Record}
    (h : readRecords (l ++ m) = .ok rs) : ∃ rs', readRecords l = .ok rs' := by
  unfold readRecords at h ⊢
  rw [List.eraseDups_append, List.mapM_append] at h
  cases hl : l.eraseDups.mapM Record.parse with
  | error e =>
      rw [hl] at h
      cases h
  | ok rs' => exact ⟨rs', rfl⟩

end EditStream

/-! ## Files of a patch set -/

namespace PatchSet

open EditStream

/-- The replacement of a record, if it is one for the file. -/
def ownReplacement? (name : Text) (r : Record) : Option Replacement :=
  if r.file = name then r.replacement? else none

/-- The header of a record, if it is one for the file. -/
def ownHeader? (name : Text) (r : Record) : Option Text :=
  match r with
  | .replace _ => none
  | .header file h => if file = name then some h else none

theorem ownReplacement?_eq_some_iff {name : Text} {x : Record} {r : Replacement} :
    ownReplacement? name x = some r ↔ x = .replace r ∧ r.file = name := by
  unfold ownReplacement?
  cases x with
  | replace s =>
      constructor
      · intro h
        split at h
        · next hname =>
            cases h
            exact ⟨rfl, hname⟩
        · cases h
      · rintro ⟨h, hname⟩
        cases h
        exact if_pos hname
  | header file h => simp [Record.replacement?]

theorem ownHeader?_eq_some_iff {name h : Text} {x : Record} :
    ownHeader? name x = some h ↔ x = .header name h := by
  cases x with
  | replace r => simp [ownHeader?]
  | header file h' => simp [ownHeader?]

theorem patchFor_eq (rs : List Record) (name : Text) :
    patchFor rs name =
      { name, replacements := rs.filterMap (ownReplacement? name),
        headers := rs.filterMap (ownHeader? name) } := by
  unfold patchFor
  simp only [List.filterMap_filter]
  congr 1
  · apply List.filterMap_congr
    intro r _
    cases r with
    | replace r =>
        by_cases hname : r.file = name <;>
          simp [ownReplacement?, Record.replacement?, Record.file, hname]
    | header file h =>
        by_cases hname : file = name <;>
          simp [ownReplacement?, Record.replacement?, Record.file, hname]
  · apply List.filterMap_congr
    intro r _
    cases r with
    | replace r =>
        by_cases hname : r.file = name <;> simp [ownHeader?, Record.file, hname]
    | header file h =>
        by_cases hname : file = name <;> simp [ownHeader?, Record.file, hname]

theorem names_ofRecords (rs : List Record) :
    (ofRecords rs).files.map FilePatch.name
      = (rs.map Record.file).eraseDups.mergeSort Text.le := by
  unfold ofRecords
  rw [List.map_map]
  exact (List.map_congr_left fun _ _ => rfl).trans (List.map_id _)

/-- Files whose names come in order stay where they are. -/
theorem ofRecords_of_pairwise {rs : List Record}
    (h : (rs.map Record.file).eraseDups.Pairwise fun a b => Text.le a b = true) :
    ofRecords rs = ⟨(rs.map Record.file).eraseDups.map (patchFor rs)⟩ := by
  rw [ofRecords, List.mergeSort_of_pairwise h]

/-- A stream is read as a patch set if it is read as records. -/
theorem parse_eq_ok_iff {stream : Text} {set : PatchSet} :
    parse stream = .ok set ↔ ∃ rs, EditStream.parse stream = .ok rs ∧ ofRecords rs = set := by
  rw [parse]
  cases EditStream.parse stream with
  | error e => simp [Except.map]
  | ok rs => simp [Except.map]

theorem parse_of_pairwise {stream : Text} (rs : List Record) (h : EditStream.parse stream = .ok rs)
    (hnames : (rs.map Record.file).eraseDups.Pairwise fun a b => Text.le a b = true) :
    parse stream = .ok ⟨(rs.map Record.file).eraseDups.map (patchFor rs)⟩ :=
  parse_eq_ok_iff.mpr ⟨rs, h, ofRecords_of_pairwise hnames⟩

/-- A patch set has the files of its records. -/
theorem mem_names_ofRecords (rs : List Record) (name : Text) :
    name ∈ (ofRecords rs).files.map FilePatch.name ↔ ∃ r ∈ rs, r.file = name := by
  rw [names_ofRecords, List.mem_mergeSort, List.mem_eraseDups, List.mem_map]

/-- A patch set has each of its files once. -/
theorem nodup_names_ofRecords (rs : List Record) :
    ((ofRecords rs).files.map FilePatch.name).Nodup := by
  rw [names_ofRecords, (List.mergeSort_perm _ _).nodup_iff]
  exact nodup_eraseDups _

theorem eq_patchFor_of_mem {rs : List Record} {f : FilePatch} (h : f ∈ (ofRecords rs).files) :
    f = patchFor rs f.name := by
  obtain ⟨name, -, rfl⟩ := List.mem_map.mp h
  rfl

/-! ## The number of records -/

/-- The number of edits of a patch set. -/
def size (s : PatchSet) : Nat :=
  (s.files.map fun f => f.replacements.length + f.headers.length).sum

/-- A record is one edit of its file. -/
theorem length_patchFor (rs : List Record) (name : Text) :
    (patchFor rs name).replacements.length + (patchFor rs name).headers.length
      = rs.countP fun r => r.file = name := by
  rw [patchFor_eq]
  induction rs with
  | nil => rfl
  | cons r rs ih =>
      cases r with
      | replace r =>
          by_cases hname : r.file = name
          · simp_all [List.filterMap_cons, ownReplacement?, ownHeader?, Record.replacement?,
              Record.file]
            omega
          · simp_all [List.filterMap_cons, ownReplacement?, ownHeader?, Record.replacement?,
              Record.file]
      | header file h =>
          by_cases hname : file = name
          · simp_all [ownReplacement?, ownHeader?, Record.replacement?, Record.file]
            omega
          · simp_all [ownReplacement?, ownHeader?, Record.replacement?, Record.file]

/-- A patch set has as many edits as there are records. -/
theorem size_ofRecords (rs : List Record) : (ofRecords rs).size = rs.length := by
  have hperm : ((rs.map Record.file).eraseDups.mergeSort Text.le).Perm
      (rs.map Record.file).dedup := by
    rw [List.perm_ext_iff_of_nodup]
    · intro name
      rw [List.mem_mergeSort, List.mem_eraseDups, List.mem_dedup]
    · rw [(List.mergeSort_perm _ _).nodup_iff]
      exact nodup_eraseDups _
    · exact List.nodup_dedup _
  have hlength := List.sum_map_count_dedup_eq_length (rs.map Record.file)
  rw [List.length_map] at hlength
  unfold size ofRecords
  rw [← hlength, List.map_map, (hperm.map _).sum_eq]
  congr 1
  apply List.map_congr_left
  intro name _
  show _ = List.countP (fun file => decide (file = name)) (rs.map Record.file)
  rw [List.countP_map]
  exact length_patchFor rs name

end PatchSet

end PointerMigration
