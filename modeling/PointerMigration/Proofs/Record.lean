/-
# Records that were written

A record is written as one line, and reading the line gives the record back. Nothing marks where a
field ends but the separator, so a field that is not the last must neither hold the separator nor
end in a colon, which would be taken for the start of one.
-/
import PointerMigration.Edit.PatchSet
import PointerMigration.Proofs.Decimal
import PointerMigration.Proofs.Lines

namespace PointerMigration

namespace Text

/-! ## Bytes -/

/-- Replacing a byte by one that does not occur can be undone. -/
theorem replaceByte_replaceByte {a b : UInt8} {t : Text} (h : b ∉ t) :
    replaceByte b a (replaceByte a b t) = t := by
  unfold replaceByte
  rw [List.map_map]
  refine (List.map_congr_left ?_).trans (List.map_id t)
  intro c hc
  by_cases hca : c = a
  · simp [hca]
  · have hcb : c ≠ b := fun hcb => h (hcb ▸ hc)
    simp [hca, hcb]

/-- A byte that is replaced by another one is gone. -/
theorem notMem_replaceByte {a b : UInt8} (hab : a ≠ b) (t : Text) : a ∉ replaceByte a b t := by
  intro h
  obtain ⟨c, -, hc⟩ := List.mem_map.mp h
  split at hc
  · exact hab hc.symm
  · next hca => exact hca hc

end Text

namespace EditStream

/-! ## Fields -/

/-- A text that ends where the separator behind it starts. -/
structure IsField (t : Text) : Prop where
  separator_free : ¬ separator <:+: t
  last_ne_colon : t.getLast? ≠ some Text.colon

/-- The rest of a field is a field. -/
theorem IsField.tail {b : UInt8} {t : Text} (h : IsField (b :: t)) : IsField t := by
  refine ⟨fun hsep => h.separator_free (hsep.trans (List.suffix_cons b t).isInfix), ?_⟩
  cases t with
  | nil => simp
  | cons c t =>
      have hlast := h.last_ne_colon
      rwa [List.getLast?_cons_cons] at hlast

/-- A text without colons is a field. -/
theorem isField_of_notMem {t : Text} (h : Text.colon ∉ t) : IsField t := by
  constructor
  · intro hsep
    exact h (hsep.subset (by decide))
  · intro hlast
    exact h (List.mem_of_getLast? hlast)

/-- The separator does not start inside a field. -/
theorem IsField.not_isPrefixOf {b : UInt8} {t : Text} (h : IsField (b :: t)) (rest : Text) :
    separator.isPrefixOf (b :: t ++ separator ++ rest) = false := by
  rw [Bool.eq_false_iff]
  intro hp
  rw [List.isPrefixOf_iff_prefix] at hp
  have hsep : separator = [Text.colon, Text.colon, Text.colon] := rfl
  -- A colon at the end would be the last of the field, three in a row would be the separator.
  match t with
  | [] =>
      rw [hsep] at hp
      have hb := (List.cons_prefix_cons.mp hp).1
      exact h.last_ne_colon (by simp [hb])
  | [c] =>
      rw [hsep] at hp
      have hc := (List.cons_prefix_cons.mp (List.cons_prefix_cons.mp hp).2).1
      exact h.last_ne_colon (by simp [hc])
  | c :: d :: t =>
      apply h.separator_free
      rw [hsep] at hp ⊢
      obtain ⟨hb, hp⟩ := List.cons_prefix_cons.mp hp
      obtain ⟨hc, hp⟩ := List.cons_prefix_cons.mp hp
      obtain ⟨hd, -⟩ := List.cons_prefix_cons.mp hp
      rw [← hb, ← hc, ← hd]
      exact List.IsPrefix.isInfix ⟨t, rfl⟩

/-- A field is cut off at the separator behind it. -/
theorem IsField.cutFrom_eq {t : Text} (h : IsField t) (before rest : Text) :
    Text.cutFrom separator before (t ++ separator ++ rest) = some (before.reverse ++ t, rest) := by
  induction t generalizing before with
  | nil =>
      have hsep : separator.isPrefixOf (separator ++ rest) = true := by
        rw [List.isPrefixOf_iff_prefix]
        exact List.prefix_append _ _
      show Text.cutFrom separator before (separator ++ rest) = _
      have hcons : separator ++ rest = Text.colon :: ([Text.colon, Text.colon] ++ rest) := rfl
      rw [hcons] at hsep ⊢
      rw [Text.cutFrom, if_pos hsep, List.append_nil]
      rfl
  | cons b t ih =>
      have hnot := h.not_isPrefixOf rest
      rw [List.cons_append, List.cons_append] at hnot ⊢
      rw [Text.cutFrom, if_neg (ne_true_of_eq_false hnot), ih h.tail]
      simp

/-- The first field is split off. -/
theorem IsField.splitUpTo_succ {t : Text} (h : IsField t) (n : Nat) (rest : Text) :
    Text.splitUpTo separator (n + 1) (t ++ separator ++ rest)
      = t :: Text.splitUpTo separator n rest := by
  rw [Text.splitUpTo, Text.cut?, h.cutFrom_eq [] rest]
  rfl

theorem join_five (a b c d e : Text) : Text.join separator [a, b, c, d, e]
    = a ++ separator ++ (b ++ separator ++ (c ++ separator ++ (d ++ separator ++ e))) := by
  simp [Text.join, List.intercalate]

/-- Five fields are read back; the last one may be any text. -/
theorem splitUpTo_join {a b c d : Text} (ha : IsField a) (hb : IsField b) (hc : IsField c)
    (hd : IsField d) (e : Text) :
    Text.splitUpTo separator 4 (Text.join separator [a, b, c, d, e]) = [a, b, c, d, e] := by
  rw [join_five, ha.splitUpTo_succ, hb.splitUpTo_succ, hc.splitUpTo_succ, hd.splitUpTo_succ]
  rfl

theorem isField_ofWord {w : Int64} (h : 0 ≤ w) : IsField (Text.ofWord w) := by
  apply isField_of_notMem
  intro hcolon
  exact absurd (Text.isDigit_of_mem_ofWord h hcolon) (by decide)

end EditStream

/-! ## Lines of records -/

/-- A replacement whose record can be read back. -/
structure Replacement.Writable (r : Replacement) : Prop where
  offset_nonneg : 0 ≤ r.offset
  length_nonneg : 0 ≤ r.length
  file_line : Text.newline ∉ r.file
  file_field : EditStream.IsField r.file
  text_zero : 0 ∉ r.text
  text_return : r.text.getLast? ≠ some Text.carriageReturn

/-- A replacement without what its record leaves out: whether the file needs the header. -/
def Replacement.plain (r : Replacement) : Replacement := { r with needsHeader := false }

namespace EditStream

namespace Record

/-- A record whose line has no newline inside. -/
def IsLine : Record → Prop
  | replace r => Text.newline ∉ r.file
  | header file name => Text.newline ∉ file ∧ Text.newline ∉ name

/-- A record that can be read back from its line. -/
def Writable : Record → Prop
  | replace r => r.Writable
  | header file name =>
    Text.newline ∉ file ∧ IsField file ∧ Text.newline ∉ name ∧
      name.getLast? ≠ some Text.carriageReturn

theorem Writable.isLine {r : Record} (h : r.Writable) : r.IsLine := by
  cases r with
  | replace r => exact h.file_line
  | header file name => exact ⟨h.1, h.2.2.1⟩

/-- A record without what its line leaves out. -/
def plain : Record → Record
  | replace r => replace r.plain
  | header file name => header file name

@[simp] theorem line_plain (r : Record) : r.plain.line = r.line := by
  cases r with
  | replace r => rfl
  | header file name => rfl

@[simp] theorem file_plain (r : Record) : r.plain.file = r.file := by
  cases r with
  | replace r => rfl
  | header file name => rfl

/-- A replacement is read back from its line, if the text has no zero byte. -/
theorem parse_line_replace {r : Replacement} (hoffset : 0 ≤ r.offset) (hlength : 0 ≤ r.length)
    (hfile : IsField r.file) (hzero : 0 ∉ r.text) :
    parse (line (replace r)) = .ok (replace r.plain) := by
  have hfields : Text.splitUpTo separator 4 (line (replace r)) = fields (replace r) :=
    splitUpTo_join (isField_of_notMem (by decide)) hfile (isField_ofWord hoffset)
      (isField_ofWord hlength) _
  rw [parse, hfields]
  simp only [fields, if_true, readCount_ofWord hoffset, readCount_ofWord hlength,
    Text.replaceByte_replaceByte hzero]
  rfl

/-- A header is read back from its line. -/
theorem parse_line_header {file : Text} (hfile : IsField file) (name : Text) :
    parse (line (header file name)) = .ok (header file name) := by
  have hfields : Text.splitUpTo separator 4 (line (header file name)) = fields (header file name) :=
    splitUpTo_join (isField_of_notMem (by decide)) hfile (isField_of_notMem (by decide))
      (isField_of_notMem (by decide)) _
  have htag : headerTag ≠ replaceTag := by decide
  rw [parse, hfields]
  simp only [fields, htag, if_false, if_true]

/-- A record is read back from its line. -/
theorem Writable.parse_line {r : Record} (h : r.Writable) : parse r.line = .ok r.plain := by
  cases r with
  | replace r => exact parse_line_replace h.offset_nonneg h.length_nonneg h.file_field h.text_zero
  | header file name => exact parse_line_header h.2.1 name

/-- The line of a record is one line. -/
theorem IsLine.newline_notMem {r : Record} (h : r.IsLine) : Text.newline ∉ r.line := by
  have hsep : Text.newline ∉ separator := by decide
  cases r with
  | replace r =>
      have htag : Text.newline ∉ replaceTag := by decide
      have htext := Text.notMem_replaceByte (show Text.newline ≠ 0 by decide) r.text
      have hfile : Text.newline ∉ r.file := h
      rw [line, fields, join_five]
      simp [htag, hsep, htext, hfile, Text.newline_notMem_ofWord]
  | header file name =>
      have htag : Text.newline ∉ headerTag := by decide
      have hone : Text.newline ∉ ("-1" : Text) := by decide
      rw [line, fields, join_five]
      simp [htag, hsep, hone, h.1, h.2]

/-- A record that can be read back loses no carriage return. -/
theorem Writable.dropReturn_line {r : Record} (h : r.Writable) :
    Text.dropReturn r.line = r.line := by
  have hlast : ∀ (a t : Text), t.getLast? ≠ some Text.carriageReturn →
      (a ++ separator ++ t).getLast? ≠ some Text.carriageReturn := by
    intro a t ht
    have hsep : separator.getLast? = some Text.colon := rfl
    rw [List.getLast?_append, List.getLast?_append, hsep]
    cases htail : t.getLast? with
    | none => simp [Text.colon, Text.carriageReturn]
    | some b => simpa [htail] using ht
  apply Text.dropReturn_of_getLast?
  cases r with
  | replace r =>
      rw [line, fields, join_five]
      apply hlast
      apply hlast
      apply hlast
      apply hlast
      rw [Text.replaceByte, List.getLast?_map]
      cases htail : r.text.getLast? with
      | none => simp
      | some b =>
          have hb : b ≠ Text.carriageReturn := by
            rintro rfl
            exact h.text_return htail
          by_cases hnewline : b = Text.newline
          · simp [hnewline, Text.carriageReturn]
          · simpa [hnewline] using hb
  | header file name =>
      rw [line, fields, join_five]
      exact hlast _ _ (hlast _ _ (hlast _ _ (hlast _ _ h.2.2.2)))

/-- No line of a record is taken for a mark, not even without a carriage return at its end. -/
theorem dropReturn_line_ne (r : Record) {mark : Text} (h : mark.head? = some 61) :
    Text.dropReturn r.line ≠ mark := by
  intro hmark
  have hstart : mark <+: r.line := hmark ▸ Text.dropReturn_isPrefix r.line
  obtain ⟨rest, hrest⟩ := hstart
  have hhead : r.line.head? = some 61 := by
    rw [← hrest, List.head?_append, h]
    rfl
  cases r with
  | replace r =>
      have : (line (replace r)).head? = some 114 := rfl
      rw [this] at hhead
      exact absurd hhead (by decide)
  | header file name =>
      have : (line (header file name)).head? = some 105 := rfl
      rw [this] at hhead
      exact absurd hhead (by decide)

end Record

end EditStream

end PointerMigration
