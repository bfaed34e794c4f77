/-
# Data written as JSON

A value that is written as JSON is read back, whatever white space and punctuation the writer puts
around its parts, as long as its texts are valid UTF-8 and it is not nested too deep for the reader.
-/
import PointerMigration.Datum.Json
import PointerMigration.Proofs.Data
import PointerMigration.Proofs.Decimal
import PointerMigration.Proofs.Utf8

namespace PointerMigration

namespace Json

/-! ## Texts -/

theorem hexValue?_hexDigit {n : Nat} (h : n < 16) : Text.hexValue? (Text.hexDigit n) = some n := by
  have hall : ∀ m : Fin 16, Text.hexValue? (Text.hexDigit m.val) = some m.val := by decide
  exact hall ⟨n, h⟩

/-- Four hexadecimal digits of a number are read as the number. -/
theorem exists_hex4 {r : Nat} (h : r < 0x10000) :
    ∃ a b c d, Text.hex 4 r = [a, b, c, d] ∧ hex4? a b c d = some r := by
  refine ⟨_, _, _, _, rfl, ?_⟩
  have hdigit : ∀ n : Nat, n % 16 < 16 := fun n => Nat.mod_lt n (by decide)
  rw [hex4?, hexValue?_hexDigit (hdigit _), hexValue?_hexDigit (hdigit _),
    hexValue?_hexDigit (hdigit _), hexValue?_hexDigit (hdigit _)]
  simp only [Option.bind_eq_bind, Option.bind_some, Option.pure_def, Option.some.injEq]
  omega

/-- The bytes of a valid sequence are copied. -/
theorem readString_copy (bytes rest read : Text) :
    readString bytes.length read (bytes ++ rest) = readString 0 (bytes.reverse ++ read) rest := by
  induction bytes generalizing read with
  | nil => rfl
  | cons b bytes ih =>
      rw [List.length_cons, List.cons_append, readString, ih, List.reverse_cons, List.append_assoc]
      rfl

/-- A rune escaped by its number is read. -/
theorem readString_number {r : Nat} (h : r < 0xD800) (read rest : Text) :
    readString 0 read ("\\u" ++ Text.hex 4 r ++ rest)
      = readString 0 ((Rune.encode r).reverse ++ read) rest := by
  obtain ⟨a, b, c, d, hhex, hvalue⟩ := @exists_hex4 r (by omega)
  have hhigh : isHighSurrogate r = false := by
    simp only [isHighSurrogate, Bool.and_eq_false_iff, decide_eq_false_iff_not]
    omega
  have hescape : ("\\u" : Text) ++ [a, b, c, d] ++ rest = 92 :: 117 :: a :: b :: c :: d :: rest :=
    rfl
  rw [hhex, hescape, readString.eq_def]
  simp only
  rw [if_neg (by decide), if_neg (by decide), if_pos (by decide), if_pos trivial, hvalue]
  simp only [hhigh]
  -- A second escape is looked at only behind a high surrogate.
  split
  · split
    · rfl
    · rfl
  · rfl

/-- An escape by a letter is read. -/
theorem readString_letter {c byte : UInt8} (hc : c ≠ 117) (h : letterEscape? c = some byte)
    (read rest : Text) :
    readString 0 read ([Text.backslash, c] ++ rest) = readString 0 (byte :: read) rest := by
  rw [List.cons_append, List.cons_append, List.nil_append, readString.eq_def]
  simp only
  rw [if_neg (by decide), if_neg (by decide), if_pos trivial, if_neg hc, h]

/-- A byte that is not escaped is read. -/
theorem readString_ascii {b : UInt8} (hlow : ¬ b < 32) (hhigh : b < 0x80) (hquote : b ≠ 34)
    (hbackslash : b ≠ Text.backslash) (read : Text) {rest : Text} (hrest : rest ≠ []) :
    readString 0 read (b :: rest) = readString 0 (b :: read) rest := by
  obtain ⟨c, t, rfl⟩ := List.exists_cons_of_ne_nil hrest
  rw [readString.eq_def]
  simp only
  rw [if_neg hquote, if_neg hlow, if_neg hbackslash, if_pos hhigh]

/-- A sequence of several bytes is read. -/
theorem readString_sequence {b : UInt8} {bytes : Text} {r : Rune} (h : Rune.Encodes (b :: bytes) r)
    (hb : ¬ b < 0x80) (read : Text) {rest : Text} (hrest : rest ≠ []) :
    readString 0 read (b :: bytes ++ rest) = readString 0 ((b :: bytes).reverse ++ read) rest := by
  have hnat : ¬ b.toNat < 0x80 := fun hlt => hb (UInt8.lt_iff_toNat_lt.mpr hlt)
  have hlow : ¬ b < 32 := by
    rw [UInt8.lt_iff_toNat_lt]
    simp only [UInt8.reduceToNat]
    omega
  have hquote : b ≠ 34 := by
    rintro rfl
    exact hnat (by decide)
  have hbackslash : b ≠ Text.backslash := by
    rintro rfl
    exact hnat (by decide)
  obtain ⟨c, t, hcons⟩ : ∃ c t, bytes ++ rest = c :: t :=
    List.exists_cons_of_ne_nil (by simp [hrest])
  have hread := h.sequence?_append rest
  rw [List.cons_append, hcons] at hread ⊢
  rw [readString.eq_def]
  simp only
  rw [if_neg hquote, if_neg hlow, if_neg hbackslash, if_neg hb, hread]
  simp only [List.length_cons, Nat.add_sub_cancel]
  rw [← hcons, readString_copy, List.reverse_cons, List.append_assoc]
  rfl

/-- The runes that are written by number: controls, three signs of markup, and two line
separators. -/
theorem needsNumber_iff {r : Nat} :
    needsNumber r = true ↔ r < 32 ∨ r = 60 ∨ r = 62 ∨ r = 38 ∨ r = 0x2028 ∨ r = 0x2029 := by
  simp [needsNumber, or_assoc]

/-- A rune is read as it was written. -/
theorem readString_writeRune {r : Nat} (h : Rune.isValid r = true) (read : Text) {rest : Text}
    (hrest : rest ≠ []) :
    readString 0 read (writeRune r ++ rest)
      = readString 0 ((Rune.encode r).reverse ++ read) rest := by
  unfold writeRune
  cases hshort : shortEscape? r with
  | some letter =>
      simp only
      unfold shortEscape? at hshort
      split at hshort <;> cases hshort <;> exact readString_letter (by decide) rfl read rest
  | none =>
      simp only
      split
      · rename_i hnumber
        refine readString_number ?_ read rest
        have hcases := needsNumber_iff.mp hnumber
        omega
      · rename_i hnumber
        have hencodes := Rune.encodes_encode h
        obtain ⟨b, bytes, hbytes⟩ := List.exists_cons_of_ne_nil hencodes.ne_nil
        rw [hbytes] at hencodes ⊢
        by_cases hb : b < 0x80
        · have hone := hencodes.sequence?_append []
          rw [List.append_nil, Rune.sequence?.eq_def] at hone
          simp only [hb, if_true] at hone
          obtain ⟨hr, hlength⟩ := Prod.mk.inj (Option.some.inj hone)
          obtain rfl : bytes = [] := by simpa using hlength.symm
          rw [needsNumber_iff] at hnumber
          have hlow : ¬ b < 32 := by
            rw [UInt8.lt_iff_toNat_lt, hr]
            simp only [UInt8.reduceToNat]
            omega
          refine readString_ascii hlow hb ?_ ?_ read hrest
          · rintro rfl
            rw [← hr] at hshort
            cases hshort
          · rintro rfl
            rw [← hr] at hshort
            cases hshort
        · exact readString_sequence hencodes hb read hrest

theorem readString_quote (read rest : Text) :
    readString 0 read (34 :: rest) = some (read.reverse, rest) := by
  cases rest with
  | nil => rfl
  | cons c t =>
      rw [readString.eq_def]
      simp only [if_true]

/-- A valid text is read as it was written. -/
theorem readString_writeString {t : Text} (h : Text.isValidUtf8 t = true) (rest : Text) :
    readString 0 [] ((Text.runes t).flatMap writeRune ++ 34 :: rest) = some (t, rest) := by
  obtain ⟨rs, hrs, rfl⟩ := Text.exists_runes_of_isValidUtf8 h
  -- The reader holds what it has read, so the induction is on the runes that are left.
  have hall : ∀ (rs : List Rune) (read : Text), (∀ r ∈ rs, Rune.isValid r = true) →
      readString 0 read (rs.flatMap writeRune ++ 34 :: rest)
        = some (read.reverse ++ Text.ofRunes rs, rest) := by
    intro rs
    induction rs with
    | nil =>
        intro read _
        rw [List.flatMap_nil, List.nil_append, readString_quote]
        simp [Text.ofRunes]
    | cons r rs ih =>
        intro read hvalid
        rw [List.forall_mem_cons] at hvalid
        rw [List.flatMap_cons, List.append_assoc, readString_writeRune hvalid.1 read (by simp),
          ih _ hvalid.2]
        simp [Text.ofRunes]
  rw [Text.runes_ofRunes hrs, hall rs [] hrs]
  rfl

/-! ## Numbers -/

/-- What may follow a value that was written: nothing, a comma or a new line. -/
def EndsValue (rest : Text) : Prop := ∀ b ∈ rest.head?, b = 44 ∨ b = Text.newline

/-- Digits are read up to the end of a value. -/
theorem takeWhile_digits {digits rest : Text} (hdigits : ∀ b ∈ digits, Text.isDigit b = true)
    (hrest : EndsValue rest) :
    (digits ++ rest).takeWhile Text.isDigit = digits ∧
      (digits ++ rest).dropWhile Text.isDigit = rest := by
  rw [List.takeWhile_append_of_pos hdigits, List.dropWhile_append_of_pos hdigits]
  cases rest with
  | nil => simp
  | cons b rest =>
      have hb : Text.isDigit b = false := by
        rcases hrest b rfl with rfl | rfl <;> decide
      simp [hb]

/-- The digits of a number start with a zero only if it is zero. -/
theorem head_lowDigits {count n : Nat} (hn : n ≠ 0) (h : n < 10 ^ count) :
    ∃ b t, Text.lowDigits count n = b :: t ∧ b ≠ 48 := by
  induction count generalizing n with
  | zero =>
      rw [Nat.pow_zero] at h
      omega
  | succ count ih =>
      rw [Text.lowDigits]
      split
      · rename_i hsmall
        refine ⟨_, [], rfl, ?_⟩
        intro hzero
        have hnat := congrArg UInt8.toNat hzero
        rw [UInt8.toNat_ofNat', Nat.mod_eq_of_lt (by omega)] at hnat
        simp only [UInt8.reduceToNat] at hnat
        omega
      · have hquotient : n / 10 < 10 ^ count := by
          rw [Nat.pow_succ] at h
          omega
        obtain ⟨b, t, hfront, hb⟩ := ih (by omega) hquotient
        exact ⟨b, t ++ [UInt8.ofNat (48 + n % 10)], by rw [hfront]; rfl, hb⟩

/-- The digits of a number are read as a whole number. -/
theorem whole?_ofNat (n : Nat) {rest : Text} (hrest : EndsValue rest) :
    whole? (Text.ofNat n ++ rest) = some (Text.ofNat n, rest) := by
  have hdigits : ∀ b ∈ Text.ofNat n, Text.isDigit b = true :=
    fun b hb => Text.isDigit_of_mem_lowDigits hb
  obtain ⟨htake, hdrop⟩ := takeWhile_digits hdigits hrest
  by_cases hn : n = 0
  · subst hn
    rfl
  · obtain ⟨b, t, hfront, hb⟩ := head_lowDigits hn (Decimal.lt_ten_pow_succ n)
    have hfront : Text.ofNat n = b :: t := hfront
    rw [hfront] at htake hdrop ⊢
    rw [List.cons_append] at htake hdrop ⊢
    rw [whole?]
    simp only [if_neg hb, digits?, htake, hdrop, List.isEmpty_cons, Bool.false_eq_true, if_false]

/-- A word is read back from its decimal form. -/
theorem readNumber_ofWord (w : Int64) {rest : Text} (hrest : EndsValue rest) :
    readNumber (Text.ofWord w ++ rest) = some (.int w, rest) := by
  have hfraction : fraction? rest = some (false, rest) := by
    cases rest with
    | nil => rfl
    | cons b rest => rcases hrest b rfl with rfl | rfl <;> rfl
  have hexponent : exponent? rest = some (false, rest) := by
    cases rest with
    | nil => rfl
    | cons b rest => rcases hrest b rfl with rfl | rfl <;> rfl
  have hread := Decimal.read_ofWord w
  unfold readNumber
  by_cases hneg : w.toInt < 0
  · have hword : Text.ofWord w = 45 :: Text.ofNat w.toInt.natAbs := by
      rw [Text.ofWord, Text.ofInt, if_pos hneg]
    rw [hword] at hread ⊢
    simp [whole?_ofNat _ hrest, hfraction, hexponent, hread]
  · have hword : Text.ofWord w = Text.ofNat w.toInt.natAbs := by
      rw [Text.ofWord, Text.ofInt, if_neg hneg]
    have hhead : (Text.ofNat w.toInt.natAbs ++ rest).head? ≠ some 45 := by
      intro hhead
      obtain ⟨b, t, hfront⟩ := List.exists_cons_of_ne_nil (Text.ofNat_ne_nil w.toInt.natAbs)
      have hb : Text.isDigit b = true := by
        have : b ∈ Text.ofNat w.toInt.natAbs := by simp [hfront]
        exact Text.isDigit_of_mem_lowDigits this
      obtain rfl : b = 45 := by simpa [hfront] using hhead
      cases hb
    rw [hword] at hread ⊢
    rw [if_neg hhead]
    simp [whole?_ofNat _ hrest, hfraction, hexponent, hread]

/-- A number starts with a minus or a digit. -/
theorem exists_ofWord_eq_cons (w : Int64) :
    ∃ b t, Text.ofWord w = b :: t ∧ (b = 45 || Text.isDigit b) = true := by
  rw [Text.ofWord, Text.ofInt]
  split
  · exact ⟨45, _, rfl, rfl⟩
  · obtain ⟨b, t, hfront⟩ := List.exists_cons_of_ne_nil (Text.ofNat_ne_nil w.toInt.natAbs)
    have hmem : b ∈ Text.ofNat w.toInt.natAbs := by simp [hfront]
    have hb : Text.isDigit b = true := Text.isDigit_of_mem_lowDigits hmem
    exact ⟨b, t, hfront, by simp [hb]⟩

/-! ## White space -/

theorem skipBlanks_cons {b : UInt8} (h : isBlank b = false) (t : Text) :
    skipBlanks (b :: t) = b :: t := by
  rw [skipBlanks, List.dropWhile_cons, h]
  rfl

/-- The start of a line is skipped with its indent. -/
theorem skipBlanks_lineStart (depth : Nat) (t : Text) :
    skipBlanks (lineStart depth ++ t) = skipBlanks t := by
  have hblank : ∀ b ∈ lineStart depth, isBlank b = true := by
    intro b hb
    rcases List.mem_cons.mp hb with rfl | hb
    · rfl
    · rw [List.eq_of_mem_replicate hb]
      rfl
  rw [skipBlanks, List.dropWhile_append_of_pos hblank]
  rfl

/-- A reader of values passes over white space. -/
theorem readValue_of_skipBlanks_eq {t t' : Text} (h : skipBlanks t = skipBlanks t')
    (fuel level : Nat) :
    readValue fuel level t = readValue fuel level t' := by
  cases fuel with
  | zero => rfl
  | succ fuel => rw [readValue, readValue, h]

/-- A written value starts with a byte that is no white space and closes no list. -/
theorem exists_writeValue_eq_cons (depth : Nat) (d : Datum) (rest : Text) :
    ∃ b t, writeValue depth d rest = b :: t ∧ isBlank b = false ∧ b ≠ 93 := by
  cases d with
  | null => exact ⟨110, _, rfl, rfl, by decide⟩
  | foreign => exact ⟨110, _, rfl, rfl, by decide⟩
  | bool v =>
      cases v with
      | true => exact ⟨116, _, rfl, rfl, by decide⟩
      | false => exact ⟨102, _, rfl, rfl, by decide⟩
  | text t => exact ⟨34, _, rfl, rfl, by decide⟩
  | list items => cases items <;> exact ⟨91, _, rfl, rfl, by decide⟩
  | record entries => cases entries <;> exact ⟨123, _, rfl, rfl, by decide⟩
  | int w =>
      obtain ⟨b, t, hfront, hb⟩ := exists_ofWord_eq_cons w
      refine ⟨b, t ++ rest, by rw [writeValue, hfront]; rfl, ?_, ?_⟩
      · rw [← Bool.not_eq_true]
        intro hblank
        simp only [isBlank, Bool.or_eq_true, decide_eq_true_eq] at hblank
        rcases hblank with ((rfl | rfl) | rfl) | rfl <;> cases hb
      · rintro rfl
        cases hb

/-! ## Values -/

/-- A value is read back from its written form, whatever comes after it, if it is not nested too
deep. -/
def IsReadBack (d : Datum) : Prop :=
  ∀ (depth level fuel : Nat) (rest : Text), level + d.nesting ≤ maxDepth → EndsValue rest →
    2 * (writeValue depth d rest).length ≤ fuel →
    readValue (fuel + 1) level (writeValue depth d rest) = some (d, rest)

/-- After a value in a list comes a comma or the next line. -/
theorem endsValue_writeItems (depth k : Nat) (items : List Datum) (rest : Text) :
    EndsValue (writeItems depth items (lineStart k ++ rest)) := by
  intro b hb
  cases items with
  | nil => exact Or.inr (by simpa [writeItems, lineStart] using hb.symm)
  | cons d items => exact Or.inl (by simpa [writeItems] using hb.symm)

/-- After a value in a record comes a comma or the next line. -/
theorem endsValue_writeEntries (depth k : Nat) (entries : List (Option Text × Datum))
    (rest : Text) :
    EndsValue (writeEntries depth entries (lineStart k ++ rest)) := by
  intro b hb
  cases entries with
  | nil => exact Or.inr (by simpa [writeEntries, lineStart] using hb.symm)
  | cons e entries => exact Or.inl (by simpa [writeEntries] using hb.symm)

theorem length_le_writeItems {items : List Datum}
    (h : ∀ d ∈ items, ∀ (depth : Nat) (rest : Text), rest.length ≤ (writeValue depth d rest).length)
    (depth : Nat) (rest : Text) : rest.length ≤ (writeItems depth items rest).length := by
  induction items with
  | nil => exact Nat.le_refl _
  | cons d items ih =>
      have hd := h d (by simp) depth (writeItems depth items rest)
      have hrest := ih fun x hx => h x (List.mem_cons_of_mem d hx)
      simp only [writeItems, List.length_cons, List.length_append]
      omega

theorem length_le_writeEntries {entries : List (Option Text × Datum)}
    (h : ∀ e ∈ entries, ∀ (depth : Nat) (rest : Text),
    rest.length ≤ (writeValue depth e.2 rest).length)
    (depth : Nat) (rest : Text) : rest.length ≤ (writeEntries depth entries rest).length := by
  induction entries with
  | nil => exact Nat.le_refl _
  | cons e entries ih =>
      have he := h e (by simp) depth (writeEntries depth entries rest)
      have hrest := ih fun x hx => h x (List.mem_cons_of_mem e hx)
      simp only [writeEntries, List.length_cons, List.length_append]
      omega

/-- Writing in front of a text does not make it shorter. -/
theorem length_le_writeValue (d : Datum) :
    ∀ (depth : Nat) (rest : Text), rest.length ≤ (writeValue depth d rest).length := by
  induction d using Datum.induction with
  | hnull => simp [writeValue]
  | hforeign => simp [writeValue]
  | hbool b => cases b <;> simp [writeValue]
  | hint n => simp [writeValue]
  | htext t => simp [writeValue]
  | hlist items ih =>
      intro depth rest
      cases items with
      | nil =>
          simp only [writeValue, List.length_cons]
          omega
      | cons d items =>
          have hd :=
            ih d (by simp) (depth + 1)
              (writeItems (depth + 1) items (lineStart depth ++ 93 :: rest))
          have hrest :=
            length_le_writeItems (fun x hx => ih x (List.mem_cons_of_mem d hx)) (depth + 1)
            (lineStart depth ++ 93 :: rest)
          simp only [writeValue, List.length_cons, List.length_append] at hd hrest ⊢
          omega
  | hrecord entries ih =>
      intro depth rest
      cases entries with
      | nil =>
          simp only [writeValue, List.length_cons]
          omega
      | cons e entries =>
          have he :=
            ih e (by simp) (depth + 1)
              (writeEntries (depth + 1) entries (lineStart depth ++ 125 :: rest))
          have hrest :=
            length_le_writeEntries (fun x hx => ih x (List.mem_cons_of_mem e hx)) (depth + 1)
            (lineStart depth ++ 125 :: rest)
          simp only [writeValue, List.length_cons, List.length_append] at he hrest ⊢
          omega

/-- The values of a list are read up to its bracket. -/
theorem readItems_writeItems {items : List Datum} {d : Datum} (hd : IsReadBack d)
    (hitems : ∀ x ∈ items, IsReadBack x) {depth k level fuel : Nat} {rest : Text}
    (hlevel : ∀ x ∈ d :: items, level + x.nesting ≤ maxDepth)
    (hfuel :
      2 * (writeValue depth d (writeItems depth items (lineStart k ++ 93 :: rest))).length + 2
        ≤ fuel) :
    readItems fuel level (lineStart depth ++
      writeValue depth d (writeItems depth items (lineStart k ++ 93 :: rest)))
      = some (d :: items, rest) := by
  induction items generalizing d fuel with
  | nil =>
      obtain ⟨fuel, rfl⟩ : ∃ n, fuel = n + 2 := ⟨fuel - 2, by omega⟩
      have hread :=
        hd depth level fuel _ (hlevel d (by simp)) (endsValue_writeItems depth k [] (93 :: rest))
        (by omega)
      rw [readItems, readValue_of_skipBlanks_eq (skipBlanks_lineStart depth _), hread]
      simp only [writeItems]
      rw [skipBlanks_lineStart, skipBlanks_cons rfl]
      rfl
  | cons x items ih =>
      obtain ⟨fuel, rfl⟩ : ∃ n, fuel = n + 2 := ⟨fuel - 2, by omega⟩
      have hread := hd depth level fuel _ (hlevel d (by simp))
        (endsValue_writeItems depth k (x :: items) (93 :: rest)) (by omega)
      -- Every value costs fuel, and what is left behind it is shorter by the comma at least.
      have hlength :=
        length_le_writeValue d depth (writeItems depth (x :: items) (lineStart k ++ 93 :: rest))
      rw [readItems, readValue_of_skipBlanks_eq (skipBlanks_lineStart depth _), hread]
      rw [writeItems] at hlength hfuel ⊢
      simp only [List.length_cons, List.length_append] at hlength
      have hlater : readItems (fuel + 1) level
          (lineStart depth ++
            writeValue depth x (writeItems depth items (lineStart k ++ 93 :: rest)))
          = some (x :: items, rest) :=
        ih (hitems x (by simp)) (fun y hy => hitems y (List.mem_cons_of_mem x hy))
          (fun y hy => hlevel y (List.mem_cons_of_mem d hy)) (by omega)
      simp only
      rw [skipBlanks_cons rfl]
      simp only [hlater, Option.map_some]
      rfl

/-- An entry is read, and after it the brace of the record or more entries. -/
theorem readEntries_entry {key : Text} (hkey : Text.isValidUtf8 key = true) {d : Datum}
    {depth level fuel : Nat} {tail : Text}
    (hread : readValue fuel level (writeValue depth d tail) = some (d, tail)) :
    (∀ rest, skipBlanks tail = 125 :: rest →
      readEntries (fuel + 1) level (lineStart depth ++ writeString key ++ ": " ++
        writeValue depth d tail)
        = some ([(some key, d)], rest)) ∧
    ∀ later entries rest, skipBlanks tail = 44 :: later →
      readEntries fuel level later = some (entries, rest) →
      readEntries (fuel + 1) level (lineStart depth ++ writeString key ++ ": " ++
        writeValue depth d tail)
        = some ((some key, d) :: entries, rest) := by
  have hentry : skipBlanks (lineStart depth ++ writeString key ++ ": " ++ writeValue depth d tail)
      = 34 :: ((Text.runes key).flatMap writeRune ++
        34 :: 58 :: 32 :: writeValue depth d tail) := by
    have hcolon : (": " : Text) = [58, 32] := rfl
    rw [List.append_assoc, List.append_assoc, skipBlanks_lineStart, hcolon, writeString,
      List.cons_append, List.cons_append, skipBlanks_cons rfl, List.append_assoc]
    rfl
  have hspace : readValue fuel level (32 :: writeValue depth d tail) = some (d, tail) := by
    have hblank : skipBlanks (32 :: writeValue depth d tail)
        = skipBlanks (writeValue depth d tail) := rfl
    rw [readValue_of_skipBlanks_eq hblank, hread]
  constructor
  · intro rest hrest
    rw [readEntries, hentry]
    simp only [readString_writeString hkey, skipBlanks_cons (show isBlank 58 = false from rfl),
      hspace, hrest]
    rfl
  · intro later entries rest hlater hmore
    rw [readEntries, hentry]
    simp only [readString_writeString hkey, skipBlanks_cons (show isBlank 58 = false from rfl),
      hspace, hlater, hmore]
    rfl

/-- The entries of a record are read up to its brace. -/
theorem readEntries_writeEntries {entries : List (Option Text × Datum)} {key : Text} {d : Datum}
    (hkey : Text.isValidUtf8 key = true) (hd : IsReadBack d)
    (hkeys : ∀ e ∈ entries, ∃ key, e.1 = some key ∧ Text.isValidUtf8 key = true)
    (hentries : ∀ e ∈ entries, IsReadBack e.2) {depth k level fuel : Nat} {rest : Text}
    (hlevel : level + d.nesting ≤ maxDepth)
    (hlevels : ∀ e ∈ entries, level + e.2.nesting ≤ maxDepth)
    (hfuel :
      2 * (writeValue depth d (writeEntries depth entries (lineStart k ++ 125 :: rest))).length + 2
        ≤ fuel) :
    readEntries fuel level (lineStart depth ++ writeString key ++ ": " ++
        writeValue depth d (writeEntries depth entries (lineStart k ++ 125 :: rest)))
      = some ((some key, d) :: entries, rest) := by
  induction entries generalizing key d fuel with
  | nil =>
      obtain ⟨fuel, rfl⟩ : ∃ n, fuel = n + 2 := ⟨fuel - 2, by omega⟩
      have hread :=
        hd depth level fuel _ hlevel (endsValue_writeEntries depth k [] (125 :: rest)) (by omega)
      refine (readEntries_entry hkey hread).1 rest ?_
      rw [writeEntries, skipBlanks_lineStart, skipBlanks_cons rfl]
  | cons e entries ih =>
      obtain ⟨fuel, rfl⟩ : ∃ n, fuel = n + 2 := ⟨fuel - 2, by omega⟩
      obtain ⟨next, x⟩ := e
      obtain ⟨nextKey, hnext, hvalid⟩ := hkeys _ List.mem_cons_self
      obtain rfl : next = some nextKey := hnext
      have hread := hd depth level fuel _ hlevel
        (endsValue_writeEntries depth k ((some nextKey, x) :: entries) (125 :: rest)) (by omega)
      have hlength := length_le_writeValue d depth
        (writeEntries depth ((some nextKey, x) :: entries) (lineStart k ++ 125 :: rest))
      refine (readEntries_entry hkey hread).2 _ _ rest
        (by rw [writeEntries]; exact skipBlanks_cons rfl _) ?_
      rw [writeEntries] at hlength hfuel
      simp only [List.length_cons, List.length_append] at hlength
      have hx : IsReadBack x := hentries _ List.mem_cons_self
      have hxlevel : level + x.nesting ≤ maxDepth := hlevels _ List.mem_cons_self
      exact ih hvalid hx (fun y hy => hkeys y (List.mem_cons_of_mem _ hy))
        (fun y hy => hentries y (List.mem_cons_of_mem _ hy)) hxlevel
        (fun y hy => hlevels y (List.mem_cons_of_mem _ hy)) (by omega)

theorem isReadBack_int (w : Int64) : IsReadBack (.int w) := by
  intro depth level fuel rest _ hrest _
  obtain ⟨b, t, hfront, hb⟩ := exists_ofWord_eq_cons w
  have hnumber := readNumber_ofWord w hrest
  -- No other kind of value starts with a minus or a digit.
  have hother : ∀ c : UInt8, (c = 45 || Text.isDigit c) = false → b ≠ c := by
    rintro c hc rfl
    rw [hb] at hc
    cases hc
  rw [hfront, List.cons_append] at hnumber
  rw [writeValue, hfront, List.cons_append, readValue]
  obtain ⟨_, _, hcons, hblank, -⟩ := exists_writeValue_eq_cons depth (.int w) rest
  rw [writeValue, hfront, List.cons_append, List.cons.injEq] at hcons
  rw [← hcons.1] at hblank
  rw [skipBlanks_cons hblank]
  simp only [if_neg (hother 34 rfl), if_neg (hother 91 rfl), if_neg (hother 123 rfl),
    if_neg (hother 110 rfl), if_neg (hother 116 rfl), if_neg (hother 102 rfl), hb, if_true, hnumber]

theorem isReadBack_list {items : List Datum} (h : ∀ d ∈ items, IsReadBack d) :
    IsReadBack (.list items) := by
  intro depth level fuel rest hlevel _ hfuel
  have hdepth : level ≠ maxDepth := by
    rw [Datum.nesting] at hlevel
    omega
  cases items with
  | nil =>
      rw [writeValue, readValue, skipBlanks_cons rfl]
      simp only [if_neg hdepth]
      rfl
  | cons d items =>
      have hlevels : ∀ x ∈ d :: items, level + 1 + x.nesting ≤ maxDepth := by
        intro x hx
        have := Datum.nesting_lt_of_mem_items hx
        omega
      have hread : readItems fuel (level + 1) (lineStart (depth + 1) ++ writeValue (depth + 1) d
          (writeItems (depth + 1) items (lineStart depth ++ 93 :: rest)))
            = some (d :: items, rest) := by
        refine readItems_writeItems (h d (by simp))
          (fun x hx => h x (List.mem_cons_of_mem d hx)) hlevels ?_
        simp only [writeValue, lineStart, List.length_cons, List.length_append] at hfuel ⊢
        omega
      obtain ⟨b, t, hfront, hblank, hbracket⟩ := exists_writeValue_eq_cons (depth + 1) d
        (writeItems (depth + 1) items (lineStart depth ++ 93 :: rest))
      -- The reader must not take the list for an empty one.
      have hopen : (skipBlanks (lineStart (depth + 1) ++ writeValue (depth + 1) d
          (writeItems (depth + 1) items (lineStart depth ++ 93 :: rest)))).head? ≠ some 93 := by
        rw [skipBlanks_lineStart, hfront, skipBlanks_cons hblank, List.head?_cons]
        exact fun hhead => hbracket (Option.some.inj hhead)
      rw [writeValue, readValue, skipBlanks_cons rfl]
      simp only [if_neg hdepth, if_neg hopen, hread]
      rfl

/-- Records with valid keys are read back if their values are. -/
theorem isReadBack_record {entries : List (Option Text × Datum)}
    (hkeys : ∀ e ∈ entries, ∃ key, e.1 = some key ∧ Text.isValidUtf8 key = true)
    (h : ∀ e ∈ entries, IsReadBack e.2) : IsReadBack (.record entries) := by
  intro depth level fuel rest hlevel _ hfuel
  have hdepth : level ≠ maxDepth := by
    rw [Datum.nesting] at hlevel
    omega
  cases entries with
  | nil =>
      rw [writeValue, readValue, skipBlanks_cons rfl]
      simp only [if_neg hdepth]
      rfl
  | cons e entries =>
      obtain ⟨key, d⟩ := e
      obtain ⟨key', hkey', hvalid⟩ := hkeys _ List.mem_cons_self
      obtain rfl : key = some key' := hkey'
      have hlevels : ∀ e ∈ (some key', d) :: entries, level + 1 + e.2.nesting ≤ maxDepth := by
        intro e he
        have := Datum.nesting_lt_of_mem_entries he
        omega
      have hread : readEntries fuel (level + 1)
          (lineStart (depth + 1) ++ writeString key' ++ ": " ++
          writeValue (depth + 1) d
            (writeEntries (depth + 1) entries (lineStart depth ++ 125 :: rest)))
          = some ((some key', d) :: entries, rest) := by
        refine readEntries_writeEntries hvalid (h _ List.mem_cons_self)
          (fun e he => hkeys e (List.mem_cons_of_mem _ he))
          (fun e he => h e (List.mem_cons_of_mem _ he))
          (hlevels _ List.mem_cons_self) (fun e he => hlevels e (List.mem_cons_of_mem _ he)) ?_
        simp only [writeValue, lineStart, List.length_cons, List.length_append] at hfuel ⊢
        omega
      have hopen : (skipBlanks (lineStart (depth + 1) ++ writeString key' ++ ": " ++
          writeValue (depth + 1) d
            (writeEntries (depth + 1) entries (lineStart depth ++ 125 :: rest)))).head?
          ≠ some 125 := by
        rw [List.append_assoc, List.append_assoc, skipBlanks_lineStart]
        exact fun hhead => absurd (Option.some.inj hhead) (by decide)
      rw [writeValue, readValue, skipBlanks_cons rfl]
      simp only [if_neg hdepth, Option.getD_some, if_neg hopen, hread]
      rfl

/-- Every value whose texts are valid is read back. -/
theorem isReadBack_of_within {size : Nat → Prop} {d : Datum}
    (h : d.Within (fun t => Text.isValidUtf8 t = true) size) : IsReadBack d := by
  induction h with
  | null =>
      intro depth level fuel rest _ _ _
      rfl
  | bool b =>
      intro depth level fuel rest _ _ _
      cases b <;> rfl
  | int n => exact isReadBack_int n
  | @text t ht =>
      intro depth level fuel rest _ _ _
      have hwritten : writeValue depth (.text t) rest
          = 34 :: ((Text.runes t).flatMap writeRune ++ 34 :: rest) := by
        simp [writeValue, writeString]
      rw [hwritten, readValue, skipBlanks_cons rfl]
      simp only [if_true, readString_writeString ht, Option.map_some]
  | list _ _ ih => exact isReadBack_list ih
  | record _ hkey _ ih => exact isReadBack_record hkey ih

/-- What is written is read, if its texts are valid and it is not nested too deep. -/
theorem read_write {size : Nat → Prop} {d : Datum}
    (h : d.Within (fun t => Text.isValidUtf8 t = true) size) (hdepth : d.nesting ≤ maxDepth) :
    read (write d) = some d := by
  have hends : EndsValue [Text.newline] := fun b hb => Or.inr (Option.some.inj hb).symm
  have hread :=
    isReadBack_of_within h 0 0 (2 * (write d).length + 1) [Text.newline] (by omega) hends
    (by rw [write]; omega)
  exact congrArg (Option.map Prod.fst) hread

end Json

end PointerMigration
