/-
# Data read back from MessagePack

A value that was written is read back, whatever follows it, if the lengths of its texts,
lists and records fit into four bytes. The first byte of a value says how it goes on, so each
head is read on its own.
-/
import PointerMigration.Datum.MessagePack
import PointerMigration.Proofs.Data

namespace PointerMigration.MessagePack

/-! ## Numbers -/

theorem length_bytes (width n : Nat) : (bytes width n).length = width := by
  induction width generalizing n with
  | zero => rfl
  | succ width ih => rw [bytes, List.length_append, ih, List.length_singleton]

/-- The last byte of a number is its lowest. -/
theorem bigEndian_concat (t : Text) (b : UInt8) :
    bigEndian (t ++ [b]) = bigEndian t * 256 + b.toNat := by
  rw [bigEndian, List.foldl_append]
  rfl

/-- A number that is written in some bytes is read without what does not fit into them. -/
theorem bigEndian_bytes (width n : Nat) : bigEndian (bytes width n) = n % span width := by
  induction width generalizing n with
  | zero => exact (Nat.mod_one n).symm
  | succ width ih =>
      have hspan : span (width + 1) = 256 * span width := Nat.mul_comm _ _
      have hbyte : (UInt8.ofNat (n % 256)).toNat = n % 256 := by
        rw [UInt8.toNat_ofNat', Nat.mod_mod]
      rw [bytes, bigEndian_concat, ih, hbyte, hspan, Nat.mod_mul]
      omega

/-- As many bytes as a text has are taken from the front of what begins with it. -/
theorem take?_append (t rest : Text) : take? t.length (t ++ rest) = some (t, rest) := by
  simp [take?]

/-- A number is read modulo what its bytes can hold. -/
theorem number?_bytes_mod (width n : Nat) (rest : Text) :
    number? width (bytes width n ++ rest) = some (n % span width, rest) := by
  have htake := take?_append (bytes width n) rest
  rw [length_bytes] at htake
  rw [number?, htake, Option.map_some]
  simp only [bigEndian_bytes]

/-- A number that fits into its bytes is read. -/
theorem number?_bytes {width n : Nat} (h : n < span width) (rest : Text) :
    number? width (bytes width n ++ rest) = some (n, rest) := by
  rw [number?_bytes_mod, Nat.mod_eq_of_lt h]

/-! ## Words -/

theorem head?_small {n : Nat} (h : n < 0x80) :
    head? (UInt8.ofNat n) = some (.small (Int64.ofNat n)) := by
  simp only [head?, UInt8.toNat_ofNat_of_lt' (show n < 256 by omega), if_pos h]

theorem head?_negative {n : Nat} (hlow : 0xE0 ≤ n) (hhigh : n < 256) :
    head? (UInt8.ofNat n) = some (.small (Int64.ofInt ((n : Int) - 256))) := by
  simp only [head?, UInt8.toNat_ofNat_of_lt' hhigh, if_neg (show ¬ n < 0x80 by omega),
    if_neg (show ¬ n < 0x90 by omega), if_neg (show ¬ n < 0xA0 by omega),
    if_neg (show ¬ n < 0xC0 by omega), if_pos hlow]

/-- A number without a sign is read from its head and its bytes. -/
theorem readValue_unsigned {b : UInt8} {width n : Nat} (hb : head? b = some (.unsigned width))
    (hn : n < span width) (fuel : Nat) (rest : Text) :
    readValue (fuel + 1) (b :: bytes width n ++ rest) = some (.int (Int64.ofNat n), rest) := by
  rw [List.cons_append, readValue, hb]
  simp only [number?_bytes hn, Option.map_some]

/-- A negative word of some bytes is read with the sign that it was written with. -/
theorem readValue_signed {b : UInt8} {width : Nat} {i : Int} (hb : head? b = some (.signed width))
    (hlow : -(span width : Int) ≤ 2 * i) (hneg : i < 0) (fuel : Nat) (rest : Text) :
    readValue (fuel + 1) (b :: bytes width (i + span width).toNat ++ rest)
      = some (.int (Int64.ofInt i), rest) := by
  have hn : (i + span width).toNat < span width := by omega
  have hsign : ¬ 2 * (i + span width).toNat < span width := by omega
  have hvalue : ((i + span width).toNat : Int) - span width = i := by omega
  rw [List.cons_append, readValue, hb]
  simp only [number?_bytes hn, Option.map_some, signed, if_neg hsign, hvalue]

/-- A word is read back, whichever of the forms for numbers it is written in. -/
theorem readValue_writeInt (w : Int64) (fuel : Nat) (rest : Text) :
    readValue (fuel + 1) (writeInt w ++ rest) = some (.int w, rest) := by
  have hlow := w.le_toInt
  have hhigh := w.toInt_lt
  have hspan : span 1 = 0x100 ∧ span 2 = 0x10000 ∧ span 4 = 0x100000000 ∧
      span 8 = 0x10000000000000000 :=
    ⟨rfl, rfl, rfl, rfl⟩
  -- A word is read by its width: the code byte says how many bytes follow, and whether
  -- the first bit is a sign.
  unfold writeInt
  simp only
  by_cases hsign : 0 ≤ w.toInt
  · have hword : Int64.ofNat w.toInt.toNat = w := by
      rw [← Int64.ofInt_eq_ofNat, Int.toNat_of_nonneg hsign, Int64.ofInt_toInt]
    rw [if_pos hsign]
    split
    · next hn =>
        rw [List.singleton_append, readValue, head?_small hn]
        simp only [hword]
    · split
      · rw [readValue_unsigned rfl (by omega), hword]
      · split
        · rw [readValue_unsigned rfl (by omega), hword]
        · split
          · rw [readValue_unsigned rfl (by omega), hword]
          · rw [readValue_unsigned rfl (by omega), hword]
  · rw [if_neg hsign]
    split
    · next hn =>
        have hvalue : ((w.toInt + 256).toNat : Int) - 256 = w.toInt := by omega
        rw [List.singleton_append, readValue, head?_negative (by omega) (by omega)]
        simp only [hvalue, Int64.ofInt_toInt]
    · split
      · rw [readValue_signed rfl (by omega) (by omega), Int64.ofInt_toInt]
      · split
        · rw [readValue_signed rfl (by omega) (by omega), Int64.ofInt_toInt]
        · split
          · rw [readValue_signed rfl (by omega) (by omega), Int64.ofInt_toInt]
          · rw [readValue_signed rfl (by omega) (by omega), Int64.ofInt_toInt]

/-! ## Texts -/

theorem head?_text {n : Nat} (h : n < 32) : head? (UInt8.ofNat (0xA0 + n)) = some (.text n) := by
  simp only [head?, UInt8.toNat_ofNat_of_lt' (show 0xA0 + n < 256 by omega),
    if_neg (show ¬ 0xA0 + n < 0x80 by omega), if_neg (show ¬ 0xA0 + n < 0x90 by omega),
    if_neg (show ¬ 0xA0 + n < 0xA0 by omega), if_pos (show 0xA0 + n < 0xC0 by omega),
    Nat.add_sub_cancel_left]

/-- A text behind a length of its own is read if the length fits. -/
theorem readValue_longText {b : UInt8} {width : Nat} {t : Text}
    (hb : head? b = some (.longText width)) (ht : t.length < span width) (fuel : Nat)
    (rest : Text) :
    readValue (fuel + 1) (b :: bytes width t.length ++ t ++ rest) = some (.text t, rest) := by
  rw [List.append_assoc, List.cons_append, readValue, hb]
  simp [number?_bytes ht, take?_append]

/-- A text is read back, whichever of the forms for texts it is written in. -/
theorem readValue_writeText {t : Text} (h : t.length < span 4) (fuel : Nat) (rest : Text) :
    readValue (fuel + 1) (writeText t ++ rest) = some (.text t, rest) := by
  unfold writeText
  simp only
  split
  · next hn =>
      rw [List.cons_append, readValue, head?_text hn]
      simp only [take?_append, Option.map_some]
  · split
    · next hn => exact readValue_longText rfl hn fuel rest
    · split
      · next hn => exact readValue_longText rfl hn fuel rest
      · exact readValue_longText rfl h fuel rest

/-! ## Lists and records -/

theorem head?_list {n : Nat} (h : n < 16) : head? (UInt8.ofNat (0x90 + n)) = some (.list n) := by
  simp only [head?, UInt8.toNat_ofNat_of_lt' (show 0x90 + n < 256 by omega),
    if_neg (show ¬ 0x90 + n < 0x80 by omega), if_neg (show ¬ 0x90 + n < 0x90 by omega),
    if_pos (show 0x90 + n < 0xA0 by omega), Nat.add_sub_cancel_left]

theorem head?_record {n : Nat} (h : n < 16) :
    head? (UInt8.ofNat (0x80 + n)) = some (.record n) := by
  simp only [head?, UInt8.toNat_ofNat_of_lt' (show 0x80 + n < 256 by omega),
    if_neg (show ¬ 0x80 + n < 0x80 by omega), if_pos (show 0x80 + n < 0x90 by omega),
    Nat.add_sub_cancel_left]

/-- After the head of a list its values are read. -/
theorem readValue_writeListHead {n fuel : Nat} {t rest : Text} {items : List Datum}
    (hn : n < span 4) (h : readItems fuel n t = some (items, rest)) :
    readValue (fuel + 1) (writeListHead n ++ t) = some (.list items, rest) := by
  unfold writeListHead
  split
  · next hn =>
      rw [List.singleton_append, readValue, head?_list hn]
      simp only [h, Option.map_some]
  · split
    · next hn =>
        rw [List.cons_append, readValue, show head? 0xDC = some (.longList 2) from rfl]
        simp [number?_bytes (show n < span 2 from hn), h]
    · rw [List.cons_append, readValue, show head? 0xDD = some (.longList 4) from rfl]
      simp [number?_bytes hn, h]

/-- After the head of a record its entries are read. -/
theorem readValue_writeRecordHead {n fuel : Nat} {t rest : Text}
    {entries : List (Option Text × Datum)} (hn : n < span 4)
    (h : readEntries fuel n t = some (entries, rest)) :
    readValue (fuel + 1) (writeRecordHead n ++ t) = some (.record entries, rest) := by
  unfold writeRecordHead
  split
  · next hn =>
      rw [List.singleton_append, readValue, head?_record hn]
      simp only [h, Option.map_some]
  · split
    · next hn =>
        rw [List.cons_append, readValue, show head? 0xDE = some (.longRecord 2) from rfl]
        simp [number?_bytes (show n < span 2 from hn), h]
    · rw [List.cons_append, readValue, show head? 0xDF = some (.longRecord 4) from rfl]
      simp [number?_bytes hn, h]

/-! ## Lengths -/

/-- Every head has a byte. -/
theorem length_writeInt_pos (w : Int64) : 0 < (writeInt w).length := by
  unfold writeInt
  simp only
  repeat' split
  all_goals simp

theorem length_writeText_pos (t : Text) : 0 < (writeText t).length := by
  unfold writeText
  simp only
  repeat' split
  all_goals simp

theorem length_writeListHead_pos (n : Nat) : 0 < (writeListHead n).length := by
  unfold writeListHead
  repeat' split
  all_goals simp

theorem length_writeRecordHead_pos (n : Nat) : 0 < (writeRecordHead n).length := by
  unfold writeRecordHead
  repeat' split
  all_goals simp

theorem length_le_writeItems {items : List Datum}
    (h : ∀ d ∈ items, ∀ rest : Text, rest.length < (writeValue d rest).length) (rest : Text) :
    rest.length ≤ (writeItems items rest).length := by
  induction items with
  | nil => exact Nat.le_refl _
  | cons d items ih =>
      have hd := h d (by simp) (writeItems items rest)
      have hrest := ih fun x hx => h x (List.mem_cons_of_mem d hx)
      rw [writeItems]
      omega

theorem length_le_writeEntries {entries : List (Option Text × Datum)}
    (h : ∀ e ∈ entries, ∀ rest : Text, rest.length < (writeValue e.2 rest).length) (rest : Text) :
    rest.length ≤ (writeEntries entries rest).length := by
  induction entries with
  | nil => exact Nat.le_refl _
  | cons e entries ih =>
      have he := h e (by simp) (writeEntries entries rest)
      have hrest := ih fun x hx => h x (List.mem_cons_of_mem e hx)
      rw [writeEntries, List.length_append]
      omega

/-- A value takes at least one byte. -/
theorem length_lt_writeValue (d : Datum) : ∀ rest :
    Text, rest.length < (writeValue d rest).length := by
  induction d using Datum.induction with
  | hnull => simp [writeValue]
  | hforeign => simp [writeValue]
  | hbool b => cases b <;> simp [writeValue]
  | hint n => simp [writeValue, length_writeInt_pos]
  | htext t => simp [writeValue, length_writeText_pos]
  | hlist items ih =>
      intro rest
      have hhead := length_writeListHead_pos items.length
      have hrest := length_le_writeItems ih rest
      rw [writeValue, List.length_append]
      omega
  | hrecord entries ih =>
      intro rest
      have hhead := length_writeRecordHead_pos entries.length
      have hrest := length_le_writeEntries ih rest
      rw [writeValue, List.length_append]
      omega

/-! ## Values -/

/-- A value is read back from its written form, whatever comes after it. -/
def IsReadBack (d : Datum) : Prop :=
  ∀ (fuel : Nat) (rest : Text), 2 * (writeValue d rest).length ≤ fuel →
    readValue (fuel + 1) (writeValue d rest) = some (d, rest)

/-- The items of a list are read back if each of them is. -/
theorem readItems_writeItems {items : List Datum} (h : ∀ d ∈ items, IsReadBack d) {fuel : Nat}
    {rest : Text} (hfuel : 2 * (writeItems items rest).length + 2 ≤ fuel) :
    readItems fuel items.length (writeItems items rest) = some (items, rest) := by
  induction items generalizing fuel with
  | nil =>
      obtain ⟨fuel, rfl⟩ : ∃ n, fuel = n + 1 := ⟨fuel - 1, by omega⟩
      rfl
  | cons d items ih =>
      obtain ⟨fuel, rfl⟩ : ∃ n, fuel = n + 2 := ⟨fuel - 2, by omega⟩
      rw [writeItems] at hfuel ⊢
      have hlength := length_lt_writeValue d (writeItems items rest)
      have hd := h d (by simp) fuel (writeItems items rest) (by omega)
      have hitems : readItems (fuel + 1) items.length (writeItems items rest)
          = some (items, rest) :=
        ih (fun x hx => h x (List.mem_cons_of_mem d hx)) (by omega)
      rw [List.length_cons, readItems]
      simp [hd, hitems]

/-- The entries of a record are read back if their values are and their keys fit. -/
theorem readEntries_writeEntries {entries : List (Option Text × Datum)}
    (hkeys : ∀ e ∈ entries, ∃ key, e.1 = some key ∧ key.length < span 4)
    (h : ∀ e ∈ entries, IsReadBack e.2) {fuel : Nat} {rest : Text}
    (hfuel : 2 * (writeEntries entries rest).length + 2 ≤ fuel) :
    readEntries fuel entries.length (writeEntries entries rest) = some (entries, rest) := by
  induction entries generalizing fuel with
  | nil =>
      obtain ⟨fuel, rfl⟩ : ∃ n, fuel = n + 1 := ⟨fuel - 1, by omega⟩
      rfl
  | cons e entries ih =>
      obtain ⟨fuel, rfl⟩ : ∃ n, fuel = n + 2 := ⟨fuel - 2, by omega⟩
      obtain ⟨key, d⟩ := e
      obtain ⟨key', hkey', hshort⟩ := hkeys _ List.mem_cons_self
      obtain rfl : key = some key' := hkey'
      rw [writeEntries, List.length_append] at hfuel
      have hlength := length_lt_writeValue d (writeEntries entries rest)
      -- The key takes a byte of its own, which pays for the fuel of the entry.
      have hpos := length_writeText_pos ((some key').getD [])
      have hkey := readValue_writeText hshort fuel (writeValue d (writeEntries entries rest))
      have hback : IsReadBack d := h _ List.mem_cons_self
      have hd := hback fuel (writeEntries entries rest) (by omega)
      have hentries : readEntries (fuel + 1) entries.length (writeEntries entries rest)
          = some (entries, rest) :=
        ih (fun x hx => hkeys x (List.mem_cons_of_mem _ hx))
          (fun x hx => h x (List.mem_cons_of_mem _ hx)) (by omega)
      rw [writeEntries, List.length_cons, readEntries]
      simp [hkey, hd, hentries, key?]

/-- Every value whose lengths fit into four bytes is read back. -/
theorem isReadBack_of_within {d : Datum}
    (h : d.Within (fun t => t.length < span 4) (fun n => n < span 4)) :
    IsReadBack d := by
  induction h with
  | null =>
      intro fuel rest hfuel
      rfl
  | bool b =>
      intro fuel rest hfuel
      cases b <;> rfl
  | int n =>
      intro fuel rest hfuel
      rw [writeValue, readValue_writeInt]
  | text ht =>
      intro fuel rest hfuel
      rw [writeValue, readValue_writeText ht]
  | @list items hsize _ ih =>
      intro fuel rest hfuel
      have hhead := length_writeListHead_pos items.length
      rw [writeValue, List.length_append] at hfuel
      rw [writeValue]
      exact readValue_writeListHead hsize (readItems_writeItems ih (by omega))
  | @record entries hsize hkey _ ih =>
      intro fuel rest hfuel
      have hhead := length_writeRecordHead_pos entries.length
      rw [writeValue, List.length_append] at hfuel
      rw [writeValue]
      exact readValue_writeRecordHead hsize (readEntries_writeEntries hkey ih (by omega))

/-- What is written is read, if its lengths fit into four bytes. -/
theorem read_write {d : Datum} (h : d.Within (fun t => t.length < span 4) (fun n => n < span 4)) :
    read (write d) = some d := by
  have hread := isReadBack_of_within h (2 * (write d).length + 1) [] (by rw [write]; omega)
  exact congrArg (Option.map Prod.fst) hread

/-- The bound is sharp: of a longer text the reader takes as many bytes as the written length
says. -/
theorem read_write_text_of_le {t : Text} (h : span 4 ≤ t.length) :
    read (write (.text t)) = some (.text (t.take (t.length % span 4))) := by
  have hspan : span 4 = 0x100000000 := rfl
  have hcut : take? (t.length % span 4) t
      = some (t.take (t.length % span 4), t.drop (t.length % span 4)) := by
    have hle : t.length % span 4 ≤ t.length := Nat.mod_le _ _
    rw [take?]
    simp only [List.length_take, Nat.min_eq_left hle, if_true]
  have hwritten : write (.text t) = 0xDB :: (bytes 4 t.length ++ t) := by
    rw [write, writeValue, List.append_nil, writeText]
    simp only [if_neg (show ¬ t.length < 32 by omega), if_neg (show ¬ t.length < 0x100 by omega),
      if_neg (show ¬ t.length < 0x10000 by omega), List.cons_append]
  rw [read, hwritten, readValue, show head? 0xDB = some (.longText 4) from rfl]
  simp [number?_bytes_mod, hcut]

end PointerMigration.MessagePack
