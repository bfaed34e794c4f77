/-
# Valid UTF-8

The bytes of a rune and the runes of a text. Reading a sequence and writing a rune are inverse to
each other, so a text without stray bytes is the text of its runes, and runes that may stand in a
text are read back from it. In any text a byte that continues no sequence starts a rune.
-/
import PointerMigration.Text.Rune
import Mathlib.Data.List.Basic
import Mathlib.Tactic.SplitIfs

namespace PointerMigration

namespace Rune

/-! ## Bytes as numbers -/

theorem toNat_byte {n : Nat} (h : n < 256) : (UInt8.ofNat n).toNat = n := by
  rw [UInt8.toNat_ofNat', Nat.mod_eq_of_lt h]

theorem byte_eq {b : UInt8} {n : Nat} (h : n = b.toNat) : UInt8.ofNat n = b := by
  rw [h, UInt8.ofNat_toNat]

theorem isValid_iff {r : Nat} : isValid r = true ↔ r < 0xD800 ∨ 0xDFFF < r ∧ r ≤ 0x10FFFF := by
  simp [isValid]

theorem isContinuation_iff {b : UInt8} :
    isContinuation b = true ↔ 0x80 ≤ b.toNat ∧ b.toNat ≤ 0xBF := by
  simp [isContinuation, UInt8.le_iff_toNat_le]

theorem isContinuation_of_lt {b : UInt8} (hb : b < 0x80) : isContinuation b = false := by
  simp [isContinuation, UInt8.not_le.mpr hb]

/-- The second byte of a longer sequence continues it, and four first bytes bound it further. -/
theorem secondBounds_iff {a b : UInt8} :
    ((secondBounds a).1 ≤ b ∧ b ≤ (secondBounds a).2) ↔
      0x80 ≤ b.toNat ∧ b.toNat ≤ 0xBF ∧
        (a.toNat = 0xE0 → 0xA0 ≤ b.toNat) ∧ (a.toNat = 0xED → b.toNat ≤ 0x9F) ∧
        (a.toNat = 0xF0 → 0x90 ≤ b.toNat) ∧ (a.toNat = 0xF4 → b.toNat ≤ 0x8F) := by
  have hbyte : ∀ n : UInt8, a = n ↔ a.toNat = n.toNat := fun n => UInt8.toNat_inj.symm
  unfold secondBounds
  simp only [hbyte]
  split_ifs <;> simp_all [UInt8.le_iff_toNat_le] <;> omega

/-! ## Sequences -/

/-- The valid sequences with their runes. -/
inductive Encodes : Text → Rune → Prop where
  | one {a : UInt8} (ha : a.toNat < 0x80) : Encodes [a] a.toNat
  | two {a b : UInt8} (ha : 0xC2 ≤ a.toNat ∧ a.toNat ≤ 0xDF) (hb : isContinuation b = true) :
      Encodes [a, b] (a.toNat % 32 * 64 + payload b)
  | three {a b c : UInt8} (ha : 0xE0 ≤ a.toNat ∧ a.toNat ≤ 0xEF)
      (hb : (secondBounds a).1 ≤ b ∧ b ≤ (secondBounds a).2) (hc : isContinuation c = true) :
      Encodes [a, b, c] ((a.toNat % 16 * 64 + payload b) * 64 + payload c)
  | four {a b c d : UInt8} (ha : 0xF0 ≤ a.toNat ∧ a.toNat ≤ 0xF4)
      (hb : (secondBounds a).1 ≤ b ∧ b ≤ (secondBounds a).2) (hc : isContinuation c = true)
      (hd : isContinuation d = true) :
      Encodes [a, b, c, d] (((a.toNat % 8 * 64 + payload b) * 64 + payload c) * 64 + payload d)

theorem Encodes.ne_nil {bytes : Text} {r : Rune} (h : Encodes bytes r) : bytes ≠ [] := by
  cases h <;> simp

/-- A valid sequence is read, whatever follows it. -/
theorem Encodes.sequence?_append {bytes : Text} {r : Rune} (h : Encodes bytes r) (rest : Text) :
    sequence? (bytes ++ rest) = some (r, bytes.length) := by
  have hle : ∀ a b : UInt8, a ≤ b ↔ a.toNat ≤ b.toNat := fun _ _ => UInt8.le_iff_toNat_le
  have hlt : ∀ a b : UInt8, a < b ↔ a.toNat < b.toNat := fun _ _ => UInt8.lt_iff_toNat_lt
  cases h with
  | one ha => simp [sequence?, hlt, ha]
  | @two a b ha hb =>
      have hfirst : ¬ a.toNat < 0x80 := by omega
      simp [sequence?, hlt, hle, hfirst, ha.1, ha.2, hb]
  | @three a b c ha hb hc =>
      have hfirst : ¬ a.toNat < 0x80 := by omega
      have hsecond : ¬ a.toNat ≤ 0xDF := by omega
      simp only [hle] at hb
      simp [sequence?, hlt, hle, hfirst, hsecond, ha.1, ha.2, hb.1, hb.2, hc]
  | @four a b c d ha hb hc hd =>
      have hfirst : ¬ a.toNat < 0x80 := by omega
      have hsecond : ¬ a.toNat ≤ 0xDF := by omega
      have hthird : ¬ a.toNat ≤ 0xEF := by omega
      simp only [hle] at hb
      simp [sequence?, hlt, hle, hfirst, hsecond, hthird, ha.1, ha.2, hb.1, hb.2, hc, hd]

/-- What is read at the front of a text is a valid sequence. -/
theorem exists_encodes_of_sequence? {t : Text} {r : Rune} {width : Nat}
    (h : sequence? t = some (r, width)) :
    ∃ bytes rest, t = bytes ++ rest ∧ Encodes bytes r ∧ width = bytes.length := by
  unfold sequence? at h
  split at h
  · cases h
  · next a rest =>
      split_ifs at h with hone htwo hthree hfour
      · cases h
        exact ⟨[a], rest, rfl, .one (UInt8.lt_iff_toNat_lt.mp hone), rfl⟩
      · have ha : 0xC2 ≤ a.toNat ∧ a.toNat ≤ 0xDF := by simpa [UInt8.le_iff_toNat_le] using htwo
        split at h
        · next b rest =>
            split_ifs at h with hb
            cases h
            exact ⟨[a, b], rest, rfl, .two ha hb, rfl⟩
        · cases h
      · have ha : 0xE0 ≤ a.toNat ∧ a.toNat ≤ 0xEF := by simpa [UInt8.le_iff_toNat_le] using hthree
        split at h
        · next b c rest =>
            split_ifs at h with hb
            cases h
            simp only [Bool.and_eq_true, decide_eq_true_eq] at hb
            exact ⟨[a, b, c], rest, rfl, .three ha hb.1 hb.2, rfl⟩
        · cases h
      · have ha : 0xF0 ≤ a.toNat ∧ a.toNat ≤ 0xF4 := by simpa [UInt8.le_iff_toNat_le] using hfour
        split at h
        · next b c d rest =>
            split_ifs at h with hb
            cases h
            simp only [Bool.and_eq_true, decide_eq_true_eq] at hb
            exact ⟨[a, b, c, d], rest, rfl, .four ha hb.1.1 hb.1.2 hb.2, rfl⟩
        · cases h

/-- The bytes of a rune that may stand in a text. -/
theorem encode_eq {r : Nat} (h : isValid r = true) :
    encode r =
      if r < 0x80 then [UInt8.ofNat r]
      else if r < 0x800 then [UInt8.ofNat (0xC0 + r / 64), UInt8.ofNat (0x80 + r % 64)]
      else if r < 0x10000 then
        [UInt8.ofNat (0xE0 + r / 4096), UInt8.ofNat (0x80 + r / 64 % 64),
          UInt8.ofNat (0x80 + r % 64)]
      else
        [UInt8.ofNat (0xF0 + r / 262144), UInt8.ofNat (0x80 + r / 4096 % 64),
          UInt8.ofNat (0x80 + r / 64 % 64), UInt8.ofNat (0x80 + r % 64)] := by
  unfold encode
  rw [if_pos h]

/-- A valid sequence is the bytes of its rune. -/
theorem Encodes.eq_encode {bytes : Text} {r : Rune} (h : Encodes bytes r) :
    isValid r = true ∧ bytes = encode r := by
  cases h with
  | @one a ha =>
      have hvalid : isValid a.toNat = true := isValid_iff.mpr (by omega)
      refine ⟨hvalid, ?_⟩
      rw [encode_eq hvalid, if_pos ha, UInt8.ofNat_toNat]
  | @two a b ha hb =>
      rw [isContinuation_iff] at hb
      have hb' : payload b = b.toNat - 0x80 := by unfold payload; omega
      have hvalid : isValid (a.toNat % 32 * 64 + payload b) = true := isValid_iff.mpr (by omega)
      refine ⟨hvalid, ?_⟩
      rw [encode_eq hvalid, if_neg (by omega), if_pos (by omega), byte_eq (b := a) (by omega),
        byte_eq (b := b) (by omega)]
  | @three a b c ha hb hc =>
      rw [secondBounds_iff] at hb
      rw [isContinuation_iff] at hc
      have hb' : payload b = b.toNat - 0x80 := by unfold payload; omega
      have hc' : payload c = c.toNat - 0x80 := by unfold payload; omega
      have hvalid : isValid ((a.toNat % 16 * 64 + payload b) * 64 + payload c) = true :=
        isValid_iff.mpr (by omega)
      refine ⟨hvalid, ?_⟩
      rw [encode_eq hvalid, if_neg (by omega), if_neg (by omega), if_pos (by omega),
        byte_eq (b := a) (by omega), byte_eq (b := b) (by omega), byte_eq (b := c) (by omega)]
  | @four a b c d ha hb hc hd =>
      rw [secondBounds_iff] at hb
      rw [isContinuation_iff] at hc hd
      have hb' : payload b = b.toNat - 0x80 := by unfold payload; omega
      have hc' : payload c = c.toNat - 0x80 := by unfold payload; omega
      have hd' : payload d = d.toNat - 0x80 := by unfold payload; omega
      have hvalid :
          isValid (((a.toNat % 8 * 64 + payload b) * 64 + payload c) * 64 + payload d) = true :=
        isValid_iff.mpr (by omega)
      refine ⟨hvalid, ?_⟩
      rw [encode_eq hvalid, if_neg (by omega), if_neg (by omega), if_neg (by omega),
        byte_eq (b := a) (by omega), byte_eq (b := b) (by omega), byte_eq (b := c) (by omega),
        byte_eq (b := d) (by omega)]

theorem isContinuation_byte {n : Nat} (h : n < 64) :
    isContinuation (UInt8.ofNat (0x80 + n)) = true := by
  rw [isContinuation_iff, toNat_byte (by omega)]
  omega

theorem payload_byte {n : Nat} (h : n < 64) : payload (UInt8.ofNat (0x80 + n)) = n := by
  rw [payload, toNat_byte (by omega)]
  omega

/-- The bytes of a rune that may stand in a text are a valid sequence. -/
theorem encodes_encode {r : Nat} (h : isValid r = true) : Encodes (encode r) r := by
  have hrange := isValid_iff.mp h
  rw [encode_eq h]
  split_ifs with hone htwo hthree
  · have hbyte : (UInt8.ofNat r).toNat = r := toNat_byte (by omega)
    have hseq := Encodes.one (a := UInt8.ofNat r) (by omega)
    rwa [hbyte] at hseq
  · have ha : (UInt8.ofNat (0xC0 + r / 64)).toNat = 0xC0 + r / 64 := toNat_byte (by omega)
    have hseq := Encodes.two (a := UInt8.ofNat (0xC0 + r / 64)) (by omega)
      (isContinuation_byte (Nat.mod_lt r (by decide : 0 < 64)))
    rw [ha, payload_byte (Nat.mod_lt r (by decide))] at hseq
    have hrune : (0xC0 + r / 64) % 32 * 64 + r % 64 = r := by omega
    rwa [hrune] at hseq
  · have ha : (UInt8.ofNat (0xE0 + r / 4096)).toNat = 0xE0 + r / 4096 := toNat_byte (by omega)
    have hb : (UInt8.ofNat (0x80 + r / 64 % 64)).toNat = 0x80 + r / 64 % 64 := toNat_byte (by omega)
    have hbounds := secondBounds_iff (a := UInt8.ofNat (0xE0 + r / 4096))
      (b := UInt8.ofNat (0x80 + r / 64 % 64))
    rw [ha, hb] at hbounds
    have hseq := Encodes.three (a := UInt8.ofNat (0xE0 + r / 4096)) (by omega)
      (hbounds.mpr (by omega)) (isContinuation_byte (Nat.mod_lt r (by decide : 0 < 64)))
    rw [ha, payload_byte (Nat.mod_lt _ (by decide)),
      payload_byte (Nat.mod_lt _ (by decide))] at hseq
    have hrune : ((0xE0 + r / 4096) % 16 * 64 + r / 64 % 64) * 64 + r % 64 = r := by omega
    rwa [hrune] at hseq
  · have ha : (UInt8.ofNat (0xF0 + r / 262144)).toNat = 0xF0 + r / 262144 := toNat_byte (by omega)
    have hb : (UInt8.ofNat (0x80 + r / 4096 % 64)).toNat = 0x80 + r / 4096 % 64 :=
      toNat_byte (by omega)
    have hbounds := secondBounds_iff (a := UInt8.ofNat (0xF0 + r / 262144))
      (b := UInt8.ofNat (0x80 + r / 4096 % 64))
    rw [ha, hb] at hbounds
    have hseq := Encodes.four (a := UInt8.ofNat (0xF0 + r / 262144)) (by omega)
      (hbounds.mpr (by omega)) (isContinuation_byte (Nat.mod_lt (r / 64) (by decide : 0 < 64)))
      (isContinuation_byte (Nat.mod_lt r (by decide : 0 < 64)))
    rw [ha, payload_byte (Nat.mod_lt _ (by decide)), payload_byte (Nat.mod_lt _ (by decide)),
      payload_byte (Nat.mod_lt _ (by decide))] at hseq
    have hrune : (((0xF0 + r / 262144) % 8 * 64 + r / 4096 % 64) * 64 + r / 64 % 64) * 64 + r
        % 64 = r := by
      omega
    rwa [hrune] at hseq

/-- A valid sequence is a byte that starts it and at most three that continue it. -/
theorem Encodes.exists_cons {bytes : Text} {r : Rune} (h : Encodes bytes r) :
    ∃ a more, bytes = a :: more ∧ isContinuation a = false ∧ (∀ b ∈ more, isContinuation b = true) ∧
      more.length ≤ 3 := by
  have hstart : ∀ {a : UInt8}, a.toNat < 0x80 ∨ 0xBF < a.toNat → isContinuation a = false := by
    intro a ha
    rw [← Bool.not_eq_true, isContinuation_iff]
    omega
  have hsecond : ∀ {a b : UInt8}, (secondBounds a).1 ≤ b ∧ b ≤ (secondBounds a).2 →
      isContinuation b = true := by
    intro a b hb
    rw [secondBounds_iff] at hb
    exact isContinuation_iff.mpr ⟨hb.1, hb.2.1⟩
  cases h with
  | @one a ha => exact ⟨a, [], rfl, hstart (by omega), by simp, by simp⟩
  | @two a b ha hb => exact ⟨a, [b], rfl, hstart (by omega), by simpa using hb, by simp⟩
  | @three a b c ha hb hc =>
      exact ⟨a, [b, c], rfl, hstart (by omega), by simp [hsecond hb, hc], by simp⟩
  | @four a b c d ha hb hc hd =>
      exact ⟨a, [b, c, d], rfl, hstart (by omega), by simp [hsecond hb, hc, hd], by simp⟩

/-- What is read at the front of a text is read whatever follows. -/
theorem sequence?_append_of_eq_some {t : Text} {read : Rune × Nat} (h : sequence? t = some read)
    (rest : Text) :
    sequence? (t ++ rest) = some read := by
  obtain ⟨r, width⟩ := read
  obtain ⟨bytes, more, rfl, hbytes, rfl⟩ := exists_encodes_of_sequence? h
  rw [List.append_assoc, hbytes.sequence?_append]

/-- A byte that continues no sequence does not complete one. -/
theorem sequence?_append_start {t : Text} {c : UInt8} (ht : t ≠ []) (hc : isContinuation c = false)
    (rest : Text) :
    sequence? (t ++ c :: rest) = sequence? t := by
  cases hread : sequence? t with
  | some read => exact sequence?_append_of_eq_some hread _
  | none =>
      cases hlonger : sequence? (t ++ c :: rest) with
      | none => rfl
      | some read =>
          obtain ⟨r, width⟩ := read
          obtain ⟨bytes, later, hbytes, hencodes, -⟩ := exists_encodes_of_sequence? hlonger
          rcases List.append_eq_append_iff.mp hbytes with ⟨more, rfl, hmore⟩ | ⟨more, rfl, -⟩
          · cases more with
            | nil =>
                rw [List.append_nil] at hencodes
                have hsome := hencodes.sequence?_append []
                rw [List.append_nil, hread] at hsome
                cases hsome
            | cons d more =>
                -- The byte would be one of the sequence, but not its first.
                obtain ⟨rfl, -⟩ := List.cons.inj hmore
                obtain ⟨a, t, rfl⟩ := List.exists_cons_of_ne_nil ht
                obtain ⟨a', tail, heq, -, htail, -⟩ := hencodes.exists_cons
                obtain ⟨rfl, rfl⟩ := List.cons.inj heq
                have hcontinues := htail c (List.mem_append_right t List.mem_cons_self)
                rw [hc] at hcontinues
                cases hcontinues
          · have hsome := hencodes.sequence?_append more
            rw [hread] at hsome
            cases hsome

/-- A sequence has at least one byte and ends in the text. -/
theorem sequence?_width {t : Text} {r : Rune} {width : Nat} (h : sequence? t = some (r, width)) :
    0 < width ∧ width ≤ t.length := by
  obtain ⟨bytes, rest, rfl, hbytes, rfl⟩ := exists_encodes_of_sequence? h
  exact ⟨List.length_pos_iff.mpr hbytes.ne_nil, by simp⟩

end Rune

/-! ## Runes of a text -/

namespace Text

/-- The runes read so far come first, and what the last one covers is passed over. -/
theorem piecesFrom_eq (skip : Nat) (t : Text) (acc : List Piece) :
    piecesFrom skip t acc = acc.reverse ++ pieces (t.drop skip) := by
  induction t generalizing skip acc with
  | nil => simp [piecesFrom, pieces]
  | cons b t ih =>
      cases skip with
      | succ skip =>
          rw [piecesFrom, ih]
          rfl
      | zero =>
          simp only [pieces, piecesFrom, List.drop_zero]
          rw [ih, ih]
          simp

/-- The runes of a text are the first one and those of what follows its bytes. -/
theorem pieces_cons (b : UInt8) (t : Text) :
    pieces (b :: t) =
      ⟨((Rune.sequence? (b :: t)).getD (Rune.replacement, 1)).1,
        (b :: t).take ((Rune.sequence? (b :: t)).getD (Rune.replacement, 1)).2⟩ ::
        pieces (t.drop (((Rune.sequence? (b :: t)).getD (Rune.replacement, 1)).2 - 1)) := by
  rw [pieces, piecesFrom]
  exact piecesFrom_eq _ t _

/-- A valid sequence is read as one rune. -/
theorem pieces_append {bytes : Text} {r : Rune} (h : Rune.Encodes bytes r) (rest : Text) :
    pieces (bytes ++ rest) = ⟨r, bytes⟩ :: pieces rest := by
  have hread := h.sequence?_append rest
  obtain ⟨b, more, rfl⟩ := List.exists_cons_of_ne_nil h.ne_nil
  rw [List.cons_append] at hread ⊢
  rw [pieces_cons, hread]
  simp only [Option.getD_some, List.length_cons, Nat.add_sub_cancel, List.drop_left]
  rw [← List.cons_append, ← List.length_cons, List.take_left]

/-- A byte at which no sequence is read is a rune on its own. -/
theorem pieces_stray {b : UInt8} {rest : Text} (h : Rune.sequence? (b :: rest) = none) :
    pieces (b :: rest) = ⟨Rune.replacement, [b]⟩ :: pieces rest := by
  rw [pieces_cons, h]
  rfl

/-- A text is read from its front, a valid sequence or a stray byte at a time. -/
theorem pieces_induction {motive : Text → Prop} (nil : motive [])
    (sequence : ∀ (bytes : Text) (r : Rune) (rest : Text), Rune.Encodes bytes r → motive rest →
    motive (bytes ++ rest))
    (stray : ∀ (b : UInt8) (rest : Text), Rune.sequence? (b :: rest) = none → motive rest →
    motive (b :: rest))
    (t : Text) : motive t := by
  -- The induction is on the length, as a rune takes up to four bytes.
  induction hlength : t.length using Nat.strongRecOn generalizing t with
  | ind n ih =>
    cases t with
    | nil => exact nil
    | cons b t =>
        cases hread : Rune.sequence? (b :: t) with
        | none =>
            exact stray b t hread (ih t.length (by rw [← hlength, List.length_cons]; omega) t rfl)
        | some read =>
            obtain ⟨r, width⟩ := read
            obtain ⟨bytes, rest, hbytes, hencodes, -⟩ := Rune.exists_encodes_of_sequence? hread
            have hpos := List.length_pos_iff.mpr hencodes.ne_nil
            rw [hbytes, List.length_append] at hlength
            rw [hbytes]
            exact sequence bytes r rest hencodes (ih rest.length (by omega) rest rfl)

/-- The runes of a text have all of its bytes. -/
theorem flatMap_bytes_pieces (t : Text) : (pieces t).flatMap Piece.bytes = t := by
  induction t using pieces_induction with
  | nil => rfl
  | sequence bytes r rest h ih => rw [pieces_append h, List.flatMap_cons, ih]
  | stray b rest h ih => rw [pieces_stray h, List.flatMap_cons, ih, List.singleton_append]

/-- A byte that continues no sequence divides the runes of a text. -/
theorem pieces_append_start {c : UInt8} (hc : Rune.isContinuation c = false) (t rest : Text) :
    pieces (t ++ c :: rest) = pieces t ++ pieces (c :: rest) := by
  induction t using pieces_induction with
  | nil => rfl
  | sequence bytes r more h ih =>
      rw [List.append_assoc, pieces_append h, pieces_append h, ih, List.cons_append]
  | stray b more h ih =>
      have hlonger : Rune.sequence? (b :: (more ++ c :: rest)) = none :=
        (Rune.sequence?_append_start (List.cons_ne_nil b more) hc rest).trans h
      rw [List.cons_append, pieces_stray hlonger, pieces_stray h, ih, List.cons_append]

/-- A valid sequence at the end of a text is the last rune. -/
theorem pieces_concat {bytes : Text} {r : Rune} (h : Rune.Encodes bytes r) (t : Text) :
    pieces (t ++ bytes) = pieces t ++ [⟨r, bytes⟩] := by
  have hlast := pieces_append h []
  obtain ⟨a, more, rfl, ha, -⟩ := h.exists_cons
  rw [List.append_nil] at hlast
  rw [pieces_append_start ha, hlast]
  rfl

/-- A rune that may stand in a text is read back from its bytes. -/
theorem runes_encode_append {r : Rune} (h : Rune.isValid r = true) (rest : Text) :
    runes (Rune.encode r ++ rest) = r :: runes rest := by
  unfold runes
  rw [pieces_append (Rune.encodes_encode h)]
  rfl

/-- Runes that may stand in a text are read back from it. -/
theorem runes_ofRunes {rs : List Rune} (h : ∀ r ∈ rs, Rune.isValid r = true) :
    runes (ofRunes rs) = rs := by
  induction rs with
  | nil => rfl
  | cons r rs ih =>
      have hcons : ofRunes (r :: rs) = Rune.encode r ++ ofRunes rs := rfl
      rw [hcons, runes_encode_append (h r (by simp)),
        ih fun s hs => h s (List.mem_cons_of_mem r hs)]

/-- A text without stray bytes is the text of some runes. -/
theorem exists_runes_of_isValidUtf8 {t : Text} (h : isValidUtf8 t = true) :
    ∃ rs, (∀ r ∈ rs, Rune.isValid r = true) ∧ t = ofRunes rs := by
  induction t using pieces_induction with
  | nil => exact ⟨[], by simp, rfl⟩
  | sequence bytes r rest hencodes ih =>
      rw [isValidUtf8, pieces_append hencodes, List.all_cons, Bool.and_eq_true] at h
      obtain ⟨rs, hrs, rfl⟩ := ih h.2
      obtain ⟨hvalid, rfl⟩ := hencodes.eq_encode
      exact ⟨r :: rs, by simpa [hvalid] using hrs, rfl⟩
  | stray b rest hread =>
      rw [isValidUtf8, pieces_stray hread] at h
      simp [Piece.isValid] at h

end Text

end PointerMigration
