/-
# Runes forward and backward

Forward, the runes of a text are found one after another from its start; backward, the last one is
found from the last few bytes alone. Both find the same runes in any bytes, valid or not. A valid
sequence is a rune wherever it stands in a text, since its first byte starts one, and a text that is
cut between two runes keeps the runes on both sides of the cut. So going forward by some runes and
back by as many leads to where one came from.
-/
import PointerMigration.Proofs.AddressTokens

namespace PointerMigration

/-! ## The last rune -/

namespace Rune

/-- Of a few bytes the first one that continues no sequence is found behind those that continue
one. -/
theorem findIdx?_take_start {more : Text} {a : UInt8} (hmore : ∀ b ∈ more, isContinuation b = true)
    (hlength : more.length ≤ 2) (ha : isContinuation a = false) (rest : Text) :
    ((more ++ a :: rest).take 3).findIdx? (fun b => !isContinuation b) = some more.length := by
  have hnone : more.findIdx? (fun b => !isContinuation b) = none := by
    rw [List.findIdx?_eq_none_iff]
    intro b hb
    rw [hmore b hb]
    rfl
  have hleft : 3 - more.length = (2 - more.length) + 1 := by omega
  rw [List.take_append, List.take_of_length_le (by omega), hleft, List.take_succ_cons,
    List.findIdx?_append, hnone]
  simp [List.findIdx?_cons, ha]

/-- A valid sequence at the end of a text is found from behind. -/
theorem Encodes.lastWidth_append {bytes : Text} {r : Rune} (h : Encodes bytes r) (t : Text) :
    lastWidth (t ++ bytes).reverse = bytes.length := by
  have hread := h.sequence?_append []
  rw [List.append_nil] at hread
  obtain ⟨a, more, rfl, ha, hmore, hlength⟩ := h.exists_cons
  rcases List.eq_nil_or_concat' more with rfl | ⟨middle, z, rfl⟩
  · -- One byte is a sequence only if it is an ASCII byte.
    cases h with
    | one ha => simp [lastWidth, UInt8.lt_iff_toNat_lt, ha]
  · have hz : ¬ z < 0x80 := by
      intro hlt
      have hcontinues := hmore z (by simp)
      rw [isContinuation_of_lt hlt] at hcontinues
      cases hcontinues
    rw [List.length_append, List.length_singleton] at hlength
    have hreverse : (t ++ a :: (middle ++ [z])).reverse
        = z :: (middle.reverse ++ a :: t.reverse) := by simp
    have hmiddle : ∀ b ∈ middle.reverse, isContinuation b = true :=
      fun b hb => hmore b (List.mem_append_left _ (List.mem_reverse.mp hb))
    have hfind := findIdx?_take_start hmiddle (by rw [List.length_reverse]; omega) ha t.reverse
    rw [List.length_reverse] at hfind
    have hsequence : (z :: (middle.reverse ++ a :: t.reverse).take (middle.length + 1)).reverse
        = a :: (middle ++ [z]) := by
      rw [List.take_append, List.length_reverse, List.take_of_length_le (by simp),
        Nat.add_sub_cancel_left]
      simp
    rw [hreverse, lastWidth, if_neg hz, hfind]
    simp only [hsequence, hread]
    simp

/-- What is found from behind is one byte or a valid sequence. -/
theorem lastWidth_cases {t : Text} (ht : t ≠ []) :
    lastWidth t.reverse = 1 ∨
      ∃ before bytes r, t = before ++ bytes ∧ Encodes bytes r ∧
        lastWidth t.reverse = bytes.length := by
  obtain ⟨a, rest, hback⟩ := List.exists_cons_of_ne_nil (List.reverse_ne_nil_iff.mpr ht)
  rw [hback, lastWidth]
  split
  · exact Or.inl rfl
  split
  · exact Or.inl rfl
  · next i _ =>
    split
    · next r n hread =>
      split
      · next hn =>
        obtain ⟨bytes, later, hbytes, hencodes, rfl⟩ := exists_encodes_of_sequence? hread
        have hlater : later = [] := by
          have hlengths := congrArg List.length hbytes
          simp only [List.length_reverse, List.length_cons, List.length_take,
            List.length_append] at hlengths
          exact List.length_eq_zero_iff.mp (by omega)
        rw [hlater, List.append_nil] at hbytes
        refine Or.inr ⟨(rest.drop (i + 1)).reverse, bytes, r, ?_, hencodes, rfl⟩
        rw [← hbytes, ← List.reverse_append, List.cons_append, List.take_append_drop, ← hback,
          List.reverse_reverse]
      · exact Or.inl rfl
    · exact Or.inl rfl

end Rune

namespace Text

theorem ne_nil_of_mem_pieces {t : Text} {p : Piece} (h : p ∈ pieces t) : t ≠ [] := by
  rintro rfl
  cases h

/-- The bytes of a piece are a valid sequence or one stray byte. -/
theorem encodes_or_singleton_of_mem_pieces {t : Text} {p : Piece} (h : p ∈ pieces t) :
    Rune.Encodes p.bytes p.rune ∨ p.bytes.length = 1 := by
  induction t using pieces_induction with
  | nil => cases h
  | sequence bytes r rest hbytes ih =>
      rw [pieces_append hbytes, List.mem_cons] at h
      rcases h with rfl | h
      · exact Or.inl hbytes
      · exact ih h
  | stray b rest hread ih =>
      rw [pieces_stray hread, List.mem_cons] at h
      rcases h with rfl | h
      · exact Or.inr rfl
      · exact ih h

/-- The rune that is found from behind is the last one that is found from the front. -/
theorem lastWidth_of_pieces {t : Text} {before : List Piece} {p : Piece}
    (h : pieces t = before ++ [p]) :
    Rune.lastWidth t.reverse = p.bytes.length := by
  have ht : t = before.flatMap Piece.bytes ++ p.bytes := by
    rw [← flatMap_bytes_pieces t, h, List.flatMap_append, List.flatMap_singleton]
  have hmem : p ∈ pieces t := by simp [h]
  rcases encodes_or_singleton_of_mem_pieces hmem with hencodes | hsingle
  · rw [ht]
    exact hencodes.lastWidth_append _
  · rcases Rune.lastWidth_cases (ne_nil_of_mem_pieces hmem) with
      hone | ⟨front, bytes, r, rfl, hencodes, hwidth⟩
    · rw [hone, hsingle]
    · -- A valid sequence at the end would be the last rune from the front as well.
      rw [pieces_concat hencodes] at h
      obtain ⟨-, hlast⟩ := List.append_inj' h rfl
      obtain rfl : ⟨r, bytes⟩ = p := by simpa using hlast
      exact hwidth

/-- Both parts of a text that is cut between two runes keep their runes. -/
theorem pieces_of_append {t : Text} {before after : List Piece} (h : pieces t = before ++ after) :
    pieces (before.flatMap Piece.bytes) = before ∧ pieces (after.flatMap Piece.bytes) = after := by
  induction before generalizing t with
  | nil =>
      rw [List.nil_append] at h
      rw [← h, flatMap_bytes_pieces]
      exact ⟨rfl, rfl⟩
  | cons p before ih =>
      induction t using pieces_induction with
      | nil => cases h
      | sequence bytes r rest hbytes =>
          rw [pieces_append hbytes, List.cons_append] at h
          obtain ⟨rfl, hrest⟩ := List.cons.inj h
          obtain ⟨hbefore, hafter⟩ := ih hrest
          rw [List.flatMap_cons, pieces_append hbytes, hbefore]
          exact ⟨rfl, hafter⟩
      | stray b rest hread =>
          rw [pieces_stray hread, List.cons_append] at h
          obtain ⟨rfl, hrest⟩ := List.cons.inj h
          obtain ⟨hbefore, hafter⟩ := ih hrest
          -- Nothing is read at the byte with less behind it either.
          have hcut : Rune.sequence? (b :: before.flatMap Piece.bytes) = none := by
            cases hshort : Rune.sequence? (b :: before.flatMap Piece.bytes) with
            | none => rfl
            | some read =>
                have hlong := Rune.sequence?_append_of_eq_some hshort (after.flatMap Piece.bytes)
                rw [List.cons_append, ← List.flatMap_append, ← hrest, flatMap_bytes_pieces,
                  hread] at hlong
                cases hlong
          rw [List.flatMap_cons, List.singleton_append, pieces_stray hcut, hbefore]
          exact ⟨rfl, hafter⟩

/-- The offset behind the first `n` runes of a text. -/
def runeOffset (t : Text) (n : Nat) : Nat := (((pieces t).take n).flatMap Piece.bytes).length

/-- An offset behind some runes divides a text into these and the others. -/
theorem take_drop_runeOffset (t : Text) (n : Nat) :
    t.take (runeOffset t n) = ((pieces t).take n).flatMap Piece.bytes ∧
      t.drop (runeOffset t n) = ((pieces t).drop n).flatMap Piece.bytes := by
  have ht : t = ((pieces t).take n).flatMap Piece.bytes ++
      ((pieces t).drop n).flatMap Piece.bytes := by
    rw [← List.flatMap_append, List.take_append_drop, flatMap_bytes_pieces]
  exact ⟨(congrArg (List.take (runeOffset t n)) ht).trans List.take_left,
    (congrArg (List.drop (runeOffset t n)) ht).trans List.drop_left⟩

theorem runeOffset_le (t : Text) (n : Nat) : runeOffset t n ≤ t.length := by
  rw [runeOffset, ← (take_drop_runeOffset t n).1]
  exact List.length_take_le' _ _

/-- More runes follow the first ones. -/
theorem runeOffset_add (t : Text) (n m : Nat) :
    runeOffset t (n + m)
      = runeOffset t n + ((((pieces t).drop n).take m).flatMap Piece.bytes).length := by
  rw [runeOffset, List.take_add, List.flatMap_append, List.length_append]
  rfl

end Text

/-! ## Motion -/

namespace Motion

open Text

/-- From behind some runes a motion forward leads behind some more, if there are as many. -/
theorem forwardRunes_runeOffset {t : Text} {n : Nat} (hn : n ≤ (pieces t).length) (m : Nat) :
    forwardRunes t (runeOffset t n) m =
      if n + m ≤ (pieces t).length then some (runeOffset t (n + m)) else none := by
  have hcut : pieces t = (pieces t).take n ++ (pieces t).drop n := (List.take_append_drop n _).symm
  have hroom : m ≤ (pieces t).length - n ↔ n + m ≤ (pieces t).length := by omega
  rw [forwardRunes, (take_drop_runeOffset t n).2, runesAhead_eq, (pieces_of_append hcut).2,
    List.length_drop, runeOffset_add]
  simp only [hroom]

/-- Going back by one more rune is going back by the last one first. -/
theorem runesBehind_succ {back : Text} (h : back ≠ []) (n : Nat) :
    runesBehind (n + 1) back = runesBehind n (back.drop (Rune.lastWidth back)) := by
  cases back with
  | nil => exact absurd rfl h
  | cons b t => rfl

/-- Backward from the end of a text the runes are passed from the last one on. -/
theorem runesBehind_of_pieces {t : Text} {before after : List Piece}
    (h : pieces t = before ++ after) :
    runesBehind after.length t.reverse = some (before.flatMap Piece.bytes).length := by
  -- The induction is on the runes to be passed, of which the last one is passed first.
  induction after using List.reverseRecOn generalizing t with
  | nil =>
      rw [List.append_nil] at h
      rw [← h, flatMap_bytes_pieces]
      simp [runesBehind]
  | append_singleton after p ih =>
      rw [← List.append_assoc] at h
      have hwidth := lastWidth_of_pieces h
      obtain ⟨hrest, -⟩ := pieces_of_append h
      have ht : t.reverse = p.bytes.reverse ++ ((before ++ after).flatMap Piece.bytes).reverse := by
        rw [← flatMap_bytes_pieces t, h, List.flatMap_append, List.flatMap_singleton,
          List.reverse_append]
      have hne : t.reverse ≠ [] := by
        rw [Ne, List.reverse_eq_nil_iff]
        exact ne_nil_of_mem_pieces (p := p) (by simp [h])
      have hdrop : t.reverse.drop (Rune.lastWidth t.reverse)
          = ((before ++ after).flatMap Piece.bytes).reverse := by
        rw [hwidth, ht, ← List.length_reverse, List.drop_left]
      rw [List.length_append, List.length_singleton, runesBehind_succ hne, hdrop, ih hrest]

/-- From behind some runes a motion backward leads to where the last of them start. -/
theorem backwardRunes_runeOffset {t : Text} {n m : Nat} (h : n + m ≤ (pieces t).length) :
    backwardRunes t (runeOffset t (n + m)) m = some (runeOffset t n) := by
  have hcut : pieces t = (pieces t).take (n + m) ++ (pieces t).drop (n + m) :=
    (List.take_append_drop _ _).symm
  have hlast : pieces (((pieces t).take (n + m)).flatMap Piece.bytes)
      = (pieces t).take n ++ ((pieces t).drop n).take m := by
    rw [(pieces_of_append hcut).1, List.take_add]
  have hlength : (((pieces t).drop n).take m).length = m := by
    rw [List.length_take, List.length_drop]
    omega
  have hback := runesBehind_of_pieces hlast
  rw [hlength] at hback
  rw [backwardRunes, (take_drop_runeOffset t (n + m)).1, hback]
  rfl

end Motion

/-! ## Counts of runes -/

namespace Address

variable {t : Text}

/-- The place behind the first `n` runes of a text. -/
def behindRunes (t : Text) (n : Nat) : AddressRange := ⟨t.runeOffset n, t.runeOffset n⟩

theorem offset?_runeOffset (t : Text) (n : Nat) :
    offset? t (t.runeOffset n) = some (t.runeOffset n) :=
  offset?_eq_some (Int.natCast_nonneg _) (Int.ofNat_le.mpr (t.runeOffset_le n))

/-- Moving forward leads behind that many more runes, if there are as many. -/
theorem moveRunes_forward_eq_ok_iff {n m : Nat} (hn : n ≤ t.pieces.length) {r : AddressRange} :
    moveRunes t (behindRunes t n) .forward m = .ok r ↔
      n + m ≤ t.pieces.length ∧ behindRunes t (n + m) = r := by
  simp only [moveRunes, behindRunes, offset?_runeOffset, Motion.forwardRunes_runeOffset hn]
  split
  · next hroom => simp [ofOffset?, hroom]
  · next hroom => simp [ofOffset?, hroom]

/-- Moving backward leads behind that many runes less. -/
theorem moveRunes_backward {n m : Nat} (h : n + m ≤ t.pieces.length) :
    moveRunes t (behindRunes t (n + m)) .backward m = .ok (behindRunes t n) := by
  simp only [moveRunes, behindRunes, offset?_runeOffset, Motion.backwardRunes_runeOffset h]
  rfl

section

variable {a digits : Text} {n : Nat}

/-- Digits are read as the number that they write, if it fits. -/
theorem number_eq_ok_iff (h : Decimal.Writes digits n) {k : Nat} :
    number digits = .ok k ↔ n < 2 ^ 63 ∧ n = k := by
  constructor
  · intro hnumber
    have hlt : n < 2 ^ 63 := by
      unfold number at hnumber
      split at hnumber
      · next w hread =>
          obtain ⟨-, -, -, hword⟩ :=
            (Decimal.read_of_sign (Decimal.sign_of_isDigit h.isDigit)).mp hread
          rw [h.value_eq] at hword
          exact (Decimal.ofMagnitude_false_eq_ok_iff.mp hword).1
      · cases hnumber
    rw [number_of_writes h hlt] at hnumber
    exact ⟨hlt, Except.ok.inj hnumber⟩
  · rintro ⟨hlt, rfl⟩
    exact number_of_writes h hlt

/-- A count of runes is taken from the start of the text. -/
theorem run_runes (r : AddressRange) (later : List Token) :
    run t (.runes :: .number digits :: later) { range := r }
      = (number digits >>= fun n => moveRunes t (behindRunes t 0) .forward n >>= fun r =>
        run t later { range := r }) :=
  run_number_append t digits later _

/-- Behind a sign it is taken from the range reached. -/
theorem run_signed_runes (d : Direction) (r : AddressRange) (later : List Token) :
    run t (.sign d :: .runes :: .number digits :: later) { range := r }
      = (number digits >>= fun n => moveRunes t r d n >>= fun r => run t later { range := r }) :=
  run_number_append t digits later _

/-- What stands in front of a count of runes in a direction. -/
def Direction.runeSign : Direction → Text
  | .forward => "+#"
  | .backward => "-#"

theorem slash_notMem_runes (h : Decimal.Writes digits n) : Text.slash ∉ "#" ++ digits := by
  rw [List.mem_append, not_or]
  exact ⟨by decide, slash_notMem_of_writes h⟩

theorem slash_notMem_signed_runes (h : Decimal.Writes digits n) (d : Direction)
    (ha : Text.slash ∉ a) :
    Text.slash ∉ a ++ d.runeSign ++ digits := by
  rw [List.mem_append, List.mem_append, not_or, not_or]
  exact ⟨⟨ha, by cases d <;> decide⟩, slash_notMem_of_writes h⟩

theorem tokens_runes (h : Decimal.Writes digits n) :
    tokens ("#" ++ digits) = [.runes, .number digits] := by
  have hnext : tokens (35 :: digits) = .runes :: tokens digits := tokens_cons 35 digits
  rw [tokens_of_writes h] at hnext
  exact hnext

/-- A count of runes behind an address without patterns adds three tokens to it. -/
theorem tokens_signed_runes (h : Decimal.Writes digits n) (d : Direction) (ha : Text.slash ∉ a) :
    tokens (a ++ d.runeSign ++ digits) = tokens a ++ [.sign d, .runes, .number digits] := by
  have hclosed : isClosed a = true := decide_eq_true (Place.behind_outside_of_notMem ha)
  obtain ⟨b, hsign, hdigit, hnext⟩ : ∃ b, d.runeSign = [b, 35] ∧ Text.isDigit b = false ∧
      ∀ later, nextToken b later = (.sign d, later) := by
    cases d with
    | forward => exact ⟨43, rfl, rfl, fun _ => rfl⟩
    | backward => exact ⟨45, rfl, rfl, fun _ => rfl⟩
  rw [List.append_assoc, hsign, List.cons_append, tokens_append hdigit hclosed, tokens_cons, hnext]
  exact congrArg (tokens a ++ Token.sign d :: ·) (tokens_runes h)

end

/-- **Runes forward and back.** If a text has the place that a count of runes from its start and
another one forward from there lead to, it is the place behind as many runes as both say, and the
second count back from it leads to the place behind the first. This holds for any bytes, whether
they are valid sequences or not. -/
theorem eval_forward_back {digits count t : Text} {n m : Nat} {start : Int} {r : AddressRange}
    (hn : Decimal.Writes digits n) (hm : Decimal.Writes count m)
    (h : eval ("#" ++ digits ++ "+#" ++ count) start t = .ok r) :
    n + m ≤ t.pieces.length ∧ r = behindRunes t (n + m) ∧
      eval ("#" ++ digits) start t = .ok (behindRunes t n) ∧
      eval ("#" ++ digits ++ "+#" ++ count ++ "-#" ++ count) start t = .ok (behindRunes t n) := by
  have hslash := slash_notMem_runes hn
  have hforward : tokens ("#" ++ digits ++ "+#" ++ count)
      = [.runes, .number digits, .sign .forward, .runes, .number count] :=
    (tokens_signed_runes hm .forward hslash).trans (congrArg (· ++ _) (tokens_runes hn))
  have hback : tokens ("#" ++ digits ++ "+#" ++ count ++ "-#" ++ count)
      = [.runes, .number digits, .sign .forward, .runes, .number count, .sign .backward, .runes,
        .number count] :=
    (tokens_signed_runes hm .backward (slash_notMem_signed_runes hm .forward hslash)).trans
      (congrArg (· ++ _) hforward)
  rw [eval_of_tokens hforward, run_runes] at h
  obtain ⟨n', hnumber, h⟩ := bind_eq_ok_iff.mp h
  obtain ⟨-, rfl⟩ := (number_eq_ok_iff hn).mp hnumber
  obtain ⟨here, hhere, h⟩ := bind_eq_ok_iff.mp h
  rw [run_signed_runes] at h
  obtain ⟨m', hcount, h⟩ := bind_eq_ok_iff.mp h
  obtain ⟨-, rfl⟩ := (number_eq_ok_iff hm).mp hcount
  obtain ⟨there, hthere, hend⟩ := bind_eq_ok_iff.mp h
  -- Both motions forward succeed only where the text has as many runes.
  obtain ⟨hfirst, rfl⟩ := (moveRunes_forward_eq_ok_iff (Nat.zero_le _)).mp hhere
  rw [Nat.zero_add] at hfirst hhere hthere
  obtain ⟨hroom, rfl⟩ := (moveRunes_forward_eq_ok_iff hfirst).mp hthere
  refine ⟨hroom, (Except.ok.inj hend).symm, ?_, ?_⟩
  · rw [eval_of_tokens (tokens_runes hn), run_runes]
    exact bind_eq_ok_iff.mpr ⟨n, hnumber, bind_eq_ok_iff.mpr ⟨_, hhere, rfl⟩⟩
  · rw [eval_of_tokens hback, run_runes]
    refine bind_eq_ok_iff.mpr ⟨n, hnumber, bind_eq_ok_iff.mpr ⟨_, hhere, ?_⟩⟩
    rw [run_signed_runes]
    refine bind_eq_ok_iff.mpr ⟨m, hcount, bind_eq_ok_iff.mpr ⟨_, hthere, ?_⟩⟩
    rw [run_signed_runes]
    exact bind_eq_ok_iff.mpr ⟨m, hcount, bind_eq_ok_iff.mpr ⟨_, moveRunes_backward hroom, rfl⟩⟩

/-- One sequence is cut off in front of a valid one and another one at the end of the text. -/
theorem eval_forward_back_stray :
    Decimal.Writes "1" 1 ∧ Decimal.Writes "4" 4 ∧
      eval "#1+#4" 0 [0xE2, 0x82, 0xC3, 0xA9, 0xF0, 0x9F, 0x98] = .ok ⟨6, 6⟩ ∧
      eval "#1" 0 [0xE2, 0x82, 0xC3, 0xA9, 0xF0, 0x9F, 0x98] = .ok ⟨1, 1⟩ ∧
      eval "#1+#4-#4" 0 [0xE2, 0x82, 0xC3, 0xA9, 0xF0, 0x9F, 0x98] = .ok ⟨1, 1⟩ := by
  have hone : Decimal.Writes "1" 1 := ⟨by decide, List.all_eq_true.mp rfl, rfl⟩
  have hfour : Decimal.Writes "4" 4 := ⟨by decide, List.all_eq_true.mp rfl, rfl⟩
  have hforward : eval "#1+#4" 0 [0xE2, 0x82, 0xC3, 0xA9, 0xF0, 0x9F, 0x98]
      = .ok ⟨6, 6⟩ := by decide
  obtain ⟨-, -, hfirst, hback⟩ := eval_forward_back hone hfour hforward
  exact ⟨hone, hfour, hforward, hfirst, hback⟩

end Address

end PointerMigration
