/-
# Absolute addresses

A number alone is the address of a line, and a number behind a number sign that of the place behind
as many runes. The lines of a text are its pieces when it is divided behind each newline. The empty
line behind the last one is none of them, though it has an address.
-/
import PointerMigration.Proofs.AddressBounds
import PointerMigration.Proofs.CompleteBlocks
import Mathlib.Algebra.Ring.Nat
import Mathlib.Data.List.SplitBy

namespace PointerMigration

/-! ## Lines with their newlines -/

namespace Text

/-- The lines of a text with their newlines. -/
def fullLines (t : Text) : List Text := t.splitBy fun b _ => b != newline

/-- A text is not divided before a newline. -/
theorem fullLines_concat {line : Text} (h : newline ∉ line) (b : UInt8) :
    fullLines (line ++ [b]) = [line ++ [b]] := by
  refine List.splitBy_of_isChain (by simp) ?_
  induction line with
  | nil => exact .singleton b
  | cons a line ih =>
      rw [List.mem_cons, not_or] at h
      refine List.isChain_cons.mpr ⟨fun _ _ => ?_, ih h.2⟩
      simpa using Ne.symm h.1

theorem fullLines_of_notMem {t : Text} (h : newline ∉ t) (ht : t ≠ []) : t.fullLines = [t] := by
  have hline :=
    fullLines_concat (fun hmem => h ((List.dropLast_sublist t).subset hmem)) (t.getLast ht)
  rwa [List.dropLast_concat_getLast ht] at hline

/-- The first line goes up to the first newline. -/
theorem fullLines_append_newline {line : Text} (h : newline ∉ line) (t : Text) :
    fullLines (line ++ newline :: t) = (line ++ [newline]) :: t.fullLines := by
  have hdivide :=
    List.splitBy_append (r := fun b _ => b != newline) (l := line ++ [newline]) (m := t) (by simp)
  rw [List.append_assoc, List.singleton_append] at hdivide
  rw [fullLines, hdivide]
  exact congrArg (· ++ t.fullLines) (fullLines_concat h newline)

end Text

/-! ## Motion -/

namespace Motion

open Text

theorem lineLength_of_notMem {t : Text} (h : newline ∉ t) : lineLength t = t.length := by
  have hwhile : t.takeWhile (· != newline) = t := by
    rw [List.takeWhile_eq_self_iff]
    intro b hb
    simpa using ne_of_mem_of_not_mem hb h
  simp [lineLength, hwhile]

/-- The newline counts as part of the line. -/
theorem lineLength_append_newline {line : Text} (h : newline ∉ line) (t : Text) :
    lineLength (line ++ newline :: t) = line.length + 1 := by
  have hwhile : (line ++ newline :: t).takeWhile (· != newline) = line := by
    rw [List.takeWhile_append_of_pos, List.takeWhile_cons_of_neg, List.append_nil]
    · simp
    · intro b hb
      simpa using ne_of_mem_of_not_mem hb h
  simp [lineLength, hwhile]

/-- The first line of a text is as long as a motion takes it to be. -/
theorem fullLines_eq_cons {t : Text} (ht : t ≠ []) :
    t.fullLines = t.take (lineLength t) :: fullLines (t.drop (lineLength t)) := by
  by_cases hmem : newline ∈ t
  · obtain ⟨line, rest, rfl, hline⟩ := List.eq_append_cons_of_mem hmem
    have hsplit : line ++ newline :: rest = (line ++ [newline]) ++ rest := by simp
    have hlength : lineLength (line ++ newline :: rest) = (line ++ [newline]).length := by
      rw [lineLength_append_newline hline, List.length_append, List.length_singleton]
    rw [fullLines_append_newline hline, hlength, hsplit, List.take_left, List.drop_left]
  · rw [fullLines_of_notMem hmem ht, lineLength_of_notMem hmem, List.take_length, List.drop_length]
    rfl

/-- What the first line of a text is, and what the others are the lines of. -/
theorem of_fullLines_eq_cons {t line : Text} {lines : List Text} (h : t.fullLines = line :: lines) :
    t ≠ [] ∧ line = t.take (lineLength t) ∧ fullLines (t.drop (lineLength t)) = lines := by
  have ht : t ≠ [] := by
    rintro rfl
    cases h
  rw [fullLines_eq_cons ht] at h
  obtain ⟨hline, hlines⟩ := List.cons.inj h
  exact ⟨ht, hline.symm, hlines⟩

/-- Going one line further passes the next line. -/
theorem linesAhead_succ {rest : Text} (hrest : rest ≠ []) (n lo hi : Nat) :
    linesAhead (n + 1) lo hi rest
      = linesAhead n hi (hi + lineLength rest) (rest.drop (lineLength rest)) := by
  cases rest with
  | nil => exact absurd rfl hrest
  | cons b t => rfl

/-- Moving to a line passes the lines before it. -/
theorem linesAhead_line {before after : List Text} {line rest : Text}
    (h : rest.fullLines = before ++ line :: after) (lo hi : Nat) :
    linesAhead (before.length + 1) lo hi rest
      = some ⟨hi + before.flatten.length, hi + before.flatten.length + line.length⟩ := by
  induction before generalizing lo hi rest with
  | nil =>
      obtain ⟨hrest, rfl, -⟩ := of_fullLines_eq_cons h
      rw [List.length_nil, linesAhead_succ hrest, linesAhead, List.length_take,
        Nat.min_eq_left (lineLength_le rest)]
      rfl
  | cons first before ih =>
      obtain ⟨hrest, rfl, hlater⟩ := of_fullLines_eq_cons h
      rw [List.length_cons, linesAhead_succ hrest, ih hlater, List.flatten_cons, List.length_append,
        List.length_take, Nat.min_eq_left (lineLength_le rest), Nat.add_assoc hi]

/-- Behind the last line there is an empty one, and nothing behind that. -/
theorem linesAhead_beyond (rest : Text) (n lo hi : Nat) :
    linesAhead (rest.fullLines.length + 1 + n) lo hi rest
      = if n = 0 then some ⟨hi + rest.length, hi + rest.length⟩ else none := by
  induction hlines : rest.fullLines generalizing lo hi rest with
  | nil =>
      obtain rfl : rest = [] := List.splitBy_eq_nil.mp hlines
      rw [List.length_nil, Nat.add_comm, linesAhead]
      rfl
  | cons line lines ih =>
      obtain ⟨hrest, -, hlater⟩ := of_fullLines_eq_cons hlines
      have hlength := lineLength_le rest
      have hend : hi + lineLength rest + (rest.length - lineLength rest)
          = hi + rest.length := by omega
      rw [List.length_cons, Nat.add_right_comm, linesAhead_succ hrest, ih _ _ _ hlater,
        List.length_drop, hend]

/-- A motion by runes passes the runes of the text one by one. -/
theorem runesAhead_eq (n offset : Nat) (rest : Text) :
    runesAhead n offset rest
      = if n ≤ (pieces rest).length then
        some (offset + (((pieces rest).take n).flatMap Piece.bytes).length)
        else none := by
  induction n generalizing offset rest with
  | zero => simp [runesAhead]
  | succ n ih =>
      cases rest with
      | nil => simp [runesAhead, Rune.decode?, pieces, piecesFrom]
      | cons b t =>
          obtain ⟨hpos, hwidth⟩ := Rune.width_getD b t
          rw [runesAhead, Rune.decode?, pieces_cons]
          generalize (Rune.sequence? (b :: t)).getD (Rune.replacement, 1) = read at hpos hwidth
          obtain ⟨rune, width⟩ := read
          have hdrop : (b :: t).drop width = t.drop (width - 1) := by
            obtain ⟨w, rfl⟩ := Nat.exists_eq_add_of_lt hpos
            simp
          have hbytes : ((b :: t).take width).length = width := by
            rw [List.length_take, Nat.min_eq_left hwidth]
          simp only [ih, hdrop, hbytes, List.length_cons, Nat.add_le_add_iff_right,
            List.take_succ_cons, List.flatMap_cons, List.length_append, Nat.add_assoc]

end Motion

/-! ## Numbers -/

/-- A text is a natural number in decimal, with or without zeros in front. -/
structure Decimal.Writes (digits : Text) (n : Nat) : Prop where
  ne_nil : digits ≠ []
  isDigit : ∀ b ∈ digits, Text.isDigit b = true
  value_eq : value digits = n

theorem Decimal.writes_ofNat (n : Nat) : Writes (Text.ofNat n) n :=
  ⟨Text.ofNat_ne_nil n, fun _ => Text.isDigit_of_mem_lowDigits, value_ofNat n⟩

namespace Address

/-- A number leaves over nothing but the range it leads to. -/
theorem run_number_append (t digits : Text) (later : List Token) (s : State) :
    run t (.number digits :: later) s
      = (number digits >>= fun n => move t s.range s.direction s.byRunes n >>= fun r =>
        run t later { range := r }) := by
  rw [run_token (by simp), step, bind_assoc]
  exact congrArg _ (funext fun n => bind_assoc ..)

section

variable {digits : Text} {n : Nat} (h : Decimal.Writes digits n)

include h

/-- A number that fits into a word is read from its digits. -/
theorem number_of_writes (hn : n < 2 ^ 63) : number digits = .ok n := by
  obtain ⟨hne, hdigits, rfl⟩ := h
  have hread : Decimal.read digits = .ok (Int64.ofInt (Decimal.value digits)) :=
    (Decimal.read_of_sign (Decimal.sign_of_isDigit hdigits)).mpr
      ⟨hne, hdigits, by omega, Decimal.ofMagnitude_false_eq_ok_iff.mpr ⟨hn, rfl⟩⟩
  rw [number, hread]
  simp only
  rw [Int64.toInt_ofInt_of_le (by omega) (by omega), Int.toNat_natCast]

/-- The digits of a number are one token. -/
theorem tokensUpTo_of_writes {fuel : Nat} (hfuel : fuel ≠ 0) :
    tokensUpTo fuel digits = [.number digits] := by
  obtain ⟨hne, hdigits, -⟩ := h
  obtain ⟨b, t, rfl⟩ := List.exists_cons_of_ne_nil hne
  obtain ⟨fuel, rfl⟩ := Nat.exists_eq_succ_of_ne_zero hfuel
  have hb := hdigits b List.mem_cons_self
  have hmark : ∀ c : UInt8, Text.isDigit c = false → b ≠ c := by
    rintro c hc rfl
    exact absurd hb (by simp [hc])
  have hall : ∀ c ∈ t, Text.isDigit c = true := fun c hc => hdigits c (List.mem_cons_of_mem b hc)
  have hnext : nextToken b t = (.number (b :: t), []) := by
    unfold nextToken
    rw [if_neg (hmark _ rfl), if_neg (hmark _ rfl), if_neg (hmark _ rfl), if_neg (hmark _ rfl),
      if_neg (hmark _ rfl), if_pos hb, List.takeWhile_eq_self_iff.mpr hall,
      List.dropWhile_eq_nil_iff.mpr hall]
  rw [tokensUpTo, hnext]
  cases fuel with
  | zero => rfl
  | succ fuel => rfl

theorem run_number (hn : n < 2 ^ 63) (t : Text) (s : State) :
    run t [.number digits] s = move t s.range s.direction s.byRunes n := by
  rw [run_number_append, number_of_writes h hn]
  exact bind_pure (move t s.range s.direction s.byRunes n)

/-- A number alone is counted in lines from the start of the text. -/
theorem eval_number (hn : n < 2 ^ 63) (start : Int) (t : Text) :
    eval digits start t = ofSpan? (Motion.linesAhead n 0 0 t) := by
  have htokens : tokens digits = [.number digits] :=
    tokensUpTo_of_writes h (by simpa using h.ne_nil)
  rcases eval_cases digits start t with ⟨hnil, -⟩ | heval
  · cases htokens.symm.trans hnil
  · rw [heval, htokens, run_number h hn]
    simp only [move, moveLines, offset?_eq_some (Int.le_refl 0) (Int.natCast_nonneg t.length)]
    rfl

/-- A number behind the mark for runes is counted in runes from the start of the text. -/
theorem eval_runes_number (hn : n < 2 ^ 63) (start : Int) (t : Text) :
    eval (35 :: digits) start t = ofOffset? (Motion.runesAhead n 0 t) := by
  have hrest : tokensUpTo digits.length digits = [.number digits] :=
    tokensUpTo_of_writes h (by simpa using h.ne_nil)
  have htokens : tokens (35 :: digits) = [.runes, .number digits] :=
    congrArg (Token.runes :: ·) hrest
  rcases eval_cases (35 :: digits) start t with ⟨hnil, -⟩ | heval
  · cases htokens.symm.trans hnil
  · rw [heval, htokens, run_token (by simp), step]
    refine (run_number h hn t _).trans ?_
    simp only [move, moveRunes, offset?_eq_some (Int.le_refl 0) (Int.natCast_nonneg t.length)]
    rfl

/-- **Absolute addresses.** The number of a line is its address, from the first byte of the line to
behind its newline. Zero is the address of the start of the text, and the number behind that of the
last line the address of its end; a greater number is out of range. Behind a number sign a number is
the address of the place behind as many runes, a byte that belongs to no rune counting as one, and
out of range if there are not as many. -/
theorem eval_absolute (hn : n < 2 ^ 63) (start : Int) (t : Text) :
    (n = 0 → eval digits start t = .ok ⟨0, 0⟩) ∧
    (∀ before line after, t.fullLines = before ++ line :: after → n = before.length + 1 →
      eval digits start t = .ok ⟨before.flatten.length, before.flatten.length + line.length⟩) ∧
    (n = t.fullLines.length + 1 → eval digits start t = .ok ⟨t.length, t.length⟩) ∧
    (t.fullLines.length + 1 < n → eval digits start t = .error (.cause .outOfRange)) ∧
    (∀ before after, t.pieces = before ++ after → n = before.length →
      eval (35 :: digits) start t
        = .ok ⟨(before.flatMap Text.Piece.bytes).length,
          (before.flatMap Text.Piece.bytes).length⟩) ∧
    (t.pieces.length < n → eval (35 :: digits) start t = .error (.cause .outOfRange)) := by
  rw [eval_number h hn, eval_runes_number h hn, Motion.runesAhead_eq]
  refine ⟨?_, ?_, ?_, ?_, ?_, ?_⟩
  · rintro rfl
    rfl
  · rintro before line after hlines rfl
    rw [Motion.linesAhead_line hlines]
    simp [ofSpan?]
  · rintro rfl
    rw [← Nat.add_zero (t.fullLines.length + 1), Motion.linesAhead_beyond, if_pos rfl]
    simp [ofSpan?]
  · intro hlt
    obtain ⟨more, rfl⟩ := Nat.exists_eq_add_of_le (Nat.le_of_lt hlt)
    rw [Motion.linesAhead_beyond, if_neg (by omega)]
    rfl
  · rintro before after hpieces rfl
    rw [hpieces, List.take_left, if_pos (by simp)]
    simp [ofOffset?]
  · intro hlt
    rw [if_neg (by omega)]
    rfl

end

/-- The second line of this text has no newline, and its first byte belongs to no rune. -/
theorem eval_absolute_stray :
    Decimal.Writes "03" 3 ∧ eval "03" 1 [0xC3, 0xA9, 10, 0xFF, 98] = .ok ⟨5, 5⟩ ∧
      eval "#03" 1 [0xC3, 0xA9, 10, 0xFF, 98] = .ok ⟨4, 4⟩ ∧
      eval (Text.ofNat 2) 1 [0xC3, 0xA9, 10, 0xFF, 98] = .ok ⟨3, 5⟩ := by
  have hwrites : Decimal.Writes "03" 3 := ⟨by decide, List.all_eq_true.mp rfl, rfl⟩
  obtain ⟨-, -, hend, -, hrunes, -⟩ := eval_absolute hwrites (by omega) 1 [0xC3, 0xA9, 10, 0xFF, 98]
  obtain ⟨-, hline, -⟩ :=
    eval_absolute (Decimal.writes_ofNat 2) (by omega) 1 [0xC3, 0xA9, 10, 0xFF, 98]
  have hpieces :=
    hrunes [⟨0xE9, [0xC3, 0xA9]⟩, ⟨10, [10]⟩, ⟨Rune.replacement, [0xFF]⟩] [⟨98, [98]⟩] rfl rfl
  exact ⟨hwrites, hend rfl, hpieces, hline [[0xC3, 0xA9, 10]] [0xFF, 98] [] rfl rfl⟩

end Address

end PointerMigration
