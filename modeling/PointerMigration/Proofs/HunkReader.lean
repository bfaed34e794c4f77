/-
# Printed hunks

A reader of unified diffs, strict in what it accepts: the head of a hunk says how many lines of
either text come before it and how many it has, in the only way to write these numbers, and the
lines that follow must be that many. What is printed for hunks is read back as the same hunks, so a
head states the places and numbers of the lines of its hunk.
-/
import PointerMigration.Diff.Hunk
import PointerMigration.Proofs.Decimal
import PointerMigration.Proofs.Lines
import Mathlib.Data.List.Induction

namespace PointerMigration

/-! ## Shortest digits -/

/-- The number that digits stand for. A zero in front is refused, unless it is the only digit. -/
def Decimal.natural? : Text → Option Nat
  | [] => none
  | b :: t =>
    if (b :: t).all Text.isDigit && (t.isEmpty || b != 48) then some (value (b :: t)) else none

namespace Text

/-- More digits than a number has do not change how it is written. -/
theorem lowDigits_eq_ofNat {count n : Nat} (h : n < count) : lowDigits count n = ofNat n := by
  induction n using Nat.strongRecOn generalizing count with
  | ind n ih =>
    obtain ⟨count, rfl⟩ : ∃ c, count = c + 1 := ⟨count - 1, by omega⟩
    rw [ofNat, lowDigits, lowDigits]
    split
    · rfl
    · rw [ih (n / 10) (by omega) (by omega), ih (n / 10) (by omega) (by omega)]

theorem ofNat_of_lt {n : Nat} (h : n < 10) : ofNat n = [UInt8.ofNat (48 + n)] := if_pos h

/-- The last digit of a number stands behind those of its tenth. -/
theorem ofNat_of_le {n : Nat} (h : 10 ≤ n) :
    ofNat n = ofNat (n / 10) ++ [UInt8.ofNat (48 + n % 10)] := by
  rw [ofNat, lowDigits, if_neg (by omega), lowDigits_eq_ofNat (by omega)]

/-- Only zero is written with a zero in front. -/
theorem eq_zero_of_head?_ofNat {n : Nat} (h : (ofNat n).head? = some 48) : n = 0 := by
  induction n using Nat.strongRecOn with
  | ind n ih =>
    by_cases hn : n < 10
    · have hdigit : ∀ m : Fin 10, (ofNat m).head? = some 48 → m = 0 := by decide
      exact congrArg Fin.val (hdigit ⟨n, hn⟩ h)
    · rw [ofNat_of_le (by omega), List.head?_append_of_ne_nil _ (ofNat_ne_nil _)] at h
      have := ih (n / 10) (by omega) h
      omega

/-- A digit is that of its value. -/
theorem digit_of_isDigit {b : UInt8} (h : isDigit b = true) :
    b.toNat - 48 < 10 ∧ UInt8.ofNat (48 + (b.toNat - 48)) = b := by
  rw [isDigit, Bool.and_eq_true, decide_eq_true_eq, decide_eq_true_eq] at h
  have hlow : 48 ≤ b.toNat := UInt8.le_iff_toNat_le.mp h.1
  have hhigh : b.toNat ≤ 57 := UInt8.le_iff_toNat_le.mp h.2
  have hsum : 48 + (b.toNat - 48) = b.toNat := by omega
  exact ⟨by omega, by rw [hsum, UInt8.ofNat_toNat]⟩

end Text

namespace Decimal

theorem value_concat (ds : Text) (b : UInt8) :
    value (ds ++ [b]) = value ds * 10 + (b.toNat - 48) := by
  rw [value, value, List.foldl_append]
  rfl

/-- Digits without a zero in front are those of their number. -/
theorem ofNat_value {t : Text} (hne : t ≠ []) (hdigits : ∀ b ∈ t, Text.isDigit b = true)
    (hfront : t.length = 1 ∨ t.head? ≠ some 48) : Text.ofNat (value t) = t := by
  induction t using List.reverseRecOn with
  | nil => exact absurd rfl hne
  | append_singleton ds b ih =>
    obtain ⟨hlt, hb⟩ := Text.digit_of_isDigit (hdigits b (by simp))
    rw [value_concat]
    by_cases hds : ds = []
    · subst hds
      have hvalue : value [] * 10 + (b.toNat - 48) = b.toNat - 48 := by simp [value]
      rw [hvalue, Text.ofNat_of_lt hlt, hb, List.nil_append]
    · have hhead : ds.head? ≠ some 48 := by
        rw [List.head?_append_of_ne_nil _ hds] at hfront
        refine hfront.resolve_left ?_
        have hpos := List.length_pos_iff.mpr hds
        simp only [List.length_append, List.length_singleton]
        omega
      have hbefore : Text.ofNat (value ds) = ds :=
        ih hds (fun c hc => hdigits c (List.mem_append_left _ hc)) (Or.inr hhead)
      -- Only zero has a zero in front, so the digits before the last one are not those of zero.
      have hpos : value ds ≠ 0 := by
        intro hzero
        rw [hzero] at hbefore
        exact hhead (hbefore ▸ rfl)
      have hdiv : (value ds * 10 + (b.toNat - 48)) / 10 = value ds := by omega
      have hmod : (value ds * 10 + (b.toNat - 48)) % 10 = b.toNat - 48 := by omega
      rw [Text.ofNat_of_le (by omega), hdiv, hmod, hbefore, hb]

/-- Digits are read as a number if and only if the number is written so. -/
theorem natural?_eq_some_iff {t : Text} {n : Nat} : natural? t = some n ↔ t = Text.ofNat n := by
  constructor
  · intro h
    cases t with
    | nil => cases h
    | cons b t =>
        rw [natural?] at h
        split at h
        · rename_i hshort
          rw [Bool.and_eq_true, List.all_eq_true, Bool.or_eq_true] at hshort
          obtain rfl := Option.some.inj h
          refine (ofNat_value (by simp) hshort.1 ?_).symm
          simpa using hshort.2
        · cases h
  · rintro rfl
    have hne := Text.ofNat_ne_nil n
    have hall : (Text.ofNat n).all Text.isDigit = true :=
      List.all_eq_true.mpr fun b hb => Text.isDigit_of_mem_lowDigits hb
    have hzero := @Text.eq_zero_of_head?_ofNat n
    have hvalue := value_ofNat n
    cases hdigits : Text.ofNat n with
    | nil => exact absurd hdigits hne
    | cons b t =>
        have hfront : (t.isEmpty || b != 48) = true := by
          rw [Bool.or_eq_true, bne_iff_ne]
          by_contra hboth
          rw [not_or, not_not] at hboth
          obtain rfl := hzero (by rw [hdigits, hboth.2]; rfl)
          cases hdigits
          exact hboth.1 rfl
        rw [hdigits] at hall hvalue
        rw [natural?, hall, hfront, Bool.and_self, if_pos rfl, hvalue]

end Decimal

namespace Hunk

open DiffLine

/-! ## The reader -/

/-- Reads a range of lines: how many lines come before it, and how many it has. A number alone is a
range of one line and no other range has this form. Lines are counted from one, and an empty range
names the line before it. -/
def readRange? (t : Text) : Option (Nat × Nat) :=
  match t.splitOn 44 with
  | [first] =>
    match Decimal.natural? first with
    | some (before + 1) => some (before, 1)
    | _ => none
  | [first, count] =>
    match Decimal.natural? first, Decimal.natural? count with
    | some before, some 0 => some (before, 0)
    | some (before + 1), some (count + 2) => some (before, count + 2)
    | _, _ => none
  | _ => none

/-- Reads the head of a hunk: its range in the old text and its range in the new one. -/
def readHead? (line : Text) : Option ((Nat × Nat) × (Nat × Nat)) :=
  match line.splitOn 32 with
  | [[64, 64], 45 :: old, 43 :: new, [64, 64]] =>
    match readRange? old, readRange? new with
    | some old, some new => some (old, new)
    | _, _ => none
  | _ => none

/-- Reads a line of a hunk. -/
def readLine? : Text → Option DiffLine
  | 32 :: t => some ⟨.keep, t⟩
  | 45 :: t => some ⟨.delete, t⟩
  | 43 :: t => some ⟨.insert, t⟩
  | _ => none

/-- Puts a line in front of what has been read: the lines before the next head, and the
hunks from there on. -/
def readStep (line : Text) (later : Option (List DiffLine × List Hunk)) :
    Option (List DiffLine × List Hunk) :=
  match later with
  | none => none
  | some (ls, hs) =>
    match readLine? line with
    | some l => some (l :: ls, hs)
    | none =>
      match readHead? line with
      | some ((oldBefore, old), (newBefore, new)) =>
        if old = oldCount ls ∧ new = newCount ls then some ([], ⟨oldBefore, newBefore, ls⟩ :: hs)
        else none
      | none => none

/-- Reads hunks. -/
def read? (t : Text) : Option (List Hunk) :=
  match (Text.lines t).foldr readStep (some ([], [])) with
  | some ([], hs) => some hs
  | _ => none

/-! ## Reading what is printed -/

/-- A range has only digits and a comma. -/
theorem notMem_range {b : UInt8} (hb : Text.isDigit b = false) (hcomma : b ≠ 44)
    (before count : Nat) :
    b ∉ range before count := by
  have hdigits : ∀ n, b ∉ Text.ofNat n := Text.notMem_ofNat hb
  have hzero : b ∉ Text.ofString ",0" := by
    intro hmem
    rcases List.mem_pair.mp (show b ∈ [44, 48] from hmem) with rfl | rfl
    · exact hcomma rfl
    · cases hb
  have hone : b ∉ Text.ofString "," := by
    intro hmem
    exact hcomma (List.mem_singleton.mp (show b ∈ [44] from hmem))
  unfold range
  split
  · rw [List.mem_append, not_or]
    exact ⟨hdigits _, hzero⟩
  · split
    · exact hdigits _
    · rw [List.mem_append, List.mem_append, not_or, not_or]
      exact ⟨⟨hdigits _, hone⟩, hdigits _⟩

theorem range_zero (before : Nat) :
    range before 0 = Text.ofNat before ++ 44 :: Text.ofNat 0 := rfl

theorem range_one (before : Nat) : range before 1 = Text.ofNat (before + 1) := rfl

/-- A range of several lines names its first line and how many they are. -/
theorem range_add_two (before count : Nat) :
    range before (count + 2) = Text.ofNat (before + 1) ++ 44 :: Text.ofNat (count + 2) := by
  rw [range, if_neg (by omega), if_neg (by omega), List.append_assoc]
  rfl

/-- A number alone has no comma to be split at. -/
theorem splitOn_ofNat (n : Nat) : (Text.ofNat n).splitOn 44 = [Text.ofNat n] :=
  List.splitOn_eq_singleton (Text.notMem_ofNat (by decide) n)

/-- Two numbers are split at the comma between them. -/
theorem splitOn_ofNat_append (n m : Nat) :
    (Text.ofNat n ++ 44 :: Text.ofNat m).splitOn 44 = [Text.ofNat n, Text.ofNat m] := by
  rw [List.splitOn_append_cons_self_of_not_mem (Text.notMem_ofNat (by decide) n), splitOn_ofNat]

/-- A range is read if and only if it is printed so. -/
theorem readRange?_eq_some_iff {t : Text} {before count : Nat} :
    readRange? t = some (before, count) ↔ t = range before count := by
  constructor
  · intro h
    have hjoin : [44].intercalate (t.splitOn 44) = t := List.intercalate_splitOn 44
    unfold readRange? at h
    split at h
    · rename_i first hsplit
      rw [hsplit, List.intercalate_singleton] at hjoin
      split at h
      · rename_i before hbefore
        cases h
        rw [range_one, ← hjoin, Decimal.natural?_eq_some_iff.mp hbefore]
      · cases h
    · rename_i first second hsplit
      have hparts : t = first ++ 44 :: second := by
        rw [← hjoin, hsplit]
        simp [List.intercalate]
      split at h
      · rename_i hbefore hcount
        cases h
        rw [range_zero, hparts, Decimal.natural?_eq_some_iff.mp hbefore,
          Decimal.natural?_eq_some_iff.mp hcount]
      · rename_i hbefore hcount
        cases h
        rw [range_add_two, hparts, Decimal.natural?_eq_some_iff.mp hbefore,
          Decimal.natural?_eq_some_iff.mp hcount]
      · cases h
    · cases h
  · rintro rfl
    have hread : ∀ n, Decimal.natural? (Text.ofNat n) = some n :=
      fun n => Decimal.natural?_eq_some_iff.mpr rfl
    rw [readRange?]
    match count with
    | 0 =>
      rw [range_zero, splitOn_ofNat_append]
      simp only [hread]
    | 1 =>
      rw [range_one, splitOn_ofNat]
      simp only [hread]
    | count + 2 =>
      rw [range_add_two, splitOn_ofNat_append]
      simp only [hread]

/-- The line of a hunk's head. -/
def headLine (h : Hunk) : Text :=
  [64, 64, 32, 45] ++ range h.oldBefore (oldCount h.lines) ++ [32, 43] ++
    range h.newBefore (newCount h.lines) ++ [32, 64, 64]

theorem head_eq (h : Hunk) : h.head = h.headLine ++ [Text.newline] := by
  have hopen : Text.ofString "@@ -" = [64, 64, 32, 45] := rfl
  have hplus : Text.ofString " +" = [32, 43] := rfl
  have hclose : Text.ofString " @@\n" = [32, 64, 64] ++ [Text.newline] := rfl
  rw [head, headLine, hopen, hplus, hclose]
  simp only [List.append_assoc]

/-- The head of a hunk is read as its places and the numbers of its lines. -/
theorem readHead?_headLine (h : Hunk) :
    readHead? h.headLine =
      some ((h.oldBefore, oldCount h.lines), (h.newBefore, newCount h.lines)) := by
  have hold : (32 : UInt8) ∉ 45 :: range h.oldBefore (oldCount h.lines) := by
    rw [List.mem_cons, not_or]
    exact ⟨by decide, notMem_range (by decide) (by decide) _ _⟩
  have hnew : (32 : UInt8) ∉ 43 :: range h.newBefore (newCount h.lines) := by
    rw [List.mem_cons, not_or]
    exact ⟨by decide, notMem_range (by decide) (by decide) _ _⟩
  have hwords : h.headLine = [64, 64] ++ 32 :: ((45 :: range h.oldBefore (oldCount h.lines)) ++
      32 :: ((43 :: range h.newBefore (newCount h.lines)) ++ 32 :: [64, 64])) := by
    simp [headLine]
  unfold readHead?
  rw [hwords, List.splitOn_append_cons_self_of_not_mem (by decide),
    List.splitOn_append_cons_self_of_not_mem hold, List.splitOn_append_cons_self_of_not_mem hnew,
    List.splitOn_eq_singleton (by decide)]
  simp only [readRange?_eq_some_iff.mpr rfl]

theorem readLine?_headLine (h : Hunk) : readLine? h.headLine = none := rfl

theorem readLine?_mark (l : DiffLine) : readLine? (l.mark :: l.text) = some l := by
  obtain ⟨change, text⟩ := l
  cases change <;> rfl

/-- The lines of a printed hunk. -/
def printedLines (h : Hunk) : List Text := h.headLine :: h.lines.map fun l => l.mark :: l.text

theorem render_eq_unlines (h : Hunk) : h.render = Text.unlines h.printedLines := by
  rw [render, head_eq, printedLines, Text.unlines_cons, Text.unlines, List.flatMap_map,
    List.append_assoc]
  rfl

theorem newline_notMem_headLine (h : Hunk) : Text.newline ∉ h.headLine := by
  have hrange : ∀ before count, Text.newline ∉ range before count :=
    notMem_range (by decide) (by decide)
  have hsigns : Text.newline ∉ ([64, 64, 32, 45] : Text) ∧ Text.newline ∉ ([32, 43] : Text) ∧
      Text.newline ∉ ([32, 64, 64] : Text) := by decide
  simp only [headLine, List.mem_append, not_or]
  exact ⟨⟨⟨⟨hsigns.1, hrange _ _⟩, hsigns.2.1⟩, hrange _ _⟩, hsigns.2.2⟩

/-- The lines of one hunk are read behind those of later hunks. -/
theorem foldr_readStep_printedLines (h : Hunk) (hs : List Hunk) :
    h.printedLines.foldr readStep (some ([], hs)) = some ([], h :: hs) := by
  have hlines : ∀ ls : List DiffLine,
      (ls.map fun l => l.mark :: l.text).foldr readStep (some ([], hs)) = some (ls, hs) := by
    intro ls
    induction ls with
    | nil => rfl
    | cons l ls ih => simp only [List.map_cons, List.foldr_cons, ih, readStep, readLine?_mark]
  rw [printedLines, List.foldr_cons, hlines]
  simp only [readStep, readLine?_headLine, readHead?_headLine, and_self, if_true]

/-- Printed hunks are read back. -/
theorem read?_render {hs : List Hunk} (hclean : ∀ h ∈ hs, ∀ l ∈ h.lines, Text.newline ∉ l.text) :
    read? (hs.flatMap render) = some hs := by
  have hprinted : hs.flatMap render = Text.unlines (hs.flatMap printedLines) := by
    rw [Text.unlines_flatMap]
    exact congrArg (hs.flatMap ·) (funext render_eq_unlines)
  have hlines : ∀ line ∈ hs.flatMap printedLines, Text.newline ∉ line := by
    intro line hline
    obtain ⟨h, hh, hline⟩ := List.mem_flatMap.mp hline
    rcases List.mem_cons.mp hline with rfl | hline
    · exact newline_notMem_headLine h
    · obtain ⟨l, hl, rfl⟩ := List.mem_map.mp hline
      rw [List.mem_cons, not_or]
      refine ⟨?_, hclean h hh l hl⟩
      cases hchange : l.change <;> simp [mark, hchange, Text.newline]
  have hread : (hs.flatMap printedLines).foldr readStep (some ([], [])) = some ([], hs) := by
    clear hlines hprinted hclean
    induction hs with
    | nil => rfl
    | cons h hs ih => rw [List.flatMap_cons, List.foldr_append, ih, foldr_readStep_printedLines]
  rw [read?, hprinted, Text.lines_unlines hlines, hread]

end Hunk

end PointerMigration
