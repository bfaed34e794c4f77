/-
# Complete blocks

Which blocks of a stream are kept, and what their records say, in terms of the places of the marks
and of the fields of a line. The reader goes through the lines once and holds the lines of one
block. What it holds after some lines is what these lines say: those behind the last beginning, if
no end has come since.
-/
import PointerMigration.Proofs.Shards
import Mathlib.Data.List.Find
import Mathlib.Data.List.TakeWhile

namespace PointerMigration

/-! ## Numbers -/

namespace Decimal

theorem le_foldl_digits (n : Nat) (digits : Text) :
    n ≤ digits.foldl (fun n b => n * 10 + (b.toNat - 48)) n := by
  induction digits generalizing n with
  | nil => exact Nat.le_refl n
  | cons b t ih =>
      have hstep : n ≤ n * 10 + (b.toNat - 48) := by omega
      exact Nat.le_trans hstep (ih _)

/-- Digits are read as their number if that fits into 64 bits, whatever number precedes them. -/
theorem readDigits_eq_ok_iff {m n : Nat} (hm : m < 2 ^ 64) {digits : Text} :
    readDigits m digits = .ok n ↔
      (∀ b ∈ digits, Text.isDigit b = true) ∧
        digits.foldl (fun n b => n * 10 + (b.toNat - 48)) m = n ∧ n < 2 ^ 64 := by
  induction digits generalizing m with
  | nil =>
      simp only [readDigits, Except.ok.injEq, List.not_mem_nil, false_implies, implies_true,
        List.foldl_nil, true_and]
      constructor
      · rintro rfl
        exact ⟨rfl, hm⟩
      · exact And.left
  | cons b t ih =>
      rw [readDigits, List.foldl_cons]
      by_cases hb : Text.isDigit b = true
      · by_cases hbig : 0x10000000000000000 ≤ m * 10 + (b.toNat - 48)
        · have hle := le_foldl_digits (m * 10 + (b.toNat - 48)) t
          simp only [hb, Bool.not_true, Bool.false_eq_true, if_false, if_pos hbig, reduceCtorEq,
            false_iff, not_and]
          intro _ hn
          omega
        · simp only [hb, Bool.not_true, Bool.false_eq_true, if_false, if_neg hbig,
            List.forall_mem_cons, true_and]
          exact ih (by omega)
      · simp [hb]

/-- What is read after a sign. -/
theorem read_of_sign {t digits : Text} {negative : Bool} (hsign : sign t = (negative, digits))
    {w : Int64} :
    read t = .ok w ↔
      digits ≠ [] ∧ (∀ b ∈ digits, Text.isDigit b = true) ∧ value digits < 2 ^ 64 ∧
        ofMagnitude negative (value digits) = .ok w := by
  unfold read
  rw [hsign]
  cases hdigits : digits with
  | nil => simp
  | cons b rest =>
      simp only [List.isEmpty_cons, Bool.false_eq_true, if_false, ne_eq, reduceCtorEq,
        not_false_eq_true, true_and]
      cases hread : readDigits 0 (b :: rest) with
      | error e =>
          simp only [reduceCtorEq, false_iff, not_and]
          intro hall hlt _
          have hok := (readDigits_eq_ok_iff (m := 0) (by decide)).mpr ⟨hall, rfl, hlt⟩
          rw [hread] at hok
          cases hok
      | ok n =>
          obtain ⟨hall, hvalue, hlt⟩ := (readDigits_eq_ok_iff (by decide)).mp hread
          have hvalue : value (b :: rest) = n := hvalue
          rw [hvalue]
          exact ⟨fun h => ⟨hall, hlt, h⟩, fun h => h.2.2⟩

/-- A text is a word that is not negative in decimal: digits, with a plus sign or none. Zero
may have a minus sign. -/
def Denotes (t : Text) (w : Int64) : Prop :=
  ∃ digits, digits ≠ [] ∧ (∀ b ∈ digits, Text.isDigit b = true) ∧ value digits < 2 ^ 63 ∧
    w = Int64.ofInt (value digits) ∧
    (t = digits ∨ t = 43 :: digits ∨ (t = 45 :: digits ∧ value digits = 0))

/-- A magnitude without a sign is a word if it has at most 63 bits. -/
theorem ofMagnitude_false_eq_ok_iff {n : Nat} {w : Int64} :
    ofMagnitude false n = .ok w ↔ n < 2 ^ 63 ∧ w = Int64.ofInt n := by
  unfold ofMagnitude
  by_cases hn : n < 0x8000000000000000
  · simp [hn, eq_comm]
  · simp [hn]

/-- A word without a minus sign is not negative, and one with it only if it is zero. -/
theorem ofMagnitude_nonneg_iff {negative : Bool} {n : Nat} {w : Int64} :
    ofMagnitude negative n = .ok w ∧ ¬ w < 0 ↔
      n < 2 ^ 63 ∧ w = Int64.ofInt n ∧ (negative = true → n = 0) := by
  have hword : ∀ m : Nat, m < 2 ^ 63 → (Int64.ofInt m).toInt = m := fun m hm =>
    Int64.toInt_ofInt_of_le (by omega) (by omega)
  cases negative with
  | false =>
      rw [ofMagnitude_false_eq_ok_iff]
      constructor
      · rintro ⟨⟨hn, rfl⟩, -⟩
        exact ⟨hn, rfl, by simp⟩
      · rintro ⟨hn, rfl, -⟩
        refine ⟨⟨hn, rfl⟩, ?_⟩
        rw [Int64.lt_iff_toInt_lt, hword n hn, Int64.toInt_zero]
        omega
  | true =>
      unfold ofMagnitude
      rw [if_pos rfl]
      by_cases hn : n ≤ 0x8000000000000000
      · rw [if_pos hn, Except.ok.injEq]
        constructor
        · rintro ⟨rfl, hneg⟩
          have hminus : (Int64.ofInt (-n)).toInt = -n :=
            Int64.toInt_ofInt_of_le (by omega) (by omega)
          rw [Int64.lt_iff_toInt_lt, hminus, Int64.toInt_zero] at hneg
          have hzero : n = 0 := by omega
          subst hzero
          exact ⟨by decide, rfl, fun _ => rfl⟩
        · rintro ⟨-, rfl, hzero⟩
          rw [hzero rfl]
          decide
      · rw [if_neg hn]
        simp only [reduceCtorEq, false_and, false_iff, not_and]
        intro hlt
        omega

end Decimal

/-- A number of bytes is read exactly from its decimal forms. -/
theorem EditStream.readCount_eq_some_iff {t : Text} {w : Int64} :
    readCount t = some w ↔ Decimal.Denotes t w := by
  have hread : readCount t = some w ↔ Decimal.read t = .ok w ∧ ¬ w < 0 := by
    unfold readCount
    cases Decimal.read t with
    | error e => simp
    | ok v =>
        by_cases hv : v < 0
        · simp only [if_pos hv, reduceCtorEq, Except.ok.injEq, false_iff, not_and, not_not]
          rintro rfl
          exact hv
        · simp only [if_neg hv, Option.some.injEq, Except.ok.injEq]
          constructor
          · rintro rfl
            exact ⟨rfl, hv⟩
          · exact And.left
  -- What a sign leaves of the text decides everything else.
  have hsigned : ∀ negative digits, Decimal.sign t = (negative, digits) →
      (readCount t = some w ↔ digits ≠ [] ∧ (∀ b ∈ digits, Text.isDigit b = true) ∧
        Decimal.value digits < 2 ^ 63 ∧ w = Int64.ofInt (Decimal.value digits) ∧
        (negative = true → Decimal.value digits = 0)) := by
    intro negative digits hsign
    rw [hread, Decimal.read_of_sign hsign, and_assoc, and_assoc, and_assoc,
      Decimal.ofMagnitude_nonneg_iff]
    constructor
    · rintro ⟨hne, hall, -, hlt, hw, hzero⟩
      exact ⟨hne, hall, hlt, hw, hzero⟩
    · rintro ⟨hne, hall, hlt, hw, hzero⟩
      exact ⟨hne, hall, Nat.lt_trans hlt (by decide), hlt, hw, hzero⟩
  constructor
  · intro h
    cases ht : t with
    | nil =>
        rw [hsigned false [] (by rw [ht]; rfl)] at h
        exact absurd rfl h.1
    | cons b rest =>
        by_cases hminus : b = 45
        · obtain ⟨hne, hall, hlt, hw, hzero⟩ :=
            (hsigned true rest (by rw [ht, hminus]; rfl)).mp h
          exact ⟨rest, hne, hall, hlt, hw, Or.inr (Or.inr ⟨by rw [hminus], hzero rfl⟩)⟩
        by_cases hplus : b = 43
        · obtain ⟨hne, hall, hlt, hw, -⟩ := (hsigned false rest (by rw [ht, hplus]; rfl)).mp h
          exact ⟨rest, hne, hall, hlt, hw, Or.inr (Or.inl (by rw [hplus]))⟩
        · obtain ⟨hne, hall, hlt, hw, -⟩ := (hsigned false (b :: rest) (by
            rw [ht, Decimal.sign, if_neg hminus, if_neg hplus])).mp h
          exact ⟨b :: rest, hne, hall, hlt, hw, Or.inl rfl⟩
  · rintro ⟨digits, hne, hall, hlt, hw, rfl | rfl | ⟨rfl, hzero⟩⟩
    · exact (hsigned false _ (Decimal.sign_of_isDigit hall)).mpr ⟨hne, hall, hlt, hw, by simp⟩
    · exact (hsigned false digits rfl).mpr ⟨hne, hall, hlt, hw, by simp⟩
    · exact (hsigned true digits rfl).mpr ⟨hne, hall, hlt, hw, fun _ => hzero⟩

/-! ## Records -/

namespace EditStream

/-- What is cut off at the first separator is a field. -/
theorem isField_of_cutFrom {before t a rest : Text}
    (h : Text.cutFrom separator before t = some (a, rest)) :
    ∃ p, a = before.reverse ++ p ∧ t = p ++ separator ++ rest ∧ IsField p := by
  induction t generalizing before with
  | nil => cases h
  | cons b t ih =>
      rw [Text.cutFrom] at h
      by_cases hsep : separator.isPrefixOf (b :: t) = true
      · rw [if_pos hsep] at h
        obtain ⟨rest', hrest⟩ := List.isPrefixOf_iff_prefix.mp hsep
        simp only [Option.some.injEq, Prod.mk.injEq] at h
        obtain ⟨rfl, rfl⟩ := h
        refine ⟨[], by simp, ?_, isField_of_notMem List.not_mem_nil⟩
        rw [← hrest]
        simp
      · rw [if_neg hsep] at h
        rw [List.isPrefixOf_iff_prefix] at hsep
        obtain ⟨p, rfl, rfl, hp⟩ := ih h
        refine ⟨b :: p, by simp, rfl, ?_, ?_⟩
        · -- A separator in the longer field starts at its front or lies in the shorter one.
          intro hinfix
          rcases List.infix_cons_iff.mp hinfix with hfront | hinfix
          · exact hsep (hfront.trans ⟨separator ++ rest, by simp⟩)
          · exact hp.separator_free hinfix
        · cases p with
          | nil =>
              intro hlast
              obtain rfl : b = Text.colon := by simpa using hlast
              exact hsep ⟨Text.colon :: rest, rfl⟩
          | cons c p =>
              rw [List.getLast?_cons_cons]
              exact hp.last_ne_colon

/-- The first of several pieces ends at the first separator. -/
theorem isField_of_splitUpTo {n : Nat} {t a b : Text} {pieces : List Text}
    (h : Text.splitUpTo separator (n + 1) t = a :: b :: pieces) :
    ∃ rest, t = a ++ separator ++ rest ∧ IsField a ∧
      Text.splitUpTo separator n rest = b :: pieces := by
  rw [Text.splitUpTo, Text.cut?] at h
  cases hcut : Text.cutFrom separator [] t with
  | none => simp [hcut] at h
  | some parts =>
      obtain ⟨front, rest⟩ := parts
      rw [hcut] at h
      obtain ⟨rfl, hpieces⟩ := List.cons.inj h
      obtain ⟨p, rfl, ht, hp⟩ := isField_of_cutFrom hcut
      exact ⟨rest, ht, hp, hpieces⟩

/-- The five fields of a record. The first four end at the first separators, the last
may hold more of them. -/
def HasFields (t tag file offset length text : Text) : Prop :=
  t = Text.join separator [tag, file, offset, length, text] ∧
    IsField tag ∧ IsField file ∧ IsField offset ∧ IsField length

/-- A line has five fields if it can be divided into them at the first four separators. -/
theorem hasFields_iff {t tag file offset length text : Text} :
    HasFields t tag file offset length text ↔
      Text.splitUpTo separator 4 t = [tag, file, offset, length, text] := by
  constructor
  · rintro ⟨rfl, htag, hfile, hoffset, hlength⟩
    exact splitUpTo_join htag hfile hoffset hlength text
  · intro h
    obtain ⟨rest, rfl, htag, h⟩ := isField_of_splitUpTo h
    obtain ⟨rest, rfl, hfile, h⟩ := isField_of_splitUpTo h
    obtain ⟨rest, rfl, hoffset, h⟩ := isField_of_splitUpTo h
    obtain ⟨rest, rfl, hlength, h⟩ := isField_of_splitUpTo h
    obtain rfl : rest = text := List.singleton_inj.mp h
    exact ⟨(join_five _ _ _ _ _).symm, htag, hfile, hoffset, hlength⟩

/-- A record is about the file of a name. -/
def Names (t name : Text) : Prop :=
  ∃ tag offset length text, HasFields t tag name offset length text

/-- The file that a line names is the second of its five fields. -/
theorem names_iff {t name : Text} :
    Names t name ↔
      (Text.splitUpTo separator 4 t).length = 5 ∧
        (Text.splitUpTo separator 4 t)[1]? = some name := by
  constructor
  · rintro ⟨tag, offset, length, text, h⟩
    rw [hasFields_iff.mp h]
    exact ⟨rfl, rfl⟩
  · rintro ⟨hlength, hname⟩
    match hpieces : Text.splitUpTo separator 4 t, hlength with
    | [tag, file, offset, length, text], _ =>
        rw [hpieces] at hname
        obtain rfl : file = name := by simpa using hname
        exact ⟨tag, offset, length, text, hasFields_iff.mpr hpieces⟩

instance (t name : Text) : Decidable (Names t name) := decidable_of_iff _ names_iff.symm

/-- What a record says: a replacement, in whose text zero bytes stand for newlines, or a header. -/
inductive Decodes (t : Text) : Record → Prop where
  | replace {file offset length text : Text} {start count : Int64}
      (hfields : HasFields t replaceTag file offset length text)
      (hoffset : Decimal.Denotes offset start) (hlength : Decimal.Denotes length count) :
      Decodes t (.replace
        { file, offset := start, length := count, text := Text.replaceByte 0 Text.newline text })
  | header {file offset length name : Text}
      (hfields : HasFields t headerTag file offset length name) :
      Decodes t (.header file name)

/-- A record that says nothing: it has fewer than five fields or an unknown tag, or it is a
replacement whose offset or length is not a number. -/
inductive Malformed (t : Text) : Prop where
  | tooFewFields (h : ∀ tag file offset length text, ¬ HasFields t tag file offset length text)
  | unknownTag {tag file offset length text : Text}
      (hfields : HasFields t tag file offset length text)
      (hreplace : tag ≠ replaceTag) (hheader : tag ≠ headerTag)
  | noNumber {file offset length text : Text}
      (hfields : HasFields t replaceTag file offset length text)
      (h : (∀ w, ¬ Decimal.Denotes offset w) ∨ ∀ w, ¬ Decimal.Denotes length w)

/-- A number of bytes is refused if and only if the text denotes none. -/
theorem readCount_eq_none_iff {t : Text} : readCount t = none ↔ ∀ w, ¬ Decimal.Denotes t w := by
  rw [Option.eq_none_iff_forall_ne_some]
  simp only [ne_eq, readCount_eq_some_iff]

/-- A record is read as what it says, and refused if it says nothing. -/
theorem Record.parse_cases (t : Text) :
    (∃ r, Record.parse t = .ok r ∧ Decodes t r) ∨
      (∃ e, Record.parse t = .error e) ∧ Malformed t := by
  unfold Record.parse
  split
  · next tag file offset length text hpieces =>
      have hfields := hasFields_iff.mpr hpieces
      by_cases hreplace : tag = replaceTag
      · subst hreplace
        rw [if_pos rfl]
        cases hoffset : readCount offset with
        | none =>
            have hnot := readCount_eq_none_iff.mp hoffset
            exact Or.inr ⟨⟨_, rfl⟩, .noNumber hfields (Or.inl hnot)⟩
        | some start =>
            cases hlength : readCount length with
            | none =>
                have hnot := readCount_eq_none_iff.mp hlength
                exact Or.inr ⟨⟨_, rfl⟩, .noNumber hfields (Or.inr hnot)⟩
            | some count =>
                exact Or.inl ⟨_, rfl, .replace hfields (readCount_eq_some_iff.mp hoffset)
                  (readCount_eq_some_iff.mp hlength)⟩
      · rw [if_neg hreplace]
        by_cases hheader : tag = headerTag
        · subst hheader
          rw [if_pos rfl]
          exact Or.inl ⟨_, rfl, .header hfields⟩
        · rw [if_neg hheader]
          exact Or.inr ⟨⟨_, rfl⟩, .unknownTag hfields hreplace hheader⟩
  · next hnot =>
      refine Or.inr ⟨⟨_, rfl⟩, .tooFewFields fun tag file offset length text hfields => ?_⟩
      exact hnot tag file offset length text (hasFields_iff.mp hfields)

/-- The fields of a record are unique. -/
theorem HasFields.inj {t a b c d e a' b' c' d' e' : Text} (h : HasFields t a b c d e)
    (h' : HasFields t a' b' c' d' e') : a = a' ∧ b = b' ∧ c = c' ∧ d = d' ∧ e = e' := by
  rw [hasFields_iff] at h h'
  simpa using h.symm.trans h'

/-- No record is malformed that says something. -/
theorem Decodes.not_malformed {t : Text} {r : Record} (h : Decodes t r) : ¬ Malformed t := by
  intro hbad
  cases h with
  | replace hfields hoffset hlength =>
      cases hbad with
      | tooFewFields hnone => exact hnone _ _ _ _ _ hfields
      | unknownTag hfields' hreplace _ => exact hreplace (hfields'.inj hfields).1
      | noNumber hfields' hnone =>
          obtain ⟨-, -, rfl, rfl, -⟩ := hfields'.inj hfields
          rcases hnone with hnone | hnone
          · exact hnone _ hoffset
          · exact hnone _ hlength
  | header hfields =>
      cases hbad with
      | tooFewFields hnone => exact hnone _ _ _ _ _ hfields
      | unknownTag hfields' _ hheader => exact hheader (hfields'.inj hfields).1
      | noNumber hfields' _ =>
          have htags : replaceTag = headerTag := (hfields'.inj hfields).1
          exact absurd htags (by decide)

/-- A line is read as a record if and only if it is not malformed. -/
theorem exists_parse_iff {t : Text} : (∃ r, Record.parse t = .ok r) ↔ ¬ Malformed t := by
  rcases Record.parse_cases t with ⟨r, hparse, hr⟩ | ⟨⟨e, hparse⟩, hbad⟩
  · exact ⟨fun _ => hr.not_malformed, fun _ => ⟨r, hparse⟩⟩
  · constructor
    · rintro ⟨r, hr⟩
      rw [hparse] at hr
      cases hr
    · exact fun hgood => absurd hbad hgood

/-- What is read of a line is what it says. -/
theorem decodes_of_parse {t : Text} {r : Record} (h : Record.parse t = .ok r) : Decodes t r := by
  rcases Record.parse_cases t with ⟨r', hparse, hr⟩ | ⟨⟨e, hparse⟩, -⟩
  · rw [hparse] at h
    cases h
    exact hr
  · rw [hparse] at h
    cases h

/-- What a record says is about the file that it names. -/
theorem Decodes.names_iff {t : Text} {r : Record} (h : Decodes t r) (name : Text) :
    Names t name ↔ r.file = name := by
  have hfile : Names t r.file := by
    cases h with
    | replace hfields _ _ => exact ⟨_, _, _, _, hfields⟩
    | header hfields => exact ⟨_, _, _, _, hfields⟩
  constructor
  · rintro ⟨tag, offset, length, text, hfields⟩
    obtain ⟨tag', offset', length', text', hfields'⟩ := hfile
    exact (hfields'.inj hfields).2.1
  · rintro rfl
    exact hfile

end EditStream

/-! ## Blocks -/

namespace EditStream

/-- A begin mark at the place `j` with no end mark between it and the place `i`. -/
def Begins (ls : List Text) (i j : Nat) : Prop :=
  ls[j]? = some beginMark ∧ ∀ k < i, j < k → ls[k]? ≠ some endMark

instance (ls : List Text) (i j : Nat) : Decidable (Begins ls i j) :=
  inferInstanceAs (Decidable (_ ∧ _))

/-- An end mark at the place `i` that has a beginning. -/
def IsMatched (ls : List Text) (i : Nat) : Prop :=
  ls[i]? = some endMark ∧ ∃ j < i, Begins ls i j

/-- The place of the last beginning for an end at the place `i`. -/
def lastBeginning? (ls : List Text) (i : Nat) : Option Nat :=
  (List.range i).reverse.find? fun j => Begins ls i j

/-- The lines between an end mark at the place `i` and the last of its beginnings. -/
def blockAt? (ls : List Text) (i : Nat) : Option (List Text) :=
  if ls[i]? = some endMark then (lastBeginning? ls i).map fun j => (ls.take i).drop (j + 1)
  else none

/-- The blocks of all end marks that have a beginning, in order. -/
def matchedBlocks (ls : List Text) : List (List Text) :=
  (List.range ls.length).filterMap (blockAt? ls)

/-- An end mark is matched if it has a block. -/
theorem isSome_blockAt?_iff (ls : List Text) (i : Nat) :
    (blockAt? ls i).isSome ↔ IsMatched ls i := by
  unfold blockAt? IsMatched
  by_cases hend : ls[i]? = some endMark
  · rw [if_pos hend, Option.isSome_map, lastBeginning?, List.find?_isSome]
    simp [hend]
  · simp [hend]

/-- What the reader holds after some lines: those behind the last begin mark, if no end
mark has come since. -/
def held (ls : List Text) : Option (List Text) :=
  (lastBeginning? ls ls.length).map fun j => ls.drop (j + 1)

/-- Later lines do not matter to the beginnings of an end. -/
theorem lastBeginning?_append (ls ms : List Text) :
    lastBeginning? (ls ++ ms) ls.length = lastBeginning? ls ls.length := by
  unfold lastBeginning?
  apply List.find?_congr
  intro j hj
  have hj : j < ls.length := by simpa using hj
  have hmarks : ∀ k < ls.length, (ls ++ ms)[k]? = ls[k]? := fun k hk => List.getElem?_append_left hk
  have hiff : Begins (ls ++ ms) ls.length j ↔ Begins ls ls.length j := by
    unfold Begins
    rw [hmarks j hj]
    refine and_congr_right fun _ => forall₂_congr fun k hk => ?_
    rw [hmarks k hk]
  exact decide_eq_decide.mpr hiff

/-- The block of an end mark is what the reader holds when it comes. -/
theorem blockAt?_append (ls rest : List Text) (line : Text) :
    blockAt? (ls ++ line :: rest) ls.length = if line = endMark then held ls else none := by
  unfold blockAt? held
  rw [lastBeginning?_append, List.take_left]
  simp

@[simp] theorem held_nil : held [] = none := rfl

/-- How one more line changes what the reader holds. -/
theorem held_concat (ls : List Text) (line : Text) :
    held (ls ++ [line]) =
      if line = beginMark then some []
      else if line = endMark then none
      else (held ls).map (· ++ [line]) := by
  have hlast : (ls ++ [line])[ls.length]? = some line := by simp
  have hself : Begins (ls ++ [line]) (ls.length + 1) ls.length ↔ line = beginMark := by
    unfold Begins
    rw [hlast, Option.some_inj]
    refine and_iff_left fun k hk hlt => ?_
    omega
  have hearlier : ∀ j < ls.length, (Begins (ls ++ [line]) (ls.length + 1) j ↔
      Begins (ls ++ [line]) ls.length j ∧ line ≠ endMark) := by
    intro j hj
    unfold Begins
    constructor
    · rintro ⟨hbegin, hends⟩
      refine ⟨⟨hbegin, fun k hk => hends k (by omega)⟩, ?_⟩
      have hline := hends ls.length (by omega) hj
      rw [hlast] at hline
      exact fun h => hline (by rw [h])
    · rintro ⟨⟨hbegin, hends⟩, hline⟩
      refine ⟨hbegin, fun k hk hlt => ?_⟩
      rcases Nat.lt_succ_iff_lt_or_eq.mp hk with hk | rfl
      · exact hends k hk hlt
      · rw [hlast]
        exact fun h => hline (Option.some.inj h)
  unfold held
  rw [List.length_append, List.length_singleton]
  by_cases hbegin : line = beginMark
  · have hfind : lastBeginning? (ls ++ [line]) (ls.length + 1) = some ls.length := by
      rw [lastBeginning?, List.range_succ, List.reverse_append, List.reverse_singleton,
        List.singleton_append, List.find?_cons_of_pos (by simpa using hself.mpr hbegin)]
    rw [hfind, if_pos hbegin]
    simp
  · have hfind : lastBeginning? (ls ++ [line]) (ls.length + 1) =
        if line = endMark then none else lastBeginning? ls ls.length := by
      rw [← lastBeginning?_append ls [line], lastBeginning?, List.range_succ, List.reverse_append,
        List.reverse_singleton, List.singleton_append,
        List.find?_cons_of_neg (by simpa using mt hself.mp hbegin)]
      split
      · next hend =>
          rw [List.find?_eq_none]
          intro j hj
          have hj : j < ls.length := by simpa using hj
          simpa using fun h => ((hearlier j hj).mp h).2 hend
      · next hend =>
          apply List.find?_congr
          intro j hj
          have hj : j < ls.length := by simpa using hj
          rw [decide_eq_decide, hearlier j hj]
          exact and_iff_left hend
    rw [hfind, if_neg hbegin]
    split
    · rfl
    · cases hprevious : lastBeginning? ls ls.length with
      | none => rfl
      | some j =>
          have hj : j < ls.length := by
            have hmem := List.mem_of_find?_eq_some hprevious
            simpa using hmem
          simp only [Option.map_some]
          rw [List.drop_append_of_le_length (by omega)]

/-- The blocks that end among the last lines. -/
def laterBlocks (ls rest : List Text) : List (List Text) :=
  (List.range' ls.length rest.length).filterMap (blockAt? (ls ++ rest))

/-- A line that ends a block gives the lines that are held, and is held itself otherwise. -/
theorem laterBlocks_cons (ls rest : List Text) (line : Text) :
    laterBlocks ls (line :: rest) =
      (if line = endMark then (held ls).toList else []) ++ laterBlocks (ls ++ [line]) rest := by
  unfold laterBlocks
  rw [List.length_cons, List.range'_succ, List.filterMap_cons, blockAt?_append, List.length_append,
    List.length_singleton, List.append_assoc, List.singleton_append]
  by_cases hend : line = endMark
  · cases held ls <;> simp [hend]
  · simp [hend]

/-- An end mark among the last lines that has no beginning. -/
def LaterUnmatched (ls rest : List Text) : Prop :=
  ∃ i, ls.length ≤ i ∧ (ls ++ rest)[i]? = some endMark ∧ ¬ IsMatched (ls ++ rest) i

/-- A line is unmatched if it ends a block where none is open, or a later line is. -/
theorem laterUnmatched_cons (ls rest : List Text) (line : Text) :
    LaterUnmatched ls (line :: rest) ↔
      (line = endMark ∧ held ls = none) ∨ LaterUnmatched (ls ++ [line]) rest := by
  have hfirst : (ls ++ line :: rest)[ls.length]? = some line := by simp
  have hmatched : line = endMark →
      (IsMatched (ls ++ line :: rest) ls.length ↔ (held ls).isSome) := by
    intro hend
    rw [← isSome_blockAt?_iff, blockAt?_append, if_pos hend]
  have hassoc : ls ++ [line] ++ rest = ls ++ line :: rest := by simp
  unfold LaterUnmatched
  rw [hassoc, List.length_append, List.length_singleton]
  constructor
  · rintro ⟨i, hi, hend, hnot⟩
    rcases Nat.eq_or_lt_of_le hi with rfl | hlt
    · rw [hfirst, Option.some_inj] at hend
      rw [hmatched hend] at hnot
      exact Or.inl ⟨hend, by simpa using hnot⟩
    · exact Or.inr ⟨i, hlt, hend, hnot⟩
  · rintro (⟨hend, hheld⟩ | ⟨i, hi, hend, hnot⟩)
    · refine ⟨ls.length, Nat.le_refl _, by rw [hfirst, hend], ?_⟩
      rw [hmatched hend, hheld]
      simp
    · exact ⟨i, by omega, hend, hnot⟩

/-- The reader, holding what the lines so far say, stops at an end without a beginning and otherwise
returns the lines of the blocks that end later. -/
theorem completeFrom_held (number : Nat) (ls rest : List Text) :
    ((completeFrom number ((held ls).map List.reverse) rest).2 = none ↔ ¬ LaterUnmatched ls rest) ∧
      (¬ LaterUnmatched ls rest →
        (completeFrom number ((held ls).map List.reverse) rest).1
          = (laterBlocks ls rest).flatten) := by
  -- The induction is on the lines to come; `ls` has those that have been read.
  induction rest generalizing number ls with
  | nil =>
      have hnone : ¬ LaterUnmatched ls [] := by
        rintro ⟨i, hi, hend, -⟩
        rw [List.append_nil, List.getElem?_eq_none hi] at hend
        cases hend
      exact ⟨by simp [completeFrom, hnone], fun _ => rfl⟩
  | cons line rest ih =>
      have hih := ih (number + 1) (ls ++ [line])
      have hstep := held_concat ls line
      rw [laterUnmatched_cons, laterBlocks_cons]
      by_cases hbegin : line = beginMark
      · subst hbegin
        rw [if_pos rfl] at hstep
        rw [hstep] at hih
        rw [completeFrom_begin]
        simpa [endMark_ne_beginMark.symm] using hih
      rw [if_neg hbegin] at hstep
      by_cases hend : line = endMark
      · subst hend
        rw [if_pos rfl] at hstep
        rw [hstep, Option.map_none] at hih
        cases hheld : held ls with
        | none => simp [completeFrom, endMark_ne_beginMark]
        | some block =>
            rw [Option.map_some, completeFrom_end]
            simp only [reduceCtorEq, and_false, false_or, if_true, Option.toList_some,
              List.singleton_append, List.flatten_cons, List.reverse_reverse]
            exact ⟨hih.1, fun hnot => by rw [hih.2 hnot]⟩
      · rw [if_neg hend] at hstep
        rw [hstep] at hih
        rw [completeFrom_line number (fun h => h.elim hbegin hend)]
        have hmap : ((held ls).map List.reverse).map (line :: ·)
            = ((held ls).map (· ++ [line])).map List.reverse := by
          cases held ls <;> simp
        rw [hmap]
        simpa [hend] using hih

/-- The lines of the complete blocks of a stream are read, and nothing else. -/
theorem completeFrom_eq_matchedBlocks (ls : List Text) :
    ((completeFrom 1 none ls).2 = none ↔ ∀ i, ls[i]? = some endMark → IsMatched ls i) ∧
      ((∀ i, ls[i]? = some endMark → IsMatched ls i) →
        (completeFrom 1 none ls).1 = (matchedBlocks ls).flatten) := by
  have hnot : ¬ LaterUnmatched [] ls ↔ ∀ i, ls[i]? = some endMark → IsMatched ls i := by
    simp [LaterUnmatched, not_exists, not_and]
  have hblocks : laterBlocks [] ls = matchedBlocks ls := by
    rw [laterBlocks, matchedBlocks, List.range_eq_range']
    rfl
  have h := completeFrom_held 1 [] ls
  rwa [hnot, hblocks] at h

end EditStream

/-! ## Patch sets -/

/-- The header of a record, if it is one. -/
def EditStream.Record.header? : Record → Option Text
  | replace _ => none
  | header _ name => some name

namespace PatchSet

open EditStream

/-- A patch set has the edits of some raw records: its files are those that a record names, in
the order of their names, each with what the different records for it say, in the order in
which they first came. -/
structure HasEditsOf (set : PatchSet) (raw : List Text) : Prop where
  names_increase : (set.files.map FilePatch.name).Pairwise (· < ·)
  mem_names : ∀ name, name ∈ set.files.map FilePatch.name ↔ ∃ t ∈ raw, Names t name
  edits : ∀ f ∈ set.files, ∃ records,
    List.Forall₂ Decodes (raw.filter fun t => Names t f.name).eraseDups records ∧
      f.replacements = records.filterMap Record.replacement? ∧
      f.headers = records.filterMap Record.header?

/-- The names of a patch set increase. -/
theorem pairwise_names_ofRecords (rs : List Record) :
    ((ofRecords rs).files.map FilePatch.name).Pairwise (· < ·) := by
  have hsorted : ((ofRecords rs).files.map FilePatch.name).Pairwise fun a b =>
      Text.le a b = true := by
    rw [names_ofRecords]
    exact Text.pairwise_mergeSort _
  refine (hsorted.and (nodup_names_ofRecords rs)).imp ?_
  rintro a b ⟨hle, hne⟩
  by_contra hlt
  exact hne (Text.le_antisymm hle (Text.le_iff.mpr (List.not_lt.mp hlt)))

theorem filterMap_parse_cons {t : Text} {r : Record} (h : Record.parse t = .ok r) (ts : List Text) :
    (t :: ts).filterMap (fun t => (Record.parse t).toOption) =
      r :: ts.filterMap fun t => (Record.parse t).toOption :=
  List.filterMap_cons_some (by rw [h]; rfl)

/-- Texts that can all be read say what they are read as. -/
theorem forall₂_decodes {ts : List Text} (h : ∀ t ∈ ts, ∃ r, Record.parse t = .ok r) :
    List.Forall₂ Decodes ts (ts.filterMap fun t => (Record.parse t).toOption) := by
  induction ts with
  | nil => exact .nil
  | cons t ts ih =>
      obtain ⟨r, hr⟩ := h t (by simp)
      rw [filterMap_parse_cons hr]
      exact .cons (decodes_of_parse hr) (ih fun t' ht' => h t' (List.mem_cons_of_mem t ht'))

/-- The records read for a file are those of the texts that name it. -/
theorem filter_file_eq {ts : List Text} (h : ∀ t ∈ ts, ∃ r, Record.parse t = .ok r) (name : Text) :
    (ts.filterMap fun t => (Record.parse t).toOption).filter (fun r => r.file = name) =
      (ts.filter fun t => Names t name).filterMap fun t => (Record.parse t).toOption := by
  induction ts with
  | nil => rfl
  | cons t ts ih =>
      obtain ⟨r, hr⟩ := h t (by simp)
      have hrest := ih fun t' ht' => h t' (List.mem_cons_of_mem t ht')
      have hnames := (decodes_of_parse hr).names_iff name
      rw [filterMap_parse_cons hr, List.filter_cons, List.filter_cons, hrest]
      by_cases hname : r.file = name
      · rw [if_pos (by simpa using hname), if_pos (by simpa using hnames.mpr hname),
          filterMap_parse_cons hr]
      · rw [if_neg (by simpa using hname), if_neg (by simpa using mt hnames.mp hname)]

/-- The patch of a file has the replacements and headers of its records, in their order. -/
theorem patchFor_eq_filter (rs : List Record) (name : Text) :
    patchFor rs name =
      { name, replacements := (rs.filter fun r => r.file = name).filterMap Record.replacement?,
        headers := (rs.filter fun r => r.file = name).filterMap Record.header? } :=
  rfl

/-- Records that can be read give the edits that they ask for. -/
theorem hasEditsOf_ofRecords {ts : List Text} {rs : List Record} (h : readRecords ts = .ok rs) :
    (ofRecords rs).HasEditsOf ts := by
  obtain ⟨hall, hrs⟩ := readRecords_eq_ok_iff.mp h
  have hkept : ∀ t ∈ ts.eraseDups, ∃ r, Record.parse t = .ok r := fun t ht =>
    hall t (List.mem_eraseDups.mp ht)
  refine ⟨pairwise_names_ofRecords rs, fun name => ?_, fun f hf => ?_⟩
  · rw [mem_names_ofRecords]
    constructor
    · rintro ⟨r, hr, hname⟩
      obtain ⟨t, ht, hparse⟩ := exists_of_mem_readRecords h hr
      exact ⟨t, ht, ((decodes_of_parse hparse).names_iff name).mpr hname⟩
    · rintro ⟨t, ht, hname⟩
      obtain ⟨r, hparse⟩ := hall t ht
      refine ⟨r, ?_, ((decodes_of_parse hparse).names_iff name).mp hname⟩
      rw [hrs, List.mem_filterMap]
      exact ⟨t, List.mem_eraseDups.mpr ht, by rw [hparse]; rfl⟩
  · have hpatch := eq_patchFor_of_mem hf
    rw [patchFor_eq_filter, hrs, filter_file_eq hkept, filter_eraseDups] at hpatch
    refine ⟨_, forall₂_decodes fun t ht => ?_, congrArg FilePatch.replacements hpatch,
      congrArg FilePatch.headers hpatch⟩
    exact hall t (List.mem_of_mem_filter (List.mem_eraseDups.mp ht))

end PatchSet

/-! ## Streams -/

open EditStream

/-- The lines of a stream as a reader sees them. -/
def EditStream.seenLines (stream : Text) : List Text := (Text.lines stream).map Text.dropReturn

/-- How a stream is read all of whose lines fit. -/
theorem EditStream.parse_of_fit {stream : Text}
    (hfit : ∀ line ∈ Text.lines stream, line.length < lineLimit) :
    Text.readLines lineLimit stream = (seenLines stream, false) := by
  have hwhile : (Text.lines stream).takeWhile (fun line => line.length < lineLimit)
      = Text.lines stream :=
    List.takeWhile_eq_self_iff.mpr fun line hline => by simpa using hfit line hline
  have hany : (Text.lines stream).any (fun line => lineLimit ≤ line.length) = false := by
    rw [List.any_eq_false]
    intro line hline
    simpa using hfit line hline
  unfold Text.readLines seenLines
  simp only [hwhile, hany]

/-- A stream all of whose lines fit is refused exactly if an end mark has no beginning or a
record between the marks of a block is malformed. Otherwise it has the edits of the records of
its complete blocks. -/
theorem parse_keeps_complete_blocks {stream : Text}
    (hfit : ∀ line ∈ Text.lines stream, line.length < lineLimit) :
    ((∃ e, PatchSet.parse stream = .error e) ↔
      (∃ i, (seenLines stream)[i]? = some endMark ∧ ¬ IsMatched (seenLines stream) i) ∨
        ∃ t ∈ (matchedBlocks (seenLines stream)).flatten, Malformed t) ∧
      ∀ set, PatchSet.parse stream = .ok set →
        set.HasEditsOf (matchedBlocks (seenLines stream)).flatten := by
  obtain ⟨hunmatched, hblocks⟩ := completeFrom_eq_matchedBlocks (seenLines stream)
  -- A stream is read if all ends are matched and all records of their blocks can be read.
  have hok : ∀ set, PatchSet.parse stream = .ok set ↔
      (∀ i, (seenLines stream)[i]? = some endMark → IsMatched (seenLines stream) i) ∧
        ∃ rs, readRecords (matchedBlocks (seenLines stream)).flatten = .ok rs ∧
          PatchSet.ofRecords rs = set := by
    intro set
    rw [PatchSet.parse_eq_ok_iff]
    simp only [EditStream.parse_eq_ok_iff, parse_of_fit hfit, true_and, hunmatched]
    constructor
    · rintro ⟨rs, ⟨hmatched, hread⟩, hset⟩
      rw [hblocks hmatched] at hread
      exact ⟨hmatched, rs, hread, hset⟩
    · rintro ⟨hmatched, rs, hread, hset⟩
      rw [← hblocks hmatched] at hread
      exact ⟨rs, ⟨hmatched, hread⟩, hset⟩
  constructor
  · have hfails : (∃ e, PatchSet.parse stream = .error e) ↔
        ¬ ∃ set, PatchSet.parse stream = .ok set := by
      cases PatchSet.parse stream <;> simp
    have hgood : (∃ rs, readRecords (matchedBlocks (seenLines stream)).flatten = .ok rs) ↔
        ∀ t ∈ (matchedBlocks (seenLines stream)).flatten, ¬ Malformed t := by
      simp only [readRecords_eq_ok_iff, exists_and_left, exists_eq, and_true, exists_parse_iff]
    rw [hfails]
    simp only [hok]
    rw [exists_and_left, exists_comm]
    simp only [exists_and_left, exists_eq', and_true, hgood]
    rw [not_and_or]
    simp only [not_forall, not_not, exists_prop]
  · intro set hset
    obtain ⟨-, rs, hread, rfl⟩ := (hok set).mp hset
    exact PatchSet.hasEditsOf_ofRecords hread

/-- A stream with lines outside blocks, a block begun anew, a carriage return behind an end mark, a
record that comes twice and a block without an end. -/
def EditStream.mixedStream : Text :=
  "x\n==== BEGIN EDITS ====\nr:::a:::1:::1:::lost\n==== BEGIN EDITS ====\n" ++
    "r:::b:::-0:::+2:::p:::q\ninclude-user-header:::c:::-1:::-1:::h\n" ++
    "r:::b:::-0:::+2:::p:::q\n==== END EDITS ====\r\n" ++
    "r:::d:::1:::1:::y\n==== BEGIN EDITS ====\nr:::e:::0:::0:::z"

/-- The second of three blocks is kept, and each of its records once. -/
theorem parse_keeps_complete_blocks_mixed :
    (∀ line ∈ Text.lines mixedStream, line.length < lineLimit) ∧
      ∃ set, PatchSet.parse mixedStream = .ok set ∧
        set.files.map FilePatch.name = ["b", "c"] ∧
        set.HasEditsOf ["r:::b:::-0:::+2:::p:::q", "include-user-header:::c:::-1:::-1:::h",
          "r:::b:::-0:::+2:::p:::q"] := by
  have hfit : ∀ line ∈ Text.lines mixedStream, line.length < lineLimit := by decide
  have hraw : (matchedBlocks (seenLines mixedStream)).flatten =
      [Text.ofString "r:::b:::-0:::+2:::p:::q",
        Text.ofString "include-user-header:::c:::-1:::-1:::h",
        Text.ofString "r:::b:::-0:::+2:::p:::q"] := by decide
  have hparse : PatchSet.parse mixedStream = .ok _ :=
    PatchSet.parse_of_pairwise [.replace ⟨"b", 0, 2, "p:::q", false⟩, .header "c" "h"]
      rfl (by decide)
  have hedits := (parse_keeps_complete_blocks hfit).2 _ hparse
  rw [hraw] at hedits
  exact ⟨hfit, _, hparse, by decide, hedits⟩

end PointerMigration
