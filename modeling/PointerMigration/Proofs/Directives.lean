/-
# Directives of a text

A directive starts at the start of a line and ends at the end of one, and its name may run over
several lines. Directives are looked for from left to right: each one that counts is the first that
starts where the last one ended or behind. So a bracket that is not closed on its line can take the
lines behind it into the name, and a directive on one of them does not count. Main statement:
`exists_found_iff`, reading line by line finds these directives.
-/
import PointerMigration.Edit.Directive
import Mathlib.Data.List.TakeWhile

namespace PointerMigration.Directive

/-! ## The form of a directive -/

/-- A run of spaces and tabs. -/
def Blank (t : Text) : Prop := ∀ b ∈ t, b = 32 ∨ b = 9

/-- A text without a quote or a closing bracket. -/
def Unclosed (t : Text) : Prop := 34 ∉ t ∧ 62 ∉ t

/-- The front of a directive: the number sign, the word and the opening bracket or quote, with
blanks before each. -/
inductive Opens : Text → Prop where
  | intro {indent gap space : Text} {mark : UInt8} (hindent : Blank indent) (hgap : Blank gap)
      (hspace : Blank space) (hmark : mark = 60 ∨ mark = 34) :
      Opens (indent ++ 35 :: (gap ++ (word ++ (space ++ [mark]))))

/-- A directive for a header: the front, the header, the first closing bracket or quote and
the rest of its line. -/
inductive IsDirective : Text → Text → Prop where
  | intro {front header tail : Text} {close : UInt8} (hfront : Opens front)
      (hheader : Unclosed header)
      (hclose : close = 34 ∨ close = 62) (htail : Text.newline ∉ tail) :
      IsDirective (front ++ (header ++ close :: tail)) header

/-- What follows a text is at the start of a line. -/
def StartsLine (before : Text) : Prop := ∀ b ∈ before.getLast?, b = Text.newline

/-- What precedes a text is at the end of a line. -/
def EndsLine (after : Text) : Prop := ∀ b ∈ after.head?, b = Text.newline

theorem forall_isBlank_iff {t : Text} : (∀ b ∈ t, isBlank b) ↔ Blank t := by
  simp [isBlank, Blank]

theorem isOpening_iff {b : UInt8} : isOpening b ↔ b = 60 ∨ b = 34 := by
  simp [isOpening]

theorem isClosing_iff {b : UInt8} : isClosing b ↔ b = 34 ∨ b = 62 := by
  simp [isClosing, or_comm]

theorem forall_not_isClosing_iff {t : Text} : (∀ b ∈ t, !isClosing b) ↔ Unclosed t := by
  constructor
  · intro h
    exact ⟨fun hmem => absurd (h _ hmem) (by decide), fun hmem => absurd (h _ hmem) (by decide)⟩
  · rintro ⟨hquote, hbracket⟩ b hb
    have hne : ¬ (b = 34 ∨ b = 62) := by
      rintro (rfl | rfl)
      · exact hquote hb
      · exact hbracket hb
    rw [← isClosing_iff] at hne
    simpa using hne

theorem startsLine_nil : StartsLine [] := by
  rintro b ⟨⟩

/-- A newline starts a line, which further lines can follow. -/
theorem StartsLine.append_cons {front : Text} (h : StartsLine front) (line : Text) :
    StartsLine (line ++ Text.newline :: front) := by
  intro b hb
  rw [List.getLast?_append, List.getLast?_cons] at hb
  cases hlast : front.getLast? with
  | none =>
      rw [hlast] at hb
      cases hb
      rfl
  | some c =>
      rw [hlast] at hb
      cases hb
      exact h _ hlast

theorem endsLine_cons (t : Text) : EndsLine (Text.newline :: t) := by
  rintro b ⟨⟩
  rfl

/-- Where a line ends before the text does, a newline follows. -/
theorem EndsLine.exists_eq_cons {rest : Text} (h : EndsLine rest) (hne : rest ≠ []) :
    ∃ t, rest = Text.newline :: t := by
  obtain ⟨b, t, rfl⟩ := List.exists_cons_of_ne_nil hne
  exact ⟨t, by rw [h b rfl]⟩

/-- The longest run of bytes that pass a test, and the rest. -/
theorem takeWhile_dropWhile_iff {p : UInt8 → Bool} {t run rest : Text} :
    t.takeWhile p = run ∧ t.dropWhile p = rest ↔
      (∀ b ∈ run, p b) ∧ (∀ b ∈ rest.head?, p b = false) ∧ t = run ++ rest := by
  constructor
  · rintro ⟨rfl, rfl⟩
    refine ⟨fun b hb => List.mem_takeWhile_imp hb, ?_, List.takeWhile_append_dropWhile.symm⟩
    intro b hb
    have hhead := List.head?_dropWhile_not p t
    rw [Option.mem_def.mp hb] at hhead
    exact hhead
  · rintro ⟨hrun, hrest, rfl⟩
    rw [List.takeWhile_append_of_pos hrun, List.dropWhile_append_of_pos hrun]
    cases rest with
    | nil => exact ⟨List.append_nil run, rfl⟩
    | cons b rest =>
        have hb : ¬ p b = true := by simp [hrest b rfl]
        rw [List.takeWhile_cons_of_neg hb, List.dropWhile_cons_of_neg hb, List.append_nil]
        exact ⟨rfl, rfl⟩

/-- Blanks are skipped up to the first other byte. -/
theorem skipBlanks_eq_iff {t rest : Text} :
    skipBlanks t = rest ↔ (∀ b ∈ rest.head?, isBlank b = false) ∧
      ∃ blanks, Blank blanks ∧ t = blanks ++ rest := by
  constructor
  · intro h
    obtain ⟨hblanks, hrest, ht⟩ := takeWhile_dropWhile_iff.mp ⟨rfl, h⟩
    exact ⟨hrest, _, forall_isBlank_iff.mp hblanks, ht⟩
  · rintro ⟨hrest, blanks, hblanks, ht⟩
    exact (takeWhile_dropWhile_iff.mpr ⟨forall_isBlank_iff.mpr hblanks, hrest, ht⟩).2

/-- The front of a directive is read in three steps. -/
theorem afterOpening?_eq_some_iff_steps {t rest : Text} :
    afterOpening? t = some rest ↔ ∃ u v mark, skipBlanks t = 35 :: u ∧ skipBlanks u = word ++ v ∧
      skipBlanks v = mark :: rest ∧ (mark = 60 ∨ mark = 34) := by
  unfold afterOpening?
  constructor
  · intro h
    split at h
    · cases h
    · next sign u hsign =>
        split at h
        · cases h
        · next hnumber =>
            simp only at h
            split at h
            · cases h
            · next hword =>
                obtain ⟨v, hv⟩ : word <+: skipBlanks u := by simpa using hword
                rw [← hv, List.drop_left] at h
                split at h
                · cases h
                · next mark w hmark =>
                    split at h
                    · next hopening =>
                        cases h
                        have hsign35 : sign = 35 := by simpa using hnumber
                        exact ⟨u, v, mark, hsign35 ▸ hsign, hv.symm, hmark,
                          isOpening_iff.mp hopening⟩
                    · cases h
  · rintro ⟨u, v, mark, hu, hv, hmark, hopening⟩
    have hword : word.isPrefixOf (word ++ v) = true :=
      List.isPrefixOf_iff_prefix.mpr (List.prefix_append word v)
    simp [hu, hv, hword, hmark, isOpening_iff.mpr hopening]

/-- The front of a directive is found exactly where one is. -/
theorem afterOpening?_eq_some_iff {t rest : Text} :
    afterOpening? t = some rest ↔ ∃ front, Opens front ∧ t = front ++ rest := by
  rw [afterOpening?_eq_some_iff_steps]
  constructor
  · rintro ⟨u, v, mark, hu, hv, hmark, hopening⟩
    obtain ⟨-, indent, hindent, rfl⟩ := skipBlanks_eq_iff.mp hu
    obtain ⟨-, gap, hgap, rfl⟩ := skipBlanks_eq_iff.mp hv
    obtain ⟨-, space, hspace, rfl⟩ := skipBlanks_eq_iff.mp hmark
    exact ⟨_, .intro hindent hgap hspace hopening, by simp⟩
  · rintro ⟨_, @⟨indent, gap, space, mark, hindent, hgap, hspace, hopening⟩, rfl⟩
    have hblank : isBlank mark = false := by
      rcases hopening with rfl | rfl
      · rfl
      · rfl
    refine ⟨gap ++ (word ++ (space ++ mark :: rest)), space ++ mark :: rest, mark,
      skipBlanks_eq_iff.mpr ⟨?_, _, hindent, by simp⟩, skipBlanks_eq_iff.mpr ⟨?_, _, hgap, rfl⟩,
      skipBlanks_eq_iff.mpr ⟨?_, _, hspace, rfl⟩, hopening⟩
    · rintro b ⟨⟩
      rfl
    · rintro b ⟨⟩
      rfl
    · rintro b ⟨⟩
      exact hblank

/-- The first line of a text, and the rest. -/
theorem firstLine_iff {t line rest : Text} :
    t.takeWhile (· != Text.newline) = line ∧ t.dropWhile (· != Text.newline) = rest ↔
      Text.newline ∉ line ∧ EndsLine rest ∧ t = line ++ rest := by
  have hline : (∀ b ∈ line, (b != Text.newline) = true) ↔ Text.newline ∉ line := by
    simp only [bne_iff_ne]
    exact ⟨fun h hmem => h _ hmem rfl, fun h b hb hnewline => h (hnewline ▸ hb)⟩
  rw [takeWhile_dropWhile_iff, hline, EndsLine]
  simp only [bne_eq_false_iff_eq]

/-- Every text is its first line and the rest. -/
theorem exists_firstLine (t : Text) :
    ∃ line rest, Text.newline ∉ line ∧ EndsLine rest ∧ t = line ++ rest :=
  ⟨_, _, firstLine_iff.mp ⟨rfl, rfl⟩⟩

/-- A directive is read exactly where one is, with what follows its last line. -/
theorem atLine?_eq_some_iff {t header rest : Text} :
    atLine? t = some (header, rest) ↔
      ∃ body, IsDirective body header ∧ EndsLine rest ∧ t = body ++ rest := by
  constructor
  · intro h
    obtain ⟨u, hu, hread⟩ := Option.bind_eq_some_iff.mp h
    obtain ⟨front, hfront, rfl⟩ := afterOpening?_eq_some_iff.mp hu
    split at hread
    · cases hread
    · next close v hclose =>
        cases hread
        obtain ⟨hheader, hclosing, hu⟩ := takeWhile_dropWhile_iff.mp ⟨rfl, hclose⟩
        obtain ⟨htail, hend, hv⟩ := firstLine_iff.mp ⟨rfl, rfl⟩
        have hbody := IsDirective.intro hfront (forall_not_isClosing_iff.mp hheader)
          (isClosing_iff.mp (by simpa using hclosing close rfl)) htail
        refine ⟨_, hbody, hend, ?_⟩
        simp [← hv, ← hu]
  · rintro ⟨_, @⟨front, header, tail, close, hfront, hheader, hclose, htail⟩, hend, rfl⟩
    have hopening : afterOpening? (front ++ (header ++ close :: tail) ++ rest)
        = some (header ++ close :: (tail ++ rest)) :=
      afterOpening?_eq_some_iff.mpr ⟨front, hfront, by simp⟩
    obtain ⟨hname, hclosing⟩ := takeWhile_dropWhile_iff.mpr
      (⟨forall_not_isClosing_iff.mpr hheader, by simpa using isClosing_iff.mpr hclose, rfl⟩ :
        _ ∧ (∀ b ∈ (close :: (tail ++ rest)).head?, _) ∧ _)
    have hline : (tail ++ rest).dropWhile (· != Text.newline) = rest :=
      (firstLine_iff.mpr ⟨htail, hend, rfl⟩).2
    show (afterOpening? _).bind _ = _
    rw [hopening, Option.bind_some, hclosing]
    simp only [hname, hline]
    rfl

/-- No directive is read where no bracket opens, or none closes behind. -/
theorem atLine?_eq_none_iff {t : Text} :
    atLine? t = none ↔ ∀ front rest, Opens front → t = front ++ rest → Unclosed rest := by
  constructor
  · rintro hnone front rest hfront rfl
    rw [← forall_not_isClosing_iff, ← List.dropWhile_eq_nil_iff]
    by_contra hne
    obtain ⟨close, v, hclose⟩ := List.exists_cons_of_ne_nil hne
    obtain ⟨hheader, hclosing, hrest⟩ := takeWhile_dropWhile_iff.mp ⟨rfl, hclose⟩
    obtain ⟨tail, after, htail, hend, rfl⟩ := exists_firstLine v
    have hbody := IsDirective.intro hfront (forall_not_isClosing_iff.mp hheader)
      (isClosing_iff.mp (by simpa using hclosing close rfl)) htail
    have hread : atLine? (front ++ rest) = some (_, after) :=
      atLine?_eq_some_iff.mpr ⟨_, hbody, hend, by
        rw [List.append_assoc, List.append_assoc, List.cons_append, ← hrest]⟩
    rw [hnone] at hread
    cases hread
  · intro h
    by_contra hsome
    obtain ⟨⟨header, rest⟩, hread⟩ := Option.ne_none_iff_exists'.mp hsome
    obtain ⟨_, @⟨front, header, tail, close, hfront, -, hclose, -⟩, -, rfl⟩ :=
      atLine?_eq_some_iff.mp hread
    obtain ⟨hquote, hbracket⟩ := h front _ hfront (List.append_assoc _ _ _)
    rcases hclose with rfl | rfl
    · exact hquote (by simp)
    · exact hbracket (by simp)

/-- The front of a directive is on one line. -/
theorem Opens.newline_notMem {front : Text} (h : Opens front) : Text.newline ∉ front := by
  obtain @⟨indent, gap, space, mark, hindent, hgap, hspace, hmark⟩ := h
  have hblank : ∀ run : Text, Blank run → Text.newline ∉ run :=
    fun run hrun hmem => absurd (hrun _ hmem) (by decide)
  have hopening : Text.newline ≠ mark := by
    rintro rfl
    exact absurd hmark (by decide)
  have hword : Text.newline ∉ word := by decide
  have hsign : Text.newline ≠ 35 := by decide
  simp [hblank indent hindent, hblank gap hgap, hblank space hspace, hopening, hword, hsign]

theorem IsDirective.ne_nil {body header : Text} (h : IsDirective body header) : body ≠ [] := by
  obtain ⟨-, -, -, -⟩ := h
  simp

/-- No line starts behind bytes without a newline. -/
theorem not_startsLine_append {before part : Text} (hne : part ≠ []) (h : Text.newline ∉ part) :
    ¬ StartsLine (before ++ part) := by
  intro hstart
  have hlast : part.getLast hne = Text.newline := by
    apply hstart
    rw [List.getLast?_append, List.getLast?_eq_some_getLast hne]
    rfl
  exact h (hlast ▸ List.getLast_mem hne)

/-- A directive does not end in a newline. -/
theorem IsDirective.not_startsLine {body header : Text} (h : IsDirective body header)
    (before : Text) :
    ¬ StartsLine (before ++ body) := by
  obtain @⟨front, header, tail, close, -, -, hclose, htail⟩ := h
  rw [← List.append_assoc, ← List.append_assoc]
  refine not_startsLine_append (List.cons_ne_nil close tail) fun hmem => ?_
  rcases List.mem_cons.mp hmem with rfl | hmem
  · exact absurd hclose (by decide)
  · exact htail hmem

/-- Behind the newline that ends a line the next one starts, if there is one. -/
theorem startsLine_append_take {rest : Text} (hrest : EndsLine rest) (before : Text) :
    rest.drop 1 = [] ∨ StartsLine (before ++ rest.take 1) := by
  cases rest with
  | nil => exact .inl rfl
  | cons b rest =>
      obtain rfl : b = Text.newline := hrest b rfl
      exact .inr (startsLine_nil.append_cons before)

/-! ## Reading line by line -/

/-- A text whose first line is not read as a directive goes on with the next line. -/
theorem nextLine_append {line rest : Text} (hline : Text.newline ∉ line) (hrest : EndsLine rest) :
    nextLine (line ++ rest) = rest.drop 1 := by
  rw [nextLine, (firstLine_iff.mpr ⟨hline, hrest, rfl⟩).2]

/-- The text behind the first line is shorter. -/
theorem length_nextLine_lt {t : Text} (h : t ≠ []) : (nextLine t).length < t.length := by
  obtain ⟨line, rest, hline, hrest, rfl⟩ := exists_firstLine t
  have hpos := List.length_pos_iff.mpr h
  rw [nextLine_append hline hrest, List.length_drop]
  rw [List.length_append] at hpos ⊢
  omega

/-- The text behind a directive is shorter. -/
theorem length_drop_lt_of_atLine? {t header rest : Text} (h : atLine? t = some (header, rest)) :
    (rest.drop 1).length < t.length := by
  obtain ⟨body, hbody, -, rfl⟩ := atLine?_eq_some_iff.mp h
  have hpos := List.length_pos_iff.mpr hbody.ne_nil
  rw [List.length_drop, List.length_append]
  omega

/-- Fuel beyond the length of the text makes no difference. -/
theorem allFrom_eq_allFrom {m n : Nat} {t : Text} (hm : t.length < m) (hn : t.length < n) :
    allFrom m t = allFrom n t := by
  induction m generalizing n t with
  | zero => omega
  | succ m ih =>
      obtain ⟨n, rfl⟩ : ∃ k, n = k + 1 := ⟨n - 1, by omega⟩
      cases t with
      | nil => rfl
      | cons b t =>
          simp only [allFrom]
          split
          · next header rest hread =>
              have hlt := length_drop_lt_of_atLine? hread
              rw [ih (n := n) (by omega) (by omega)]
          · have hlt := length_nextLine_lt (List.cons_ne_nil b t)
            exact ih (by omega) (by omega)

section

variable {line body header rest : Text}

/-- A directive at the front is read first, and then those from the next line. -/
theorem all_directive (hbody : IsDirective body header) (hrest : EndsLine rest) :
    all (body ++ rest) = (header, rest.drop 1) :: all (rest.drop 1) := by
  have hread := atLine?_eq_some_iff.mpr ⟨body, hbody, hrest, rfl⟩
  have hlt := length_drop_lt_of_atLine? hread
  rw [all]
  obtain ⟨b, t, ht⟩ :=
    List.exists_cons_of_ne_nil (List.append_ne_nil_of_left_ne_nil hbody.ne_nil rest)
  rw [ht] at hread hlt ⊢
  rw [allFrom, hread]
  exact congrArg _ (allFrom_eq_allFrom hlt (Nat.lt_succ_self _))

/-- A line that no directive starts is passed. -/
theorem all_line (hline : Text.newline ∉ line) (hrest : EndsLine rest)
    (hnone : atLine? (line ++ rest) = none) : all (line ++ rest) = all (rest.drop 1) := by
  rw [← nextLine_append hline hrest, all]
  cases ht : line ++ rest with
  | nil => rfl
  | cons b t =>
      rw [ht] at hnone
      rw [allFrom, hnone]
      exact allFrom_eq_allFrom (length_nextLine_lt (List.cons_ne_nil b t)) (Nat.lt_succ_self _)

end

/-- Induction over the directives and the other lines of a text. -/
theorem all_induction {motive : Text → Prop} (nil : motive [])
    (directive : ∀ body header rest, IsDirective body header → EndsLine rest →
      motive (rest.drop 1) → motive (body ++ rest))
    (line : ∀ line rest, Text.newline ∉ line → EndsLine rest → atLine? (line ++ rest) = none →
      motive (rest.drop 1) → motive (line ++ rest)) (t : Text) :
    motive t := by
  induction hn : t.length using Nat.strong_induction_on generalizing t with
  | _ n ih =>
    subst hn
    cases hread : atLine? t with
    | some found =>
        have hrest := ih _ (length_drop_lt_of_atLine? hread) _ rfl
        obtain ⟨body, hbody, hend, ht⟩ := atLine?_eq_some_iff.mp hread
        rw [ht]
        exact directive _ _ _ hbody hend hrest
    | none =>
        by_cases hne : t = []
        · exact hne ▸ nil
        · have hrest := ih _ (length_nextLine_lt hne) _ rfl
          obtain ⟨_, _, hline, hend, rfl⟩ := exists_firstLine t
          rw [nextLine_append hline hend] at hrest
          exact line _ _ hline hend hread hrest

/-! ## Searching from left to right -/

/-- A part of a text that is a directive: where it starts, where it stops, and its header. -/
@[ext]
structure Span where
  start : Nat
  stop : Nat
  header : Text

/-- A text has a directive there, which takes up whole lines. -/
def Span.IsIn (m : Span) (t : Text) : Prop :=
  ∃ before body after, StartsLine before ∧ IsDirective body m.header ∧ EndsLine after ∧
    m.start = before.length ∧ m.stop = (before ++ body).length ∧ t = before ++ (body ++ after)

/-- The directives that are found from an offset on: the first that starts there or behind, and
those that are found from its end on. -/
inductive Found (t : Text) : Nat → List Span → Prop where
  | none {offset : Nat} (h : ∀ m : Span, m.IsIn t → m.start < offset) : Found t offset []
  | some {offset : Nat} {m : Span} {ms : List Span} (hin : m.IsIn t) (hoffset : offset ≤ m.start)
      (hfirst : ∀ n : Span, n.IsIn t → offset ≤ n.start → m.start ≤ n.start)
      (hrest : Found t m.stop ms) : Found t offset (m :: ms)

namespace Span

variable {m n : Span} {t : Text}

/-- Directives in a text are read from their lines. -/
theorem IsIn.read (h : m.IsIn t) :
    StartsLine (t.take m.start) ∧ atLine? (t.drop m.start) = some (m.header, t.drop m.stop) ∧
      m.start < m.stop ∧ m.stop ≤ t.length := by
  obtain ⟨before, body, after, hstart, hbody, hend, hm, hn, rfl⟩ := h
  have hpos := List.length_pos_iff.mpr hbody.ne_nil
  refine ⟨?_, ?_, ?_, ?_⟩
  · rwa [hm, List.take_left]
  · rw [hm, hn, List.drop_left, ← List.append_assoc, List.drop_left]
    exact atLine?_eq_some_iff.mpr ⟨body, hbody, hend, rfl⟩
  · rw [hm, hn, List.length_append]
    omega
  · rw [hn, List.length_append, List.length_append, List.length_append]
    omega

/-- At most one directive starts at an offset. -/
theorem IsIn.eq_of_start (hm : m.IsIn t) (hn : n.IsIn t) (h : m.start = n.start) : m = n := by
  obtain ⟨-, hreadm, -, hlem⟩ := hm.read
  obtain ⟨-, hreadn, -, hlen⟩ := hn.read
  rw [h, hreadn] at hreadm
  obtain ⟨hheader, hdrop⟩ := Prod.mk.inj (Option.some.inj hreadm)
  have hlength := congrArg List.length hdrop
  rw [List.length_drop, List.length_drop] at hlength
  exact Span.ext h (by omega) hheader.symm

/-- No directive starts inside a line or at its end. -/
theorem IsIn.start_cases {before line rest : Text} (hline : Text.newline ∉ line)
    (h : m.IsIn (before ++ (line ++ rest))) (hstart : before.length ≤ m.start) :
    m.start = before.length ∨ (before ++ line ++ rest.take 1).length ≤ m.start := by
  by_contra hinside
  obtain ⟨hne, hlt⟩ := not_or.mp hinside
  simp only [List.length_append, List.length_take] at hlt
  have hzero : m.start - before.length - line.length = 0 := by omega
  have htake : (before ++ (line ++ rest)).take m.start
      = before ++ line.take (m.start - before.length) := by
    rw [List.take_append, List.take_append, List.take_of_length_le hstart, hzero, List.take_zero,
      List.append_nil]
  refine not_startsLine_append ?_ (fun hmem => hline (List.mem_of_mem_take hmem)) (htake ▸ h.read.1)
  apply List.ne_nil_of_length_pos
  rw [List.length_take]
  omega

end Span

/-- There is one list of the directives of a text. -/
theorem Found.unique {t : Text} {offset : Nat} {ms ns : List Span} (hm : Found t offset ms)
    (hn : Found t offset ns) : ms = ns := by
  induction hm generalizing ns with
  | none h =>
      cases hn with
      | none => rfl
      | some hin hoffset => exact absurd (h _ hin) (Nat.not_lt.mpr hoffset)
  | some hin hoffset hfirst _ ih =>
      cases hn with
      | none h => exact absurd (h _ hin) (Nat.not_lt.mpr hoffset)
      | some hin' hoffset' hfirst' hrest' =>
          have hsame := hin.eq_of_start hin'
            (Nat.le_antisymm (hfirst _ hin' hoffset') (hfirst' _ hin hoffset))
          subst hsame
          rw [ih hrest']

/-- Nothing is lost if the search starts later and no directive starts before. -/
theorem Found.of_le {t : Text} {offset later : Nat} {ms : List Span} (h : Found t later ms)
    (hle : offset ≤ later) (hnone : ∀ m : Span, m.IsIn t → offset ≤ m.start → later ≤ m.start) :
    Found t offset ms := by
  cases h with
  | none h =>
      refine .none fun m hm => Nat.lt_of_not_le fun hstart => ?_
      exact absurd (h m hm) (Nat.not_lt.mpr (hnone m hm hstart))
  | some hin hoffset hfirst hrest =>
      exact .some hin (hle.trans hoffset) (fun n hn hstart => hfirst n hn (hnone n hn hstart)) hrest

/-- What is found is in the text. -/
theorem Found.isIn {t : Text} {offset : Nat} {ms : List Span} (h : Found t offset ms) :
    ∀ m ∈ ms, m.IsIn t := by
  induction h with
  | none => simp
  | some hin _ _ _ ih => exact List.forall_mem_cons.mpr ⟨hin, ih⟩

/-- The last directive that is found ends behind all others. -/
theorem Found.stop_le_getLast {t : Text} {offset : Nat} {ms : List Span}
    (h : Found t offset ms) {l : Span} (hl : ms.getLast? = Option.some l) :
    offset ≤ l.stop ∧ ∀ m ∈ ms, m.stop ≤ l.stop := by
  induction h with
  | none => cases hl
  | @some offset m ms hin hoffset _ _ ih =>
      have hlt := hin.read.2.2.1
      cases hlast : ms.getLast? with
      | none =>
          rw [List.getLast?_eq_none_iff.mp hlast] at hl ⊢
          obtain rfl : m = l := Option.some.inj hl
          exact ⟨by omega, by simp⟩
      | some l' =>
          rw [List.getLast?_cons, hlast] at hl
          cases hl
          obtain ⟨hle, hall⟩ := ih hlast
          refine ⟨by omega, fun n hn => ?_⟩
          rcases List.mem_cons.mp hn with rfl | hn
          · exact hle
          · exact hall n hn

/-- What is read at a directive: its header, and what follows its last line. -/
def Span.entry (t : Text) (m : Span) : Text × Text := (m.header, t.drop (m.stop + 1))

/-- Reading line by line finds the directives that a search from the start of a line finds. -/
theorem exists_found (before t : Text) (h : t = [] ∨ StartsLine before) :
    ∃ ms, Found (before ++ t) before.length ms ∧ all t = ms.map (Span.entry (before ++ t)) := by
  -- Offsets count from the start of the whole text, so the part that was read moves into `before`.
  induction t using all_induction generalizing before with
  | nil =>
      refine ⟨[], .none fun m hm => ?_, rfl⟩
      obtain ⟨-, -, hlt, hle⟩ := hm.read
      rw [List.append_nil] at hle
      omega
  | directive body header rest hbody hend ih =>
      obtain ⟨ms, hfound, hread⟩ :=
        ih (before ++ body ++ rest.take 1) (startsLine_append_take hend _)
      rw [List.append_assoc (before ++ body), List.take_append_drop, List.append_assoc]
        at hfound hread
      have hbefore : StartsLine before :=
        h.resolve_left (List.append_ne_nil_of_left_ne_nil hbody.ne_nil rest)
      let m : Span := ⟨before.length, (before ++ body).length, header⟩
      have hin : m.IsIn (before ++ (body ++ rest)) :=
        ⟨before, body, rest, hbefore, hbody, hend, rfl, rfl, rfl⟩
      refine ⟨m :: ms, .some hin (Nat.le_refl _) (fun n _ hstart => hstart) ?_, ?_⟩
      · -- A directive that starts right at the end of this one would start inside a line.
        refine hfound.of_le (by simp [m]) fun n hn hstart => ?_
        rw [← List.append_assoc, ← List.nil_append rest] at hn
        have hcases := hn.start_cases List.not_mem_nil hstart
        rw [List.append_nil] at hcases
        refine hcases.resolve_left fun heq => hbody.not_startsLine before ?_
        have hline := hn.read.1
        rwa [heq, List.take_left] at hline
      · rw [all_directive hbody hend, hread, List.map_cons, Span.entry, ← List.append_assoc before,
          ← List.drop_drop, List.drop_left]
  | line line rest hline hend hnone ih =>
      obtain ⟨ms, hfound, hread⟩ :=
        ih (before ++ line ++ rest.take 1) (startsLine_append_take hend _)
      rw [List.append_assoc (before ++ line), List.take_append_drop, List.append_assoc]
        at hfound hread
      refine ⟨ms, hfound.of_le (by simp) fun m hm hstart => ?_,
        (all_line hline hend hnone).trans hread⟩
      refine (hm.start_cases hline hstart).resolve_left fun heq => ?_
      have hfirst := hm.read.2.1
      rw [heq, List.drop_left, hnone] at hfirst
      cases hfirst

/-- The directives that a search finds in a text are determined, and they are those that are
read. -/
theorem exists_found_iff (t : Text) :
    ∃ ms, (∀ ns, Found t 0 ns ↔ ns = ms) ∧ all t = ms.map (Span.entry t) := by
  obtain ⟨ms, hfound, hread⟩ := exists_found [] t (.inr startsLine_nil)
  exact ⟨ms, fun ns => ⟨fun hns => hns.unique hfound, fun hns => hns ▸ hfound⟩, hread⟩

end PointerMigration.Directive
