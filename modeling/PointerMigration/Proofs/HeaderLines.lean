/-
# Lines for headers

The lines that a patch adds for its headers are put in one place, behind every directive of the
text. They are found there again, because no bracket before that place is open: an open bracket
would have reached a closing one in a later directive, and the leading comments hold no directive.
So a second patch with the same headers adds nothing.
-/
import PointerMigration.Proofs.Directives
import PointerMigration.Proofs.NewText

namespace PointerMigration

namespace Directive

/-! ## Headers that are included -/

/-- The headers that the directives of a text include. -/
def included (t : Text) : List Text := (all t).map Prod.fst

section

variable {line body header rest : Text}

theorem included_directive (hbody : IsDirective body header) (hrest : EndsLine rest) :
    included (body ++ rest) = header :: included (rest.drop 1) := by
  rw [included, all_directive hbody hrest, List.map_cons, included]

theorem included_line (hline : Text.newline ∉ line) (hrest : EndsLine rest)
    (hnone : atLine? (line ++ rest) = none) : included (line ++ rest) = included (rest.drop 1) := by
  rw [included, all_line hline hrest hnone, included]

end

/-- Nothing is included on a line that has nothing but a comment. -/
theorem included_comment {line : Text} (hline : Text.newline ∉ line) (hcomment : isComment line)
    (t : Text) :
    included (line ++ Text.newline :: t) = included t := by
  have hskip : skipBlanks (line ++ Text.newline :: t) = skipBlanks line ++ Text.newline :: t := by
    rw [skipBlanks, List.dropWhile_append, ← skipBlanks]
    split
    · next hempty =>
        rw [List.isEmpty_iff.mp hempty]
        rfl
    · rfl
  have hnone : atLine? (line ++ Text.newline :: t) = none := by
    rw [atLine?_eq_none_iff]
    intro front rest hfront ht
    obtain ⟨u, v, mark, hsign, -⟩ :=
      afterOpening?_eq_some_iff_steps.mp (afterOpening?_eq_some_iff.mpr ⟨front, hfront, ht⟩)
    rw [hskip] at hsign
    have hcomment' : skipBlanks line = [] ∨ [Text.slash, Text.slash] <+: skipBlanks line := by
      simpa [isComment] using hcomment
    rcases hcomment' with hempty | ⟨w, hw⟩
    · rw [hempty] at hsign
      cases hsign
    · rw [← hw] at hsign
      cases hsign
  exact included_line hline (endsLine_cons t) hnone

theorem opens_line : Opens ("#include \"" : Text) :=
  @Opens.intro [] [] [32] 34 (List.forall_mem_nil _) (List.forall_mem_nil _)
    (List.forall_mem_singleton.mpr (.inl rfl)) (.inr rfl)

/-- A line for a header includes that header. -/
theorem included_line_append {header : Text} (hheader : Unclosed header) (t : Text) :
    included (line header ++ t) = header :: included t := by
  have hbody := IsDirective.intro opens_line hheader (.inl rfl) List.not_mem_nil
  have ht := included_directive hbody (endsLine_cons t)
  rw [List.drop_one, List.tail_cons] at ht
  rw [← ht, line]
  simp only [List.append_assoc]
  rfl

/-! ## The place for new lines -/

/-- Where new directives are added to a text: behind the last directive, or else behind the leading
comments. -/
def position (t : Text) : Nat :=
  match (all t).getLast? with
  | some (_, rest) => t.length - rest.length
  | none => t.length - (afterComments t.length t).length

/-- Every header has the same place, unless it is included. -/
theorem place?_eq (t header : Text) :
    place? t header = if header ∈ included t then none else some (position t) := by
  have hany : ((all t).any fun e => e.1 = header) = true ↔ header ∈ included t := by
    simp [included]
  unfold place? position
  simp only [hany]
  cases (all t).getLast? with
  | none => rfl
  | some e => rfl

/-- The newline that ends the last line of a text, if it has none. -/
def lead (front : Text) : Text :=
  if front.getLast?.any (· != Text.newline) then [Text.newline] else []

theorem lead_of_startsLine {front : Text} (h : StartsLine front) : lead front = [] := by
  rw [lead, if_neg]
  cases hlast : front.getLast? with
  | none => exact Bool.false_ne_true
  | some b => simp [h b hlast]

theorem lead_of_not_startsLine {front : Text} (h : ¬ StartsLine front) :
    lead front = [Text.newline] := by
  rw [lead, if_pos]
  by_contra hlast
  refine h fun b hb => ?_
  rw [Option.mem_def.mp hb] at hlast
  simpa using hlast

theorem lead_append {front : Text} (before : Text) (h : front ≠ []) :
    lead (before ++ front) = lead front := by
  rw [lead, lead, List.getLast?_append, List.getLast?_eq_some_getLast h]
  rfl

theorem Unclosed.of_suffix {t u : Text} (h : Unclosed t) (hu : u <:+ t) : Unclosed u :=
  ⟨fun hmem => h.1 (hu.subset hmem), fun hmem => h.2 (hu.subset hmem)⟩

/-- A text with a directive has a quote or a closing bracket. -/
theorem not_unclosed_of_included {t : Text} (h : included t ≠ []) : ¬ Unclosed t := by
  intro hunclosed
  induction t using all_induction with
  | nil => exact h rfl
  | directive body header rest hbody hend ih =>
      obtain @⟨front, header, tail, close, -, -, rfl | rfl, -⟩ := hbody
      · exact hunclosed.1 (by simp)
      · exact hunclosed.2 (by simp)
  | line line rest hline hend hnone ih =>
      rw [included_line hline hend hnone] at h
      exact ih h
        (hunclosed.of_suffix ((List.drop_suffix 1 rest).trans (List.suffix_append line rest)))

/-- A line before a directive does not start one, whatever follows it. -/
theorem atLine?_eq_none_of_included {line u : Text} (hline : Text.newline ∉ line)
    (hnone : atLine? (line ++ Text.newline :: u) = none) (hu : included u ≠ []) (t : Text) :
    atLine? (line ++ Text.newline :: t) = none := by
  rw [atLine?_eq_none_iff] at hnone ⊢
  intro front rest hfront hsplit
  obtain ⟨tail, rfl⟩ : ∃ tail, line = front ++ tail := by
    rcases List.append_eq_append_iff.mp hsplit with ⟨part, hpart, ht⟩ | ⟨tail, htail, -⟩
    · cases part with
      | nil => exact ⟨[], by simpa using hpart.symm⟩
      | cons b part =>
          obtain ⟨rfl, -⟩ := List.cons.inj ht
          exact absurd (by simp [hpart]) hfront.newline_notMem
    · exact ⟨tail, htail⟩
  -- The directive behind has a quote or a closing bracket, which the line would have reached.
  have hunclosed := hnone front _ hfront (List.append_assoc _ _ _)
  exact absurd (hunclosed.of_suffix ⟨tail ++ [Text.newline], by simp⟩) (not_unclosed_of_included hu)

/-- The part of a text in front of the place for new lines. Behind it and an end of line, a text
includes what the whole of the first text includes, and then what it includes itself. -/
structure IsFront (t front rest : Text) : Prop where
  split : t = front ++ rest
  atLine : rest = [] ∨ StartsLine front
  included_append : ∀ u, included (front ++ lead front ++ u) = included t ++ included u

/-- The front of a text is also that of the text behind other lines. -/
theorem IsFront.prepend {t front rest line : Text} {hs : List Text} (h : IsFront t front rest)
    (hne : front ≠ []) (hread : ∀ u, included (line ++ Text.newline :: u) = hs ++ included u) :
    IsFront (line ++ Text.newline :: t) (line ++ Text.newline :: front) rest where
  split := by rw [h.split, List.append_assoc, List.cons_append]
  atLine := h.atLine.imp_right fun hstarts => hstarts.append_cons line
  included_append u := by
    rw [List.append_cons line _ front, lead_append _ hne]
    simp only [List.append_assoc, List.cons_append, List.nil_append]
    rw [hread, hread, ← List.append_assoc front, h.included_append, List.append_assoc]

/-- A directive with nothing included behind it is the front. -/
theorem isFront_directive {body header rest : Text} (hbody : IsDirective body header)
    (hend : EndsLine rest) (hlater : included (rest.drop 1) = []) :
    IsFront (body ++ rest) (body ++ rest.take 1) (rest.drop 1) where
  split := by rw [List.append_assoc, List.take_append_drop]
  atLine := startsLine_append_take hend body
  included_append u := by
    have hlead : body ++ rest.take 1 ++ lead (body ++ rest.take 1) = body ++ [Text.newline] := by
      cases rest with
      | nil =>
          have hopen : ¬ StartsLine body := hbody.not_startsLine []
          rw [List.take_nil, List.append_nil, lead_of_not_startsLine hopen]
      | cons b rest =>
          obtain rfl : b = Text.newline := hend b rfl
          rw [List.take_succ_cons, List.take_zero,
            lead_of_startsLine (startsLine_nil.append_cons body), List.append_nil]
    rw [hlead, List.append_assoc, included_directive hbody hend, hlater]
    exact included_directive hbody (endsLine_cons u)

/-- The part of a text up to its last directive. -/
theorem exists_isFront_of_included {t : Text} (h : included t ≠ []) :
    ∃ front header rest, front ≠ [] ∧ (all t).getLast? = some (header, rest) ∧
      IsFront t front rest := by
  induction t using all_induction with
  | nil => exact absurd rfl h
  | directive body header rest hbody hend ih =>
      have hread : ∀ u, included (body ++ Text.newline :: u) = [header] ++ included u := fun u =>
        included_directive hbody (endsLine_cons u)
      by_cases hlater : included (rest.drop 1) = []
      · refine ⟨_, header, rest.drop 1, List.append_ne_nil_of_left_ne_nil hbody.ne_nil _, ?_,
          isFront_directive hbody hend hlater⟩
        rw [all_directive hbody hend, List.map_eq_nil_iff.mp hlater]
        rfl
      · obtain ⟨front, last, after, hne, hlast, hfront⟩ := ih hlater
        obtain ⟨u, rfl⟩ := hend.exists_eq_cons (by rintro rfl; exact hlater rfl)
        refine ⟨body ++ Text.newline :: front, last, after, by simp, ?_, hfront.prepend hne hread⟩
        rw [all_directive hbody hend, List.getLast?_cons, hlast]
        rfl
  | line line rest hline hend hnone ih =>
      rw [included_line hline hend hnone] at h
      obtain ⟨front, last, after, hne, hlast, hfront⟩ := ih h
      obtain ⟨u, rfl⟩ := hend.exists_eq_cons (by rintro rfl; exact h rfl)
      have hread : ∀ v, included (line ++ Text.newline :: v) = [] ++ included v := fun v =>
        included_line hline (endsLine_cons v) (atLine?_eq_none_of_included hline hnone h v)
      refine ⟨line ++ Text.newline :: front, last, after, by simp, ?_, hfront.prepend hne hread⟩
      rw [all_line hline hend hnone, hlast]

/-- The leading comments of a text. -/
theorem exists_afterComments (fuel : Nat) (t : Text) :
    ∃ front, t = front ++ afterComments fuel t ∧ StartsLine front ∧
      ∀ u, included (front ++ u) = included u := by
  induction fuel generalizing t with
  | zero => exact ⟨[], rfl, startsLine_nil, fun _ => rfl⟩
  | succ fuel ih =>
      unfold afterComments
      split
      · exact ⟨[], rfl, startsLine_nil, fun _ => rfl⟩
      · next b rest hrest =>
          split
          · next hcomment =>
              obtain ⟨hline, hend, ht⟩ := firstLine_iff.mp ⟨rfl, hrest⟩
              obtain rfl : b = Text.newline := hend b rfl
              obtain ⟨front, hsplit, hstarts, hincluded⟩ := ih rest
              refine ⟨t.takeWhile (· != Text.newline) ++ Text.newline :: front, ?_, ?_, fun u => ?_⟩
              · rw [List.append_assoc, List.cons_append, ← hsplit, ← ht]
              · exact hstarts.append_cons _
              · rw [List.append_assoc, List.cons_append, included_comment hline hcomment, hincluded]
          · exact ⟨[], rfl, startsLine_nil, fun _ => rfl⟩

/-- New lines are put behind the front of a text. -/
theorem exists_isFront (t : Text) :
    ∃ front rest, position t = front.length ∧ IsFront t front rest := by
  by_cases hincluded : included t = []
  · have hall : all t = [] := List.map_eq_nil_iff.mp hincluded
    obtain ⟨front, hsplit, hstarts, hfront⟩ := exists_afterComments t.length t
    refine ⟨front, _, ?_, hsplit, .inr hstarts, fun u => ?_⟩
    · rw [position, hall]
      simp only [List.getLast?_nil]
      have hlength := congrArg List.length hsplit
      rw [List.length_append] at hlength
      omega
    · rw [lead_of_startsLine hstarts, List.append_nil, hfront, hincluded, List.nil_append]
  · obtain ⟨front, header, rest, -, hlast, hfront⟩ := exists_isFront_of_included hincluded
    refine ⟨front, rest, ?_, hfront⟩
    have hlength := congrArg List.length hfront.split
    rw [List.length_append] at hlength
    rw [position, hlast]
    simp only
    omega

theorem position_le_length (t : Text) : position t ≤ t.length := by
  obtain ⟨front, rest, hposition, hfront⟩ := exists_isFront t
  rw [hposition, hfront.split, List.length_append]
  exact Nat.le_add_right _ _

/-- New lines are put at the start of the text, at the start of another line, or at the end. -/
theorem position_cases (t : Text) :
    position t = 0 ∨ t[position t - 1]? = some Text.newline ∨ position t = t.length := by
  obtain ⟨front, rest, hposition, hfront⟩ := exists_isFront t
  rw [hposition, hfront.split]
  rcases hfront.atLine with rfl | hstarts
  · exact .inr (.inr (by rw [List.append_nil]))
  · cases hlast : front.getLast? with
    | none => exact .inl (by rw [List.getLast?_eq_none_iff.mp hlast]; rfl)
    | some b =>
        have hne : front ≠ [] := by
          rintro rfl
          cases hlast
        rw [List.getElem?_append_left (Nat.sub_lt (List.length_pos_iff.mpr hne) Nat.one_pos),
          ← List.getLast?_eq_getElem?, hlast, hstarts b hlast]
        exact .inr (.inl rfl)

/-- New lines are put behind all directives. -/
theorem stop_le_position {t : Text} {ms : List Span} (hfound : Found t 0 ms)
    (hread : all t = ms.map (Span.entry t)) : ∀ m ∈ ms, m.stop ≤ position t := by
  intro m hm
  have hl := List.getLast?_eq_some_getLast (List.ne_nil_of_mem hm)
  have hle := (hfound.stop_le_getLast hl).2 m hm
  obtain ⟨-, -, -, hend⟩ := (hfound.isIn _ (List.mem_of_getLast? hl)).read
  rw [position, hread, List.getLast?_map, hl]
  simp only [Option.map_some, Span.entry, List.length_drop]
  omega

/-! ## Adding lines -/

/-- The lines for headers behind the front of a text. Each starts with a newline if the front
does not end in one. -/
def linesFor (front : Text) (headers : List Text) : Text :=
  headers.flatMap fun header => lead front ++ line header

/-- Lines for headers include these headers. -/
theorem included_linesFor (front : Text) {headers : List Text}
    (hclean : ∀ header ∈ headers, Unclosed header) (t : Text) :
    included (linesFor front headers ++ t) = headers ++ included t := by
  have hlead : ∀ u, included (lead front ++ u) = included u := by
    intro u
    rw [lead]
    split
    · exact included_comment List.not_mem_nil rfl u
    · rfl
  induction headers with
  | nil => rfl
  | cons header headers ih =>
      rw [linesFor, List.flatMap_cons, ← linesFor, List.append_assoc, List.append_assoc, hlead,
        included_line_append (hclean header List.mem_cons_self),
        ih fun h hh => hclean h (List.mem_cons_of_mem header hh), List.cons_append]

/-- Behind the front of a text, lines for headers include these headers, and those of the text
stay. -/
theorem IsFront.included_linesFor {t front rest : Text} (h : IsFront t front rest)
    {headers : List Text} (hclean : ∀ header ∈ headers, Unclosed header) :
    included t ++ headers ⊆ included (front ++ linesFor front headers ++ rest) := by
  cases headers with
  | nil =>
      rw [linesFor, List.flatMap_nil, List.append_nil, List.append_nil, ← h.split]
      exact List.Subset.refl _
  | cons header headers =>
      have hsame : front ++ linesFor front (header :: headers) ++ rest
          = front ++ lead front ++ (line header ++ (linesFor front headers ++ rest)) := by
        simp only [linesFor, List.flatMap_cons, List.append_assoc]
      rw [hsame, h.included_append, included_line_append (hclean header List.mem_cons_self),
        Directive.included_linesFor front fun h hh => hclean h (List.mem_cons_of_mem header hh)]
      intro name hname
      simp only [List.mem_append, List.mem_cons] at hname ⊢
      grind

end Directive

namespace FilePatch

open Directive

/-- The change that includes a header is at the place for new lines. -/
theorem headerSplice?_eq (old header : Text) :
    headerSplice? old header = if header ∈ included old then none
      else some ⟨position old, position old, lead (old.take (position old)) ++ line header⟩ := by
  rw [headerSplice?, place?_eq]
  split
  · rfl
  · rw [Option.map_some, lead]
    split
    · rfl
    · rfl

/-- Insertions at one position come one behind another. -/
theorem putAll_insertions {old : Text} {n : Nat} (hn : n ≤ old.length) (texts : List Text) :
    Splice.putAll (texts.map fun text => ⟨n, n, text⟩) old
      = old.take n ++ texts.flatten ++ old.drop n := by
  have hlength : (old.take n).length = n := List.length_take_of_le hn
  induction texts with
  | nil => simp [Splice.putAll]
  | cons text texts ih =>
      rw [List.map_cons, Splice.putAll_cons, ih, List.append_assoc (old.take n),
        List.take_left' hlength, List.drop_left' hlength, List.flatten_cons]
      simp only [List.append_assoc]

/-- The changes for headers are insertions at one position. -/
theorem filterMap_headerSplice? (old : Text) (headers : List Text) :
    headers.filterMap (headerSplice? old) =
      ((headers.filter fun h => h ∉ included old).map
        fun h => lead (old.take (position old)) ++ line h).map
          fun text => ⟨position old, position old, text⟩ := by
  induction headers with
  | nil => rfl
  | cons header headers ih =>
      have hsplice := headerSplice?_eq old header
      by_cases hincluded : header ∈ included old
      · rw [if_pos hincluded] at hsplice
        rw [List.filterMap_cons_none hsplice,
          List.filter_cons_of_neg (by simpa using hincluded), ih]
      · rw [if_neg hincluded] at hsplice
        rw [List.filterMap_cons_some hsplice,
          List.filter_cons_of_pos (by simpa using hincluded), ih, List.map_cons, List.map_cons]

/-- A patch without replacements adds lines for the headers that the text does not include. -/
theorem newText_headers (name old : Text) (headers : List Text) :
    newText { name, headers } old = .ok (old.take (position old) ++
      linesFor (old.take (position old)) (headers.filter fun h => h ∉ included old) ++
        old.drop (position old)) := by
  let p : FilePatch := { name, headers }
  have hqueue : p.queue old = _ := filterMap_headerSplice? old headers
  have hapart : Splice.Apart (p.queue old) := by
    rw [hqueue, Splice.Apart, List.pairwise_map]
    exact List.pairwise_of_forall fun _ _ h => Nat.lt_irrefl _ h.1
  have horder : Splice.inOrder (p.queue old) = p.queue old := by
    apply List.mergeSort_of_pairwise
    rw [hqueue, List.pairwise_map]
    exact List.pairwise_of_forall fun _ _ => by simp [Splice.le]
  have hnew := (p.newText_eq_ok old (by simp [p]) (by simp [p]) (by simp [p]) hapart).1
  rw [horder, hqueue, putAll_insertions (position_le_length old), ← List.flatMap_def] at hnew
  exact hnew

theorem newText_of_included (name : Text) {old : Text} {headers : List Text}
    (h : ∀ header ∈ headers, header ∈ included old) : newText { name, headers } old = .ok old := by
  have hnone : (headers.filter fun h => h ∉ included old) = [] :=
    List.filter_eq_nil_iff.mpr fun header hheader => by simpa using h header hheader
  rw [newText_headers, hnone, linesFor, List.flatMap_nil, List.append_nil, List.take_append_drop]

/-- The new text includes all headers of a patch without replacements. -/
theorem subset_included_newText {name old new : Text} {headers : List Text}
    (hclean : ∀ h ∈ headers, Unclosed h) (h : newText { name, headers } old = .ok new) :
    ∀ header ∈ headers, header ∈ included new := by
  obtain ⟨front, rest, hposition, hfront⟩ := exists_isFront old
  have htake : old.take (position old) = front := by rw [hposition, hfront.split, List.take_left]
  have hdrop : old.drop (position old) = rest := by rw [hposition, hfront.split, List.drop_left]
  rw [newText_headers, htake, hdrop] at h
  rw [← Except.ok.inj h]
  intro header hheader
  apply hfront.included_linesFor fun h hh => hclean h (List.mem_of_mem_filter hh)
  by_cases hincluded : header ∈ included old
  · exact List.mem_append_left _ hincluded
  · exact List.mem_append_right _ (List.mem_filter.mpr ⟨hheader, by simpa using hincluded⟩)

end FilePatch

/-! ## The whole file -/

/-- **Header lines.** Let the headers of a patch without replacements be free of closing brackets
and quotes, and search the text for directives from left to right. Behind all of them, at the start,
at the end or behind a newline, the patch adds one line for each header that no directive names.
Each starts with a newline if the place is behind another byte. Then the new text includes all
headers, and patching it again changes nothing. -/
theorem newText_adds_header_lines (name old : Text) (headers : List Text)
    (hclean : ∀ h ∈ headers, 34 ∉ h ∧ 62 ∉ h) :
    ∃ (ms : List Directive.Span) (position : Nat) (new : Text),
      (∀ ns, Directive.Found old 0 ns ↔ ns = ms) ∧
      position ≤ old.length ∧
      (position = 0 ∨ old[position - 1]? = some Text.newline ∨ position = old.length) ∧
      (∀ m ∈ ms, m.stop ≤ position) ∧
      new = old.take position ++
        ((headers.filter fun h => h ∉ ms.map Directive.Span.header).flatMap fun h =>
          Directive.lead (old.take position) ++ Directive.line h) ++ old.drop position ∧
      FilePatch.newText { name, headers } old = .ok new ∧
      (∀ h ∈ headers, Directive.place? new h = none) ∧
      FilePatch.newText { name, headers } new = .ok new := by
  obtain ⟨ms, hfound, hread⟩ := Directive.exists_found_iff old
  have hincluded : Directive.included old = ms.map Directive.Span.header := by
    rw [Directive.included, hread, List.map_map]
    rfl
  have hnew := FilePatch.newText_headers name old headers
  rw [hincluded] at hnew
  have hadded := FilePatch.subset_included_newText hclean hnew
  refine ⟨ms, Directive.position old, _, hfound, Directive.position_le_length old,
    Directive.position_cases old, Directive.stop_le_position ((hfound ms).mpr rfl) hread,
    rfl, hnew, ?_, FilePatch.newText_of_included name hadded⟩
  intro h hh
  rw [Directive.place?_eq, if_pos]
  exact hadded h hh

/-- An open bracket takes the next line into its name, so the header on that line is not included,
and the lines for both headers are added behind the last byte. -/
theorem newText_adds_header_lines_taken :
    ∃ new, FilePatch.newText { name := "s.h", headers := ["a.h", "b.h"] }
      "#include <x\n#include \"a.h\""
        = .ok new ∧
      new = "#include <x\n#include \"a.h\"\n#include \"a.h\"\n\n#include \"b.h\"\n" ∧
      FilePatch.newText { name := "s.h", headers := ["a.h", "b.h"] } new = .ok new := by
  obtain ⟨_, _, new, -, -, -, -, -, hnew, -, hagain⟩ := newText_adds_header_lines "s.h"
    "#include <x\n#include \"a.h\"" ["a.h", "b.h"] (by decide)
  refine ⟨new, hnew, ?_, hagain⟩
  rw [FilePatch.newText_headers] at hnew
  rw [← Except.ok.inj hnew]
  decide

end PointerMigration
