/-
# Searching forward from a line

A pattern behind the number of a line is searched for from the end of the line on. A plus sign
between the two does not change where the match is found. But unlike a number, a pattern does not
use up the direction in front of it, and a direction that is left over at the end of an address
moves by one: the result is the line behind the match.
-/
import PointerMigration.Proofs.AddressTokens

namespace PointerMigration

namespace Motion

theorem lineLength_pos {t : Text} (h : t ≠ []) : 0 < lineLength t := by
  have hlength := List.length_pos_iff.mpr h
  unfold lineLength
  simp only
  split
  · omega
  · omega

/-- There always is a next line. It starts at the offset or behind it, and only at the end of
the text it is empty. -/
theorem exists_forwardLines_one {t : Text} {hi : Nat} (h : hi ≤ t.length) :
    ∃ s, forwardLines t hi 1 = some s ∧ hi ≤ s.lo ∧ (s.lo = s.hi → s.lo = t.length) := by
  have hline := lineLength_le (t.drop hi)
  rw [List.length_drop] at hline
  unfold forwardLines
  generalize hstart :
    (if (t.take hi).getLast?.any (· != Text.newline) = true then hi + lineLength (t.drop hi)
      else hi) = start
  have hle : hi ≤ start ∧ start ≤ t.length := by
    rw [← hstart]
    split
    · omega
    · omega
  show ∃ s, linesAhead 1 start start (t.drop start) = some s ∧ _
  by_cases hrest : t.drop start = []
  · rw [hrest]
    have hend := List.drop_eq_nil_iff.mp hrest
    exact ⟨_, rfl, hle.1, fun _ => Nat.le_antisymm hle.2 hend⟩
  · have hpos := lineLength_pos hrest
    rw [linesAhead_succ hrest]
    refine ⟨_, rfl, hle.1, fun hempty => ?_⟩
    simp only at hempty
    omega

end Motion

namespace Address

variable {t : Text}

/-- Moving on by a line gives a range, which is the one before only at the end of the text. -/
theorem exists_moveLines_one {r : AddressRange} (h : r.Within t) :
    ∃ next, moveLines t r .forward 1 = .ok next ∧ (next = r ↔ r = ⟨t.length, t.length⟩) := by
  obtain ⟨hlo, hle, hhi⟩ := h
  obtain ⟨s, hs, hbehind, hempty⟩ :=
    Motion.exists_forwardLines_one (show r.hi.toNat ≤ t.length by omega)
  obtain ⟨hsle, hsend⟩ := Motion.before_of_forwardLines (by omega) hs
  refine ⟨⟨s.lo, s.hi⟩, ?_, ?_⟩
  · rw [moveLines, offset?_eq_some (by omega) hhi]
    simp only [hs, ofSpan?]
  · obtain ⟨lo, hi⟩ := r
    simp only [AddressRange.mk.injEq] at *
    omega

/-! ## Searches -/

/-- A plus sign before a pattern makes no difference to the search. -/
theorem search_forward (r : AddressRange) (p : Text) :
    search t r (some .forward) p = search t r none p := rfl

/-- A search finds the first match at or behind the offset, or else the first in the text, or
nothing. -/
theorem search_of_compile {program : Pattern.Program} {p : Text}
    (hcompile : Pattern.compile (lineMode p) = .ok program) {lo hi : Nat} (hhi : hi ≤ t.length) :
    (∀ m, program.find? (t.drop hi) = some m →
      search t ⟨lo, hi⟩ none p = .ok ⟨(hi + m.start : Nat), (hi + m.stop : Nat)⟩) ∧
    (program.find? (t.drop hi) = none → ∀ m, program.find? t = some m →
      search t ⟨lo, hi⟩ none p = .ok ⟨m.start, m.stop⟩) ∧
    (program.find? (t.drop hi) = none → program.find? t = none →
      search t ⟨lo, hi⟩ none p = .error (.cause (.noMatch p))) := by
  have hoffset := offset?_eq_some (Int.natCast_nonneg hi) (Int.ofNat_le.mpr hhi)
  have hsome : ∀ found, find? program t hi = some found → search t ⟨lo, hi⟩ none p = .ok found := by
    intro found hfound
    rw [search, hcompile, hoffset]
    simp [hfound]
  have hnothing : find? program t hi = none →
      search t ⟨lo, hi⟩ none p = .error (.cause (.noMatch p)) := by
    intro hfind
    rw [search, hcompile, hoffset]
    simp [hfind]
  refine ⟨fun m hm => hsome _ ?_, fun hnone m hm => hsome _ ?_, fun hnone hnowhere => hnothing ?_⟩
  · rw [find?, hm]
    rfl
  · -- From the start of the text the second search would be the first one.
    have hpos : hi ≠ 0 := by
      rintro rfl
      rw [List.drop_zero, hm] at hnone
      cases hnone
    rw [find?, hnone]
    simp [hpos, hm, ofMatch]
  · rw [find?, hnone]
    simp [hnowhere]

/-! ## Patterns behind the number of a line -/

/-- A pattern between slashes. -/
def slashed (re : Text) : Text := Text.slash :: (re ++ [Text.slash])

section

variable {digits re : Text} {n : Nat} {start : Int} {r : AddressRange}

/-- A number alone is counted from the start of the text. -/
theorem exists_move_of_eval (h : Decimal.Writes digits n) (heval : eval digits start t = .ok r) :
    ∃ m, number digits = .ok m ∧ move t ⟨0, 0⟩ none false m = .ok r := by
  rw [eval_of_tokens (tokens_of_writes h), run_token (by simp)] at heval
  obtain ⟨next, hstep, hend⟩ := bind_eq_ok_iff.mp heval
  obtain ⟨m, hnumber, hrest⟩ := bind_eq_ok_iff.mp hstep
  obtain ⟨moved, hmove, hnext⟩ := bind_eq_ok_iff.mp hrest
  cases hnext
  cases hend
  exact ⟨m, hnumber, hmove⟩

/-- A number leaves nothing over but its range. -/
theorem step_number_of_eval (h : Decimal.Writes digits n) (heval : eval digits start t = .ok r)
    (more : Bool) :
    step t { range := ⟨start, start⟩ } more (.number digits) = .ok { range := r } := by
  obtain ⟨m, hnumber, hmove⟩ := exists_move_of_eval h heval
  exact bind_eq_ok_iff.mpr ⟨m, hnumber, bind_eq_ok_iff.mpr ⟨r, hmove, rfl⟩⟩

/-- The range of a number lies in the text, wherever the evaluation starts. -/
theorem within_of_eval_number (h : Decimal.Writes digits n) (heval : eval digits start t = .ok r) :
    r.Within t := by
  obtain ⟨m, -, hmove⟩ := exists_move_of_eval h heval
  have hzero : AddressRange.Within ⟨0, 0⟩ t := ⟨Int.le_refl _, Int.le_refl _, Int.natCast_nonneg _⟩
  exact (ends_move hzero none false m).of_eq_ok hmove

variable (h : Decimal.Writes digits n) (heval : eval digits start t = .ok r)
  (hslash : Text.slash ∉ re) (hbackslash : Text.backslash ∉ re)

include h heval hslash hbackslash

/-- A number and a pattern search from the end of the line with that number. -/
theorem eval_search : eval (digits ++ slashed re) start t = search t r none re := by
  have htokens : tokens (digits ++ slashed re) = [.number digits, .pattern re] := by
    rw [slashed, tokens_append (by decide) (isClosed_of_writes h), tokens_of_writes h,
      tokens_slashed hslash hbackslash]
    rfl
  rw [eval_of_tokens htokens, run_token (by simp), step_number_of_eval h heval]
  refine (run_token (by simp) [] _).trans ?_
  rw [step]
  cases search t r none re with
  | error e => rfl
  | ok found => rfl

/-- With a sign between them the search is followed by a step of one line. -/
theorem eval_signed_search :
    eval (digits ++ 43 :: slashed re) start t
      = (search t r none re >>= fun r => moveLines t r .forward 1) := by
  have hplus : tokens (43 :: slashed re) = .sign .forward :: tokens (slashed re) :=
    tokens_cons 43 (slashed re)
  have htokens : tokens (digits ++ 43 :: slashed re)
      = [.number digits, .sign .forward, .pattern re] := by
    rw [tokens_append (by decide) (isClosed_of_writes h), tokens_of_writes h, hplus, slashed,
      tokens_slashed hslash hbackslash]
    rfl
  rw [eval_of_tokens htokens, run_token (by simp), step_number_of_eval h heval]
  refine (run_token (by simp) [.pattern re] _).trans ?_
  refine (run_token (by simp) [] _).trans ?_
  rw [step, search_forward]
  cases search t r none re with
  | error e => rfl
  | ok found => rfl

end

/-- **Searching forward from a line.** A pattern behind the number of a line is found at its
first match at or behind the end of the line, or else at its first match in the text; without a
match there is an error. A plus sign between the two moves on from there to the next line. So the
sign makes no difference only where there is no match, and where the match is the empty one at
the end of the text. -/
theorem eval_signed_search_iff {digits re t : Text} {n lo hi : Nat} {start : Int}
    (h : Decimal.Writes digits n) (heval : eval digits start t = .ok ⟨lo, hi⟩)
    (hslash : Text.slash ∉ re) (hbackslash : Text.backslash ∉ re) :
    (∀ program, Pattern.compile (lineMode re) = .ok program →
      (∀ m, program.find? (t.drop hi) = some m →
        eval (digits ++ slashed re) start t = .ok ⟨(hi + m.start : Nat), (hi + m.stop : Nat)⟩) ∧
      (program.find? (t.drop hi) = none → ∀ m, program.find? t = some m →
        eval (digits ++ slashed re) start t = .ok ⟨m.start, m.stop⟩) ∧
      (program.find? (t.drop hi) = none → program.find? t = none →
        eval (digits ++ slashed re) start t = .error (.cause (.noMatch re)))) ∧
    eval (digits ++ 43 :: slashed re) start t
      = (eval (digits ++ slashed re) start t >>= fun r => moveLines t r .forward 1) ∧
    (eval (digits ++ 43 :: slashed re) start t = eval (digits ++ slashed re) start t ↔
      ∀ r, eval (digits ++ slashed re) start t = .ok r → r = ⟨t.length, t.length⟩) := by
  have hwithin := within_of_eval_number h heval
  rw [eval_search h heval hslash hbackslash, eval_signed_search h heval hslash hbackslash]
  refine
    ⟨fun program hcompile => search_of_compile hcompile (Int.ofNat_le.mp hwithin.hi_le), rfl, ?_⟩
  rcases ends_search hwithin none re with ⟨found, hfound, hin⟩ | ⟨e, herror⟩
  · obtain ⟨next, hnext, hsame⟩ := exists_moveLines_one hin
    have hbind : (search t ⟨lo, hi⟩ none re >>= fun r => moveLines t r .forward 1) = .ok next := by
      rw [hfound]
      exact hnext
    rw [hbind, hfound, Except.ok.injEq, hsame]
    simp
  · rw [herror]
    exact iff_of_true rfl nofun

/-- Here the pattern is found only before the end of the line. -/
theorem eval_signed_search_iff_wrapped :
    Decimal.Writes "2" 2 ∧ eval "2" 0 "ab\nc\nd\n" = .ok ⟨3, 5⟩ ∧
      eval "2/b/" 0 "ab\nc\nd\n" = .ok ⟨1, 2⟩ ∧
      eval "2+/b/" 0 "ab\nc\nd\n" = moveLines "ab\nc\nd\n" ⟨1, 2⟩ .forward 1 ∧
      eval "2+/b/" 0 "ab\nc\nd\n" ≠ eval "2/b/" 0 "ab\nc\nd\n" := by
  have hwrites : Decimal.Writes "2" 2 := ⟨by decide, List.all_eq_true.mp rfl, rfl⟩
  have heval : eval "2" 0 "ab\nc\nd\n" = .ok ⟨(3 : Nat), (5 : Nat)⟩ := rfl
  have hfound : eval "2/b/" 0 "ab\nc\nd\n" = .ok ⟨1, 2⟩ := by decide +kernel
  obtain ⟨-, hmoved, hsame⟩ :=
    @eval_signed_search_iff "2" "b" "ab\nc\nd\n" 2 3 5 0 hwrites heval (by decide) (by decide)
  refine ⟨hwrites, heval, hfound, ?_, fun heq => ?_⟩
  · exact hmoved.trans (congrArg (· >>= fun r => moveLines "ab\nc\nd\n" r .forward 1) hfound)
  · cases hsame.mp heq ⟨1, 2⟩ hfound

/-- Behind a plus sign the line behind the match is taken for the match. -/
theorem signed_search_passes_match :
    eval "1/20/" 0 "1 10\n2 20\n3 30\n" = .ok ⟨7, 9⟩ ∧
      eval "1+/20/" 0 "1 10\n2 20\n3 30\n" = .ok ⟨10, 15⟩ := by
  decide +kernel

end Address

end PointerMigration
