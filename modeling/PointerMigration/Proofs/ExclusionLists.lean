/-
# Exclusion lists

What an exclusion list does to a pass. A list is read line by line, and what it names does not
depend on comments, white space, the way lines end, or how often a name comes up. A longer list only
takes away: the fields that it names are left alone, all other fields keep their verdicts, and what
is left of the edits is what is made for the fields that are still accepted.
-/
import PointerMigration.Proofs.Utf8
import PointerMigration.Proofs.Verdicts
import Mathlib.Data.List.TakeWhile

namespace PointerMigration

/-! ## White space at the end of a line -/

namespace Text

/-- White space at the end makes no difference. -/
theorem trim_append_blank {b : UInt8} (hb : b < 0x80) (hblank : Rune.isBlank b.toNat = true)
    (t : Text) :
    trim (t ++ [b]) = trim t := by
  unfold trim
  rw [pieces_concat (.one (UInt8.lt_iff_toNat_lt.mp hb)), List.dropWhile_append]
  split_ifs with hall
  · simp [List.isEmpty_iff.mp hall, hblank]
  · simp [hblank]

theorem mem_splitOn_of_mem_lines {t line : Text} (h : line ∈ lines t) :
    line ∈ t.splitOn newline := by
  unfold lines at h
  dsimp only at h
  split_ifs at h
  · exact List.dropLast_subset _ h
  · exact h

/-- Only an empty line at the end of a text does not count as a line. -/
theorem mem_lines_or_eq_nil {t line : Text} (h : line ∈ t.splitOn newline) :
    line ∈ lines t ∨ line = [] := by
  unfold lines
  dsimp only
  split_ifs with hlast
  · rwa [← List.dropLast_append_getLast? _ hlast, List.mem_append, List.mem_singleton] at h
  · exact Or.inl h

end Text

/-! ## Names on a list -/

namespace Exclusions

/-- An exclusion list has a name: a line consists of the name when it is cut at the first number
sign and white space is taken away from both of its ends. -/
def ListsName (t name : Text) : Prop :=
  name ≠ [] ∧ ∃ line ∈ t.splitOn Text.newline, Text.trim (line.takeWhile (· != 35)) = name

instance (t name : Text) : Decidable (ListsName t name) := inferInstanceAs (Decidable (_ ∧ _))

/-- The end of a line makes no difference to the name on it. -/
theorem nameOf_dropReturn (line : Text) : nameOf (Text.dropReturn line) = nameOf line := by
  unfold nameOf Text.dropReturn
  split_ifs with hreturn
  · -- If there is no comment, the carriage return is part of what is trimmed.
    rw [← List.dropLast_append_getLast? _ hreturn, List.dropLast_concat, List.takeWhile_append]
    split_ifs with hall
    · have hfront := (List.takeWhile_prefix (· != 35)).eq_of_length hall
      rw [hfront, List.takeWhile_cons_of_pos (by decide), List.takeWhile_nil,
        Text.trim_append_blank (by decide) (by decide)]
    · rfl
  · rfl

/-- A name is excluded if and only if a line of the list says it. -/
theorem contains_iff_listsName {t name : Text} {e : Exclusions} (h : parse t = some e) :
    e.contains name = true ↔ ListsName t name := by
  obtain ⟨hshort, rfl⟩ : (Text.readLines lineLimit t).2 = false ∧
      ofLines (Text.readLines lineLimit t).1 = e := by
    change (if _ then none else some _) = some e at h
    split_ifs at h with htooLong
    exact ⟨Bool.not_eq_true _ ▸ htooLong, Option.some.inj h⟩
  have hlines : (Text.readLines lineLimit t).1 = (Text.lines t).map Text.dropReturn := by
    simp only [Text.readLines, List.any_eq_false, decide_eq_true_eq, Nat.not_le] at hshort ⊢
    rw [List.takeWhile_eq_self_iff.mpr fun line hline => decide_eq_true (hshort line hline)]
  simp only [contains, ofLines, hlines, List.contains_iff_mem, List.mem_eraseDups, List.mem_filter,
    List.map_map, List.mem_map, Function.comp_apply, nameOf_dropReturn]
  constructor
  · rintro ⟨⟨line, hline, rfl⟩, hne⟩
    exact ⟨by simpa using hne, line, Text.mem_splitOn_of_mem_lines hline, rfl⟩
  · rintro ⟨hne, line, hline, rfl⟩
    refine ⟨⟨line, (Text.mem_lines_or_eq_nil hline).resolve_right ?_, rfl⟩, by simpa using hne⟩
    rintro rfl
    exact hne rfl

end Exclusions

/-! ## Verdicts with a list -/

section

variable {settings : Settings} {x y : Exclusions}

/-- The verdict on a field with a list, from the verdict without one. -/
def Site.override (e : Exclusions) (s : Site) (v : Verdict) : Verdict :=
  if v = .accepted ∧ e.contains s.field.knownName = true then .rejected .excluded else v

/-- The exclusion list comes last: it overrides what holds without it. -/
theorem Site.inScope_eq (e : Exclusions) (s : Site) :
    s.inScope settings e = (s.inScope settings {}).map (s.override e) := by
  unfold inScope
  cases places s.field with
  | error _ => rfl
  | ok places =>
      simp only [bind, Except.bind, pure, Except.pure, Except.map, apply_ite (s.override e)]
      simp [override, Exclusions.contains]

/-- A list overrides the verdict on a field that is accepted without one, and no other verdict. -/
theorem Site.classify_eq (e : Exclusions) (s : Site) :
    s.classify settings e = (s.classify settings {}).map (s.override e) := by
  unfold classify
  split
  · rfl
  cases heligible : s.eligible with
  | error _ => rfl
  | ok v =>
      cases v with
      | rejected _ => rfl
      | accepted => exact s.inScope_eq e

/-- With a longer list a field is accepted if it was accepted before and the list does not have its
name. The verdict changes only for a name that is new on the list. -/
theorem Site.verdict_of_longer (hsub : ∀ name, x.contains name = true → y.contains name = true)
    {s : Site} {v : Verdict} (h : s.verdict settings x = .ok v) :
    ∃ w, s.verdict settings y = .ok w ∧
      (w = .accepted ↔ v = .accepted ∧ ¬ y.contains s.field.knownName = true) ∧
      (w ≠ v → w = .rejected .excluded ∧ y.contains s.field.knownName = true ∧
        ¬ x.contains s.field.knownName = true) := by
  rw [verdict, classify_eq] at h ⊢
  cases hclassify : s.classify settings {} with
  | error _ =>
      rw [hclassify] at h
      cases h
  | ok c =>
      rw [hclassify] at h
      cases c with
      | rejected r =>
          cases h
          exact ⟨.rejected r, rfl, by simp, fun hne => absurd rfl hne⟩
      | accepted =>
          -- Only here does the list matter: it is asked last.
          by_cases hy : y.contains s.field.knownName = true
          · refine ⟨.rejected .excluded, by simp [Except.map, override, hy], by simp [hy],
              fun hne => ?_⟩
            refine ⟨rfl, hy, fun hx => ?_⟩
            simp only [Except.map, override, hx, and_self, if_true, Except.ok.injEq] at h
            exact hne h
          · have hx : ¬ x.contains s.field.knownName = true := fun hx => hy (hsub _ hx)
            refine ⟨v, ?_, by simp [hy], fun hne => absurd rfl hne⟩
            simpa [Except.map, override, hx, hy] using h

/-- A longer list rejects the fields that it names, and changes no other verdict. -/
theorem Pass.verdicts_of_longer (hsub : ∀ name, x.contains name = true → y.contains name = true)
    {u : CompilationUnit} {p q : Pass} (hp : (run settings x u).2 = .ok p)
    (hq : (run settings y u).2 = .ok q) :
    List.Forall₂ (fun e e' => e'.1 = e.1 ∧
        (e'.2 = .accepted ↔ e.2 = .accepted ∧ ¬ y.contains e.1.knownName = true) ∧
        (e'.2 ≠ e.2 → e'.2 = .rejected .excluded ∧ y.contains e.1.knownName = true ∧
          ¬ x.contains e.1.knownName = true))
      p.verdicts q.verdicts := by
  have hsites := verdicts_of_run hp
  rw [verdicts_eq_map hp, verdicts_eq_map hq, List.forall₂_map_left_iff, List.forall₂_map_right_iff,
    List.forall₂_same]
  intro s hs
  obtain ⟨⟨_, v⟩, -, rfl, hv⟩ := exists_mem_of_forall₂_left hsites hs
  obtain ⟨w, hw, haccepted, hchanged⟩ := Site.verdict_of_longer hsub hv
  rw [hv, hw]
  exact ⟨rfl, haccepted, hchanged⟩

/-- **Exclusions.** Let a list have all the names of another one. If there is a pass over a unit
with the shorter list then there is one with the longer list. The fields that are accepted are those
that were, without the ones that are listed, and a verdict that changes is one on a field that is
newly listed. The edits are those that were made and that are made for a field that is still
accepted. No edit is ever made for a field that is listed. -/
theorem run_of_longer_exclusions {shorter longer : Text} (hx : Exclusions.parse shorter = some x)
    (hy : Exclusions.parse longer = some y)
    (hsub : ∀ name, Exclusions.ListsName shorter name → Exclusions.ListsName longer name) :
    (∀ (u : CompilationUnit) (p : Pass), u.checked = .ok u → (Pass.run settings x u).2 = .ok p →
      ∃ q, (Pass.run settings y u).2 = .ok q ∧
        List.Forall₂ (fun e e' => e'.1 = e.1 ∧
            (e'.2 = .accepted ↔ e.2 = .accepted ∧ ¬ Exclusions.ListsName longer e.1.knownName) ∧
            (e'.2 ≠ e.2 → e'.2 = .rejected .excluded ∧ Exclusions.ListsName longer e.1.knownName ∧
              ¬ Exclusions.ListsName shorter e.1.knownName))
          p.verdicts q.verdicts ∧
        FileEdits.Tidy q.edits ∧
        ∀ r, FileEdits.Lists q.edits r ↔ FileEdits.Lists p.edits r ∧
          ∃ field, (field, .accepted) ∈ q.verdicts ∧ MadeFor settings u field r) ∧
    ∀ (u : CompilationUnit) (q : Pass), u.checked = .ok u → (Pass.run settings y u).2 = .ok q →
      (∀ e ∈ q.verdicts, Exclusions.ListsName longer e.1.knownName → e.2 ≠ .accepted) ∧
      ∀ r, FileEdits.Lists q.edits r →
        ∃ field, (field, .accepted) ∈ q.verdicts ∧ ¬ Exclusions.ListsName longer field.knownName ∧
          MadeFor settings u field r := by
  have hlonger : ∀ name, x.contains name = true → y.contains name = true := by
    intro name hname
    rw [Exclusions.contains_iff_listsName hx] at hname
    exact (Exclusions.contains_iff_listsName hy).mpr (hsub name hname)
  constructor
  · intro u p hu hrun
    obtain ⟨hinput, hsites, hmembers, huses⟩ := (Pass.exists_run_iff hu).mp ⟨p, hrun⟩
    obtain ⟨q, hq⟩ : ∃ q, (Pass.run settings y u).2 = .ok q := by
      refine (Pass.exists_run_iff hu).mpr ⟨hinput, ?_, hmembers, ?_⟩
      · intro s hs
        obtain ⟨v, hv⟩ := hsites s hs
        obtain ⟨w, hw, -⟩ := Site.verdict_of_longer hlonger hv
        exact ⟨w, hw⟩
      · intro m hm
        obtain ⟨href, hloc⟩ := huses m hm
        refine ⟨href, fun s hs hid hverdict => hloc s hs hid ?_⟩
        obtain ⟨v, hv⟩ := hsites s hs
        obtain ⟨w, hw, haccepted, -⟩ := Site.verdict_of_longer hlonger hv
        cases hw.symm.trans hverdict
        rw [hv, (haccepted.mp rfl).1]
    have hverdicts := Pass.verdicts_of_longer hlonger hrun hq
    refine ⟨q, hq, ?_, (Pass.edits_of_run hu hq).1, fun r => ?_⟩
    · simpa only [Exclusions.contains_iff_listsName hx, Exclusions.contains_iff_listsName hy]
        using hverdicts
    · rw [(Pass.edits_of_run hu hq).2, (Pass.edits_of_run hu hrun).2]
      refine ⟨fun h => ⟨?_, h⟩, And.right⟩
      obtain ⟨field, hmem, hmade⟩ := h
      obtain ⟨⟨_, v⟩, he, rfl, haccepted, -⟩ := exists_mem_of_forall₂_right hverdicts hmem
      obtain rfl := (haccepted.mp rfl).1
      exact ⟨_, he, hmade⟩
  · intro u q hu hq
    -- With the list compared to itself, what is accepted is not listed.
    have hunlisted : ∀ e ∈ q.verdicts, e.2 = .accepted →
        ¬ Exclusions.ListsName longer e.1.knownName := by
      intro e he hverdict
      obtain ⟨e', -, hfield, haccepted, -⟩ :=
        exists_mem_of_forall₂_right (Pass.verdicts_of_longer (fun _ h => h) hq hq) he
      rw [hfield, ← Exclusions.contains_iff_listsName hy]
      exact (haccepted.mp hverdict).2
    refine ⟨fun e he hlisted hverdict => hunlisted e he hverdict hlisted, fun r hr => ?_⟩
    obtain ⟨field, hmem, hmade⟩ := ((Pass.edits_of_run hu hq).2 r).mp hr
    exact ⟨field, hmem, hunlisted _ hmem rfl, hmade⟩

/-- A name that is added to a list takes away both edits of its field. -/
theorem run_of_longer_exclusions_added :
    ∃ p q, (Pass.run {} ⟨["other"]⟩ deducedBeforeField).2 = .ok p ∧
      (Pass.run {} ⟨["other", "ptr"]⟩ deducedBeforeField).2 = .ok q ∧
      Exclusions.parse "other\n\t ptr # kept\r\nother" = some ⟨["other", "ptr"]⟩ ∧
      FileEdits.Lists p.edits ⟨"a.cc", 43, 0, ".get()", false⟩ ∧
      ¬ FileEdits.Lists q.edits ⟨"a.cc", 43, 0, ".get()", false⟩ := by
  have hx : Exclusions.parse "other" = some ⟨["other"]⟩ := by decide
  have hy : Exclusions.parse "other\n\t ptr # kept\r\nother" = some ⟨["other", "ptr"]⟩ := by decide
  have hsub : ∀ name, Exclusions.ListsName "other" name →
      Exclusions.ListsName "other\n\t ptr # kept\r\nother" name := by
    intro name hname
    rw [← Exclusions.contains_iff_listsName hx, Exclusions.contains, List.contains_iff_mem,
      List.mem_singleton] at hname
    subst hname
    decide
  obtain ⟨p, hrun, hnames, hedits⟩ : ∃ p, (Pass.run {} ⟨["other"]⟩ deducedBeforeField).2 = .ok p ∧
      (∀ e ∈ p.verdicts, e.1.knownName = Text.ofString "ptr") ∧
      FileEdits.Lists p.edits ⟨"a.cc", 43, 0, ".get()", false⟩ := ⟨_, rfl, by decide, by decide⟩
  obtain ⟨q, hq, hverdicts, -⟩ :=
    (run_of_longer_exclusions hx hy hsub).1 deducedBeforeField p rfl hrun
  refine ⟨p, q, hrun, hq, hy, hedits, fun h => ?_⟩
  obtain ⟨field, hmem, hunlisted, -⟩ :=
    ((run_of_longer_exclusions hx hy hsub).2 deducedBeforeField q rfl hq).2 _ h
  obtain ⟨e, he, rfl, -⟩ := exists_mem_of_forall₂_right hverdicts hmem
  rw [hnames e he] at hunlisted
  exact hunlisted (by decide)

end

end PointerMigration
