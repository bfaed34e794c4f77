/-
# Lists of problems

Problems are added to lists, lists are added to lists, also to themselves, and now and then a
list is reported, which sorts it. Whatever the order of all this, a list is an ordered set: it
holds what was added to it, each problem once, and its report has them in the order of positions,
those at one position in the order in which they were first added. Sorting a list changes nothing
that is seen later, because problems at one position keep their order when a list is sorted and
when it is added to another.
-/
import PointerMigration.Edit.Problem
import PointerMigration.Proofs.Merge
import PointerMigration.Proofs.StableSort
import Mathlib.Logic.Function.Basic

namespace PointerMigration

/-! ## First occurrences -/

section

variable {α : Type} [BEq α] [LawfulBEq α]

theorem eraseDups_of_nodup {l : List α} (h : l.Nodup) : l.eraseDups = l := by
  induction l with
  | nil => rfl
  | cons a l ih =>
      obtain ⟨ha, hl⟩ := List.nodup_cons.mp h
      have hfilter : (l.filter fun b => !b == a) = l := by
        rw [List.filter_eq_self]
        intro b hb
        simpa using fun hba : b = a => ha (hba ▸ hb)
      rw [List.eraseDups_cons, hfilter, ih hl]

/-- Repeats can be left out of the parts before they are left out of the whole. -/
theorem eraseDups_append_eraseDups (l m : List α) :
    (l.eraseDups ++ m.eraseDups).eraseDups = (l ++ m).eraseDups := by
  have hremove : m.eraseDups.removeAll l.eraseDups = (m.removeAll l).eraseDups := by
    rw [List.removeAll, List.removeAll, ← filter_eraseDups]
    apply List.filter_congr
    intro a _
    rw [Bool.eq_iff_iff]
    simp
  rw [List.eraseDups_append, List.eraseDups_append, hremove, eraseDups_of_nodup (nodup_eraseDups l),
    eraseDups_of_nodup (nodup_eraseDups _)]

/-- An element at the end of a list is kept if it is not in the list before. -/
theorem eraseDups_concat (l : List α) (a : α) :
    (l ++ [a]).eraseDups = if a ∈ l then l.eraseDups else l.eraseDups ++ [a] := by
  have hsingle : [a].eraseDups = [a] := eraseDups_of_nodup (List.nodup_singleton a)
  rw [List.eraseDups_append, List.removeAll]
  split
  · next h => simp [h]
  · next h => simp [h, hsingle]

/-- Values that are kept once come in the order of their first occurrences. -/
theorem pairwise_idxOf_eraseDups (l : List α) :
    l.eraseDups.Pairwise fun a b => l.idxOf a < l.idxOf b := by
  induction l using List.reverseRecOn with
  | nil => exact List.Pairwise.nil
  | append_singleton l x ih =>
      have hkept : l.eraseDups.Pairwise fun a b => (l ++ [x]).idxOf a < (l ++ [x]).idxOf b := by
        refine ih.imp_of_mem fun {a b} ha hb hab => ?_
        rw [List.idxOf_append_of_mem (List.mem_eraseDups.mp ha),
          List.idxOf_append_of_mem (List.mem_eraseDups.mp hb)]
        exact hab
      rw [eraseDups_concat]
      split
      · exact hkept
      · next hx =>
          refine List.pairwise_append.mpr ⟨hkept, List.pairwise_singleton _ _, fun a ha b hb => ?_⟩
          have ha := List.mem_eraseDups.mp ha
          rw [List.mem_singleton.mp hb, List.idxOf_append_of_mem ha, List.idxOf_append_of_notMem hx]
          exact Nat.lt_of_lt_of_le (List.idxOf_lt_length_iff.mpr ha) (Nat.le_add_right _ _)

end

/-! ## The order of positions -/

namespace Position

/-- Positions are ordered by file, and in a file by offset. -/
theorem le_iff {p q : Position} : p.le q = true ↔
    p.file < q.file ∨ p.file = q.file ∧ p.offset ≤ q.offset := by
  simp [le]

theorem le_trans {p q r : Position} (hpq : p.le q = true) (hqr : q.le r = true) :
    p.le r = true := by
  rw [le_iff] at hpq hqr ⊢
  rcases hpq with hpq | ⟨hfile, hpq⟩
  · rcases hqr with hqr | ⟨hfile', -⟩
    · exact Or.inl (List.lt_trans hpq hqr)
    · exact Or.inl (hfile' ▸ hpq)
  · rw [hfile]
    exact hqr.imp_right fun h => ⟨h.1, Int64.le_trans hpq h.2⟩

theorem le_total (p q : Position) : (p.le q || q.le p) = true := by
  rw [Bool.or_eq_true, le_iff, le_iff]
  rcases Std.lt_trichotomy p.file q.file with hlt | heq | hlt
  · exact Or.inl (Or.inl hlt)
  · exact (Int64.le_total p.offset q.offset).imp (fun h => Or.inr ⟨heq, h⟩) fun h =>
      Or.inr ⟨heq.symm, h⟩
  · exact Or.inr (Or.inl hlt)

end Position

namespace Problem

/-- Whether a problem comes no later than another in the order of positions. -/
def le (a b : Problem) : Bool := a.position.le b.position

theorem le_trans (a b c : Problem) : a.le b = true → b.le c = true → a.le c = true :=
  Position.le_trans

theorem le_total (a b : Problem) : (a.le b || b.le a) = true := Position.le_total _ _

end Problem

namespace Problems

/-! ## What a list holds -/

/-- A list of problems holds what was added to it: it is sorted to what the added problems are
sorted to when each is kept where it came first. -/
def Holds (ps : Problems) (added : List Problem) : Prop :=
  ps.all.mergeSort Problem.le = added.eraseDups.mergeSort Problem.le

/-- A list holds problems if at each position it has those that were added there, in
their order and once. -/
theorem holds_iff {ps : Problems} {added : List Problem} :
    ps.Holds added ↔
      ∀ a, ps.all.filter (ties Problem.le a) = (added.filter (ties Problem.le a)).eraseDups := by
  rw [Holds, mergeSort_eq_iff Problem.le_total Problem.le_trans]
  simp only [filter_eraseDups]

theorem holds_empty : Holds {} [] := rfl

/-- Adding to a list without repeats adds what is new. -/
theorem all_merge {ps : Problems} (h : ps.all.Nodup) (other : Problems) :
    (ps.merge other).all = (ps.all ++ other.all).eraseDups := by
  have hfold : ∀ (qs : List Problem) (ps : Problems) (l : List Problem), ps.all = l.eraseDups →
      (qs.foldl add ps).all = (l ++ qs).eraseDups := by
    intro qs
    induction qs with
    | nil =>
        intro ps l hl
        rw [List.foldl_nil, List.append_nil, hl]
    | cons q qs ih =>
        intro ps l hl
        have hadd : (ps.add q).all = (l ++ [q]).eraseDups := by
          rw [eraseDups_concat, add, hl]
          simp only [List.mem_eraseDups]
          split
          · exact hl
          · rfl
        rw [List.foldl_cons, ih _ _ hadd, List.append_assoc, List.singleton_append]
  exact hfold other.all ps ps.all (eraseDups_of_nodup h).symm

namespace Holds

variable {ps : Problems} {added : List Problem} (h : ps.Holds added)

include h

theorem perm : ps.all.Perm added.eraseDups := by
  have hsorted := List.mergeSort_perm ps.all Problem.le
  rw [show ps.all.mergeSort Problem.le = _ from h] at hsorted
  exact hsorted.symm.trans (List.mergeSort_perm _ _)

theorem nodup : ps.all.Nodup := h.perm.nodup_iff.mpr (nodup_eraseDups added)

/-- A list has the problems that were added. -/
theorem mem_iff (p : Problem) : p ∈ ps.all ↔ p ∈ added := by
  rw [h.perm.mem_iff, List.mem_eraseDups]

/-- A list is empty only if nothing was added. -/
theorem isEmpty_iff : ps.isEmpty = true ↔ added = [] := by
  rw [isEmpty, List.isEmpty_iff, List.eq_nil_iff_forall_not_mem, List.eq_nil_iff_forall_not_mem]
  simp only [h.mem_iff]

/-- Adding one list to another. -/
theorem merge {other : Problems} {more : List Problem} (hother : other.Holds more) :
    (ps.merge other).Holds (added ++ more) := by
  have hnodup := h.nodup
  rw [holds_iff] at h hother ⊢
  intro a
  rw [all_merge hnodup, filter_eraseDups, List.filter_append, h, hother, eraseDups_append_eraseDups,
    List.filter_append]

/-- Adding one problem. -/
theorem add (p : Problem) : (ps.add p).Holds (added ++ [p]) :=
  h.merge (show Holds ⟨[p]⟩ [p] from rfl)

/-- Reporting a list does not change what it holds. -/
theorem report : ps.report.2.Holds added :=
  (mergeSort_mergeSort Problem.le_total Problem.le_trans ps.all).trans h

end Holds

/-! ## What a report lists -/

/-- A problem comes before another when some problems have been added: by file, then by offset, and
at one offset by which of them was added first. -/
def Precedes (added : List Problem) (a b : Problem) : Prop :=
  a.position.file < b.position.file ∨ a.position.file = b.position.file ∧
    (a.position.offset < b.position.offset ∨
      a.position.offset = b.position.offset ∧ added.idxOf a < added.idxOf b)

/-- Problems as a report lists them: all that were added, in order. -/
structure IsReportOf (added listed : List Problem) : Prop where
  mem_iff : ∀ p, p ∈ listed ↔ p ∈ added
  ordered : listed.Pairwise (Precedes added)

/-- What comes at an earlier position, or was added first at the same one, precedes. -/
theorem precedes_of_le {added : List Problem} {a b : Problem} (hle : a.le b = true)
    (htie : b.le a = true → added.idxOf a < added.idxOf b) : Precedes added a b := by
  rcases Position.le_iff.mp hle with hfile | ⟨hfile, hoffset⟩
  · exact Or.inl hfile
  · refine Or.inr ⟨hfile, ?_⟩
    by_cases hback : b.position.offset ≤ a.position.offset
    · exact Or.inr ⟨Int64.le_antisymm hoffset hback,
        htie (Position.le_iff.mpr (Or.inr ⟨hfile.symm, hback⟩))⟩
    · exact Or.inl (Int64.not_le.mp hback)

/-- The problems that were added, sorted, are in order. -/
theorem isReportOf_mergeSort (added : List Problem) :
    IsReportOf added (added.eraseDups.mergeSort Problem.le) where
  mem_iff p := by rw [List.mem_mergeSort, List.mem_eraseDups]
  ordered := by
    rw [List.pairwise_iff_forall_sublist]
    intro a b hab
    have hle : a.le b = true := List.pairwise_iff_forall_sublist.mp
      (List.pairwise_mergeSort Problem.le_trans Problem.le_total _) hab
    refine precedes_of_le hle fun hback => ?_
    -- Two problems that tie are where they were before the sort.
    have htie := hab.filter (ties Problem.le a)
    rw [filter_mergeSort Problem.le_total Problem.le_trans
      (pairwise_filter_ties Problem.le_trans a _),
      List.filter_cons_of_pos (ties_self Problem.le_total a),
      List.filter_cons_of_pos (by rw [ties, hle, hback]; rfl)] at htie
    exact List.pairwise_iff_forall_sublist.mp (pairwise_idxOf_eraseDups added)
      (htie.trans List.filter_sublist)

/-- The report has a line for each problem, in order of position. -/
theorem Holds.report_eq {ps : Problems} {added : List Problem} (h : ps.Holds added)
    (hne : added ≠ []) :
    ps.report.1
      = Text.join [Text.newline] ((added.eraseDups.mergeSort Problem.le).map Problem.describe) := by
  have hempty : ¬ ps.isEmpty = true := mt h.isEmpty_iff.mp hne
  show ps.message = _
  rw [message, if_neg hempty]
  exact congrArg (fun l => Text.join [Text.newline] (List.map Problem.describe l)) h

/-- Lists that hold the same give the same report, have the same length, and both or neither are
empty. -/
theorem Holds.alike {ps ps' : Problems} {added : List Problem} (h : ps.Holds added)
    (h' : ps'.Holds added) :
    ps'.report.1 = ps.report.1 ∧ ps'.all.length = ps.all.length ∧ ps'.isEmpty = ps.isEmpty := by
  have hempty : ps'.isEmpty = ps.isEmpty := by
    rw [Bool.eq_iff_iff, h.isEmpty_iff, h'.isEmpty_iff]
  refine ⟨?_, by rw [h.perm.length_eq, h'.perm.length_eq], hempty⟩
  show ps'.message = ps.message
  rw [message, message, hempty]
  split
  · rfl
  · exact congrArg (fun l => Text.join [Text.newline] (List.map Problem.describe l))
      (h'.trans h.symm)

/-! ## Operations on many lists -/

/-- What can be added to a list. -/
inductive Addition where
  /-- A message at an offset of a file, of which the text may be known. -/
  | found (file : Text) (text : Option Text) (offset : Int64) (message : Text)
  /-- An error that has a position. -/
  | positioned (p : Problem)
  /-- An error that has a message only. -/
  | plain (message : Text)
  /-- No error. -/
  | nothing
  deriving DecidableEq, Repr

/-- The problem that is added. -/
def Addition.problem? : Addition → Option Problem
  | found file text offset message => some ⟨.ofOffset file text offset, message⟩
  | positioned p => some p
  | plain message => some { message }
  | nothing => none

/-- An operation on lists with names. -/
inductive Operation (ι : Type) where
  | add (list : ι) (a : Addition)
  /-- Adds the problems of a list to another one or to itself. -/
  | merge (list other : ι)
  | report (list : ι)
  deriving DecidableEq, Repr

namespace Operation

variable {ι : Type} [DecidableEq ι]

def isReport : Operation ι → Bool
  | report _ => true
  | _ => false

/-- The lists after an operation. -/
def step (lists : ι → Problems) : Operation ι → ι → Problems
  | add list a => Function.update lists list (a.problem?.elim (lists list) (lists list).add)
  | merge list other => Function.update lists list ((lists list).merge (lists other))
  | report list => Function.update lists list (lists list).report.2

/-- What was added to each list up to an operation and by it, with repeats. A list that is added to
another brings what was added to it before. -/
def record (added : ι → List Problem) : Operation ι → ι → List Problem
  | add list a => Function.update added list (added list ++ a.problem?.toList)
  | merge list other => Function.update added list (added list ++ added other)
  | report _ => added

end Operation

section

variable {ι : Type} [DecidableEq ι]

/-- The lists after some operations; all of them are empty at first. -/
def run (ops : List (Operation ι)) : ι → Problems := ops.foldl Operation.step fun _ => {}

/-- What was added to each list by some operations, with repeats. -/
def addedBy (ops : List (Operation ι)) : ι → List Problem := ops.foldl Operation.record fun _ => []

/-- Changing one list and what was added to it keeps the others. -/
theorem holds_update {lists : ι → Problems} {added : ι → List Problem}
    (h : ∀ i, (lists i).Holds (added i)) (list : ι) {ps : Problems} {more : List Problem}
    (hlist : ps.Holds more) (i : ι) :
    (Function.update lists list ps i).Holds (Function.update added list more i) := by
  rw [Function.update_apply, Function.update_apply]
  split
  · exact hlist
  · exact h i

/-- **One operation.** The lists hold what was added to them. -/
theorem holds_step {lists : ι → Problems} {added : ι → List Problem}
    (h : ∀ i, (lists i).Holds (added i)) (o : Operation ι) (i : ι) :
    (o.step lists i).Holds (o.record added i) := by
  cases o with
  | add list a =>
      refine holds_update h list ?_ i
      cases a.problem? with
      | none => simpa using h list
      | some p => exact (h list).add p
  | merge list other => exact holds_update h list ((h list).merge (h other)) i
  | report list =>
      have hsame := holds_update h list (h list).report i
      rwa [Function.update_eq_self] at hsame

/-- After any operations each list holds what was added to it. -/
theorem holds_run (ops : List (Operation ι)) (i : ι) : (run ops i).Holds (addedBy ops i) := by
  have hfold : ∀ (lists : ι → Problems) (added : ι → List Problem),
      (∀ i, (lists i).Holds (added i)) →
      ∀ i, (ops.foldl Operation.step lists i).Holds (ops.foldl Operation.record added i) := by
    induction ops with
    | nil => exact fun _ _ h => h
    | cons o ops ih => exact fun lists added h => ih _ _ (holds_step h o)
  exact hfold _ _ (fun _ => holds_empty) i

/-- Reports add nothing. -/
theorem addedBy_filter (ops : List (Operation ι)) :
    addedBy (ops.filter fun o => !o.isReport) = addedBy ops := by
  have hfold : ∀ added : ι → List Problem,
      (ops.filter fun o => !o.isReport).foldl Operation.record added
        = ops.foldl Operation.record added := by
    induction ops with
    | nil => exact fun _ => rfl
    | cons o ops ih =>
        intro added
        cases o with
        | add | merge => exact ih _
        | report => exact ih added
  exact hfold _

/-- **Ordered sets.** After any operations on lists of problems, a list has no problem twice, it has
exactly those that were added to it, and there is no error to return exactly if none was. If there
are some, the report lists them in order, one a line. Whichever reports are left out, the list gives
the same report, has the same length, and is empty or not as before. -/
theorem lists_are_ordered_sets (ops : List (Operation ι)) (i : ι) :
    (run ops i).all.Nodup ∧
    (∀ p, p ∈ (run ops i).all ↔ p ∈ addedBy ops i) ∧
    ((run ops i).isEmpty = true ↔ addedBy ops i = []) ∧
    (addedBy ops i ≠ [] → ∃ listed, IsReportOf (addedBy ops i) listed ∧
      (run ops i).report.1 = Text.join [Text.newline] (listed.map Problem.describe)) ∧
    ∀ fewer : List (Operation ι),
      (fewer.filter fun o => !o.isReport) = (ops.filter fun o => !o.isReport) →
      (run fewer i).report.1 = (run ops i).report.1 ∧
        (run fewer i).all.length = (run ops i).all.length ∧
          (run fewer i).isEmpty = (run ops i).isEmpty := by
  have h := holds_run ops i
  refine ⟨h.nodup, h.mem_iff, h.isEmpty_iff,
    fun hne => ⟨_, isReportOf_mergeSort _, h.report_eq hne⟩, ?_⟩
  intro fewer hfewer
  have hadded : addedBy fewer i = addedBy ops i := by
    rw [← addedBy_filter fewer, hfewer, addedBy_filter]
  exact h.alike (hadded ▸ holds_run fewer i)

end

/-- A list is reported and added to another one that has a problem at one of its positions, and that
one is added to itself. -/
def twoLists : List (Operation Bool) :=
  [.add false (.found "b.cc" none 1 "last"), .add false (.found "a.cc" none 7 "x"),
    .add false (.found "a.cc" none 7 "w"),
    .add true (.positioned ⟨{ file := "a.cc", offset := 7 }, "w"⟩), .report false,
    .merge true false, .merge true true, .add true .nothing]

/-- The problem that both lists have is where the second list had it, and the rest is in order.
Without the report, the second list gives the same report. -/
theorem lists_are_ordered_sets_merged :
    addedBy twoLists true ≠ [] ∧
    (∃ listed, IsReportOf (addedBy twoLists true) listed ∧
      (run twoLists true).report.1 = Text.join [Text.newline] (listed.map Problem.describe)) ∧
    (run (twoLists.filter fun o => !o.isReport) true).report.1 = (run twoLists true).report.1 := by
  obtain ⟨-, -, -, hreport, hfewer⟩ := lists_are_ordered_sets twoLists true
  have hne : addedBy twoLists true ≠ [] := by decide
  exact ⟨hne, hreport hne, (hfewer _ (by decide)).1⟩

example : (run twoLists true).report.1 = Text.ofString "a.cc: w\na.cc: x\nb.cc: last" := by cbv

end Problems

end PointerMigration
