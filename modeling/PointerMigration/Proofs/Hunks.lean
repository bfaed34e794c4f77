/-
# Hunks of a diff

The hunks of a diff show all of its changes and leave out unchanged lines only. So they can be
applied to the old lines: what lies between them is copied, and each hunk is checked against the old
lines at its place and replaced by its new lines. Hunks are kept apart by at least one line that is
not shown, and inside them the removals of a run of changes come before its additions.
-/
import PointerMigration.Diff
import Mathlib.Data.List.Chain
import Mathlib.Data.List.TakeWhile

namespace PointerMigration

namespace DiffLine

/-! ## The two texts of a diff -/

/-- The lines of the old text: those kept and those deleted. -/
def oldTexts (ls : List DiffLine) : List Text :=
  (ls.filter fun l => l.change != .insert).map DiffLine.text

/-- The lines of the new text: those kept and those inserted. -/
def newTexts (ls : List DiffLine) : List Text :=
  (ls.filter fun l => l.change != .delete).map DiffLine.text

@[simp] theorem oldTexts_nil : oldTexts [] = [] := rfl

@[simp] theorem newTexts_nil : newTexts [] = [] := rfl

@[simp] theorem oldTexts_append (ls ms : List DiffLine) :
    oldTexts (ls ++ ms) = oldTexts ls ++ oldTexts ms := by
  simp [oldTexts]

@[simp] theorem newTexts_append (ls ms : List DiffLine) :
    newTexts (ls ++ ms) = newTexts ls ++ newTexts ms := by
  simp [newTexts]

@[simp] theorem length_oldTexts (ls : List DiffLine) : (oldTexts ls).length = oldCount ls := by
  rw [oldTexts, oldCount, List.length_map, List.countP_eq_length_filter]

@[simp] theorem length_newTexts (ls : List DiffLine) : (newTexts ls).length = newCount ls := by
  rw [newTexts, newCount, List.length_map, List.countP_eq_length_filter]

theorem isKept_iff {l : DiffLine} : l.isKept = true ↔ l.change = .keep := by
  simp [isKept]

/-- Lines that are kept are all old lines. -/
theorem oldTexts_of_kept {ls : List DiffLine} (h : ∀ l ∈ ls, l.isKept = true) :
    oldTexts ls = ls.map DiffLine.text := by
  rw [oldTexts, List.filter_eq_self.mpr]
  intro l hl
  rw [isKept_iff.mp (h l hl)]
  rfl

/-- Lines that are kept are all new lines. -/
theorem newTexts_of_kept {ls : List DiffLine} (h : ∀ l ∈ ls, l.isKept = true) :
    newTexts ls = ls.map DiffLine.text := by
  rw [newTexts, List.filter_eq_self.mpr]
  intro l hl
  rw [isKept_iff.mp (h l hl)]
  rfl

/-! ## Removals before additions -/

theorem oldTexts_of_insert {ls : List DiffLine} (h : ∀ l ∈ ls, l.change = .insert) :
    oldTexts ls = [] := by
  rw [oldTexts, List.filter_eq_nil_iff.mpr, List.map_nil]
  intro l hl
  simp [h l hl]

theorem newTexts_of_delete {ls : List DiffLine} (h : ∀ l ∈ ls, l.change = .delete) :
    newTexts ls = [] := by
  rw [newTexts, List.filter_eq_nil_iff.mpr, List.map_nil]
  intro l hl
  simp [h l hl]

/-- Reordering a run of changes leaves both texts alone. -/
theorem texts_deletesFirstFrom {deleted inserted : List DiffLine}
    (hdeleted : ∀ l ∈ deleted, l.change = .delete) (hinserted : ∀ l ∈ inserted, l.change = .insert)
    (ls : List DiffLine) :
    oldTexts (deletesFirstFrom deleted inserted ls) = oldTexts deleted.reverse ++ oldTexts ls ∧
      newTexts (deletesFirstFrom deleted inserted ls)
        = newTexts inserted.reverse ++ newTexts ls := by
  have hold : oldTexts inserted.reverse = [] :=
    oldTexts_of_insert fun l hl => hinserted l (List.mem_reverse.mp hl)
  have hnew : newTexts deleted.reverse = [] :=
    newTexts_of_delete fun l hl => hdeleted l (List.mem_reverse.mp hl)
  induction ls generalizing deleted inserted with
  | nil => simp [deletesFirstFrom, hold, hnew]
  | cons l rest ih =>
      have hcons : ∀ ms : List DiffLine, l :: ms = [l] ++ ms := fun ms => rfl
      rw [deletesFirstFrom]
      cases hchange : l.change with
      | keep =>
          obtain ⟨hrestOld, hrestNew⟩ := @ih [] [] (by simp) (by simp) rfl rfl
          simp only
          rw [hcons, hcons rest]
          simp only [oldTexts_append, newTexts_append, hrestOld, hrestNew, hold, hnew,
            List.reverse_nil, oldTexts_nil, newTexts_nil, List.append_nil,
            List.nil_append, and_self]
      | delete =>
          have hmore : ∀ m ∈ l :: deleted, m.change = .delete := by simpa [hchange] using hdeleted
          obtain ⟨hrestOld, hrestNew⟩ := ih hmore hinserted hold
            (newTexts_of_delete fun m hm => hmore m (List.mem_reverse.mp hm))
          have hnone : newTexts [l] = [] := newTexts_of_delete (by simp [hchange])
          simp only
          rw [hrestOld, hrestNew, List.reverse_cons, hcons rest]
          simp only [oldTexts_append, newTexts_append, hnone, List.append_assoc,
            List.nil_append, and_self]
      | insert =>
          have hmore : ∀ m ∈ l :: inserted, m.change = .insert := by simpa [hchange] using hinserted
          obtain ⟨hrestOld, hrestNew⟩ := ih hdeleted hmore
            (oldTexts_of_insert fun m hm => hmore m (List.mem_reverse.mp hm)) hnew
          have hnone : oldTexts [l] = [] := oldTexts_of_insert (by simp [hchange])
          simp only
          rw [hrestOld, hrestNew, List.reverse_cons, hcons rest]
          simp only [oldTexts_append, newTexts_append, hnone, List.append_assoc,
            List.nil_append, and_self]

/-- Moving removals to the front of a run changes no old line. -/
theorem oldTexts_deletesFirst (ls : List DiffLine) : oldTexts (deletesFirst ls) = oldTexts ls :=
  (texts_deletesFirstFrom (by simp) (by simp) ls).1

/-- Moving removals to the front of a run changes no new line. -/
theorem newTexts_deletesFirst (ls : List DiffLine) : newTexts (deletesFirst ls) = newTexts ls :=
  (texts_deletesFirstFrom (by simp) (by simp) ls).2

/-- In every run of changes the removals come before the additions. -/
def RemovalsFirst (ls : List DiffLine) : Prop :=
  ∀ run, run <:+: ls → (∀ l ∈ run, l.isKept = false) →
    ∃ removed added, run = removed ++ added ∧
      (∀ l ∈ removed, l.change = .delete) ∧ ∀ l ∈ added, l.change = .insert

/-- Where removals come first, they do so in every part. -/
theorem RemovalsFirst.of_infix {ls ms : List DiffLine} (h : RemovalsFirst ls) (hms : ms <:+: ls) :
    RemovalsFirst ms :=
  fun run hrun => h run (hrun.trans hms)

/-- Two neighbouring lines are not an addition and a removal. -/
def InOrder (a b : DiffLine) : Prop := a.change = .insert → b.change ≠ .delete

/-- It is enough to look at neighbours. -/
theorem removalsFirst_of_isChain {ls : List DiffLine} (h : ls.IsChain InOrder) :
    RemovalsFirst ls := by
  intro run hrun hchanged
  have hchain : run.IsChain InOrder := h.infix hrun
  clear hrun
  induction run with
  | nil => exact ⟨[], [], rfl, by simp, by simp⟩
  | cons l run ih =>
      obtain ⟨removed, added, rfl, hremoved, hadded⟩ :=
        ih (fun m hm => hchanged m (List.mem_cons_of_mem l hm)) hchain.tail
      cases hchange : l.change with
      | keep =>
          have hkept := isKept_iff.mpr hchange
          rw [hchanged l (by simp)] at hkept
          cases hkept
      | delete => exact ⟨l :: removed, added, rfl, by simpa [hchange] using hremoved, hadded⟩
      | insert =>
          -- An addition is not followed by a removal, so there are none.
          cases removed with
          | nil => exact ⟨[], l :: added, rfl, by simp, by simpa [hchange] using hadded⟩
          | cons m removed =>
              have hnext : InOrder l m := (List.isChain_cons_cons.mp hchain).1
              exact absurd (hremoved m (by simp)) (hnext hchange)

/-- Removals may stand in front of anything. -/
theorem isChain_append_of_delete {deleted tail : List DiffLine}
    (h : ∀ l ∈ deleted, l.change = .delete) (htail : tail.IsChain InOrder) :
    (deleted ++ tail).IsChain InOrder := by
  induction deleted with
  | nil => exact htail
  | cons l deleted ih =>
      rw [List.cons_append, List.isChain_cons]
      refine ⟨fun m _ hinsert => ?_, ih fun m hm => h m (List.mem_cons_of_mem l hm)⟩
      rw [h l (by simp)] at hinsert
      cases hinsert

/-- Additions may stand in front of what does not begin with a removal. -/
theorem isChain_append_of_insert {inserted tail : List DiffLine}
    (h : ∀ l ∈ inserted, l.change = .insert) (hhead : ∀ l ∈ tail.head?, l.change ≠ .delete)
    (htail : tail.IsChain InOrder) :
    (inserted ++ tail).IsChain InOrder := by
  induction inserted with
  | nil => exact htail
  | cons l inserted ih =>
      rw [List.cons_append, List.isChain_cons]
      refine ⟨fun m hm _ => ?_, ih fun m hm => h m (List.mem_cons_of_mem l hm)⟩
      cases inserted with
      | nil => exact hhead m hm
      | cons n inserted =>
          obtain rfl : n = m := by simpa using hm
          rw [h n (by simp)]
          simp

/-- The run so far is written with its removals first, whatever follows it. -/
theorem isChain_deletesFirstFrom {deleted inserted : List DiffLine}
    (hdeleted : ∀ l ∈ deleted, l.change = .delete) (hinserted : ∀ l ∈ inserted, l.change = .insert)
    (ls : List DiffLine) : (deletesFirstFrom deleted inserted ls).IsChain InOrder := by
  have hreversed : ∀ l ∈ deleted.reverse, l.change = .delete := fun l hl =>
    hdeleted l (List.mem_reverse.mp hl)
  have hreversed' : ∀ l ∈ inserted.reverse, l.change = .insert := fun l hl =>
    hinserted l (List.mem_reverse.mp hl)
  induction ls generalizing deleted inserted with
  | nil =>
      rw [deletesFirstFrom, ← List.append_nil inserted.reverse]
      exact isChain_append_of_delete hreversed
        (isChain_append_of_insert hreversed' (by simp) List.isChain_nil)
  | cons l rest ih =>
      rw [deletesFirstFrom]
      cases hchange : l.change with
      | keep =>
          simp only
          rw [List.append_assoc]
          refine isChain_append_of_delete hreversed (isChain_append_of_insert hreversed' ?_ ?_)
          · simp [hchange]
          · rw [List.isChain_cons]
            refine ⟨fun m _ hinsert => ?_, ih (by simp) (by simp) (by simp) (by simp)⟩
            rw [hchange] at hinsert
            cases hinsert
      | delete =>
          have hmore : ∀ m ∈ l :: deleted, m.change = .delete := by simpa [hchange] using hdeleted
          exact ih hmore hinserted (fun m hm => hmore m (List.mem_reverse.mp hm)) hreversed'
      | insert =>
          have hmore : ∀ m ∈ l :: inserted, m.change = .insert := by simpa [hchange] using hinserted
          exact ih hdeleted hmore hreversed fun m hm => hmore m (List.mem_reverse.mp hm)

/-- After the lines have been put in order removals come first in every run. -/
theorem removalsFirst_deletesFirst (ls : List DiffLine) : RemovalsFirst (deletesFirst ls) :=
  removalsFirst_of_isChain (isChain_deletesFirstFrom (by simp) (by simp) ls)

end DiffLine

open DiffLine

namespace Hunk

/-! ## One hunk -/

/-- The lines from a change on are divided: the first part ends with a change, and the rest is
unchanged or starts with more than six unchanged lines. -/
theorem body_spec {fuel : Nat} {ls : List DiffLine} (hfuel : ls.length < fuel) :
    ls = (body fuel ls).1 ++ (body fuel ls).2 ∧
      (∀ l ∈ (body fuel ls).1.getLast?, l.isKept = false) ∧
      ((∀ l ∈ (body fuel ls).2, l.isKept = true) ∨
        2 * context < ((body fuel ls).2.takeWhile isKept).length) ∧
      (∀ l ∈ ls.head?, l.isKept = false → (body fuel ls).1.head? = some l) := by
  fun_induction body fuel ls with
  | case1 ls => omega
  | case2 fuel => simp
  | case3 fuel l rest hkept between after hnear more left hmore ih =>
      have hdivide : between ++ after = l :: rest := List.takeWhile_append_dropWhile
      have hnear : after ≠ [] ∧ between.length ≤ 2 * context := by simpa using hnear
      have hbetween : between ≠ [] := by
        simp [between, hkept]
      obtain ⟨first, others, hafter⟩ := List.exists_cons_of_ne_nil hnear.1
      have hfirst : first.isKept = false := by
        have hhead := List.head?_dropWhile_not isKept (l :: rest)
        rw [show (l :: rest).dropWhile isKept = first :: others from hafter] at hhead
        simpa using hhead
      have hlength : after.length < fuel := by
        have := congrArg List.length hdivide
        have hpos := List.length_pos_iff.mpr hbetween
        simp only [List.length_append, List.length_cons] at this hfuel
        omega
      obtain ⟨hsplit, hlast, hleft, hhead⟩ := ih hlength
      rw [hmore] at hsplit hlast hleft hhead
      have hmore' : more ≠ [] := by
        intro hnil
        have := hhead first (by simp [hafter]) hfirst
        simp [hnil] at this
      refine ⟨?_, ?_, hleft, ?_⟩
      · rw [← hdivide, List.append_assoc]
        exact congrArg (between ++ ·) hsplit
      · intro m hm
        rw [List.getLast?_append_of_ne_nil between hmore'] at hm
        exact hlast m hm
      · intro m hm hm'
        obtain rfl : l = m := by simpa using hm
        rw [hkept] at hm'
        cases hm'
  | case4 fuel l rest hkept between after hfar =>
      have hfar : after ≠ [] → 2 * context < between.length := by simpa using hfar
      refine ⟨rfl, by simp, ?_, ?_⟩
      · by_cases hafter : after = []
        · have hall := List.dropWhile_eq_nil_iff.mp hafter
          exact Or.inl hall
        · exact Or.inr (hfar hafter)
      · intro m hm hm'
        obtain rfl : l = m := by simpa using hm
        rw [hkept] at hm'
        cases hm'
  | case5 fuel l rest hchanged more left hmore ih =>
      have hlength : rest.length < fuel := by
        simp only [List.length_cons] at hfuel
        omega
      obtain ⟨hsplit, hlast, hleft, -⟩ := ih hlength
      rw [hmore] at hsplit hlast hleft
      refine ⟨by rw [hsplit]; rfl, ?_, hleft, by simp⟩
      intro m hm
      cases hmores : more with
      | nil =>
          obtain rfl : l = m := by simpa [hmores] using hm
          simpa using hchanged
      | cons n others =>
          rw [hmores, List.getLast?_cons_cons, ← hmores] at hm
          exact hlast m hm

/-- A hunk that shows a change, with at most three unchanged lines before and after its changes. -/
structure IsTight (h : Hunk) : Prop where
  leading : (h.lines.takeWhile isKept).length ≤ 3
  trailing : (h.lines.reverse.takeWhile isKept).length ≤ 3
  changes : ∃ l ∈ h.lines, l.isKept = false

/-- Unchanged lines around lines that start and end with a change. -/
theorem isTight_of_eq {h : Hunk} {front changed back : List DiffLine}
    (hlines : h.lines = front ++ changed ++ back) (hfront : ∀ l ∈ front, l.isKept = true)
    (hback : ∀ l ∈ back, l.isKept = true) (hfrontLength : front.length ≤ 3)
    (hbackLength : back.length ≤ 3) (hne : changed ≠ [])
    (hfirst : ∀ l ∈ changed.head?, l.isKept = false)
    (hlast : ∀ l ∈ changed.getLast?, l.isKept = false) : h.IsTight := by
  have hrun : ∀ run rest : List DiffLine, (∀ l ∈ run, l.isKept = true) →
      (∀ l ∈ rest.head?, l.isKept = false) →
        ((run ++ rest).takeWhile isKept).length = run.length := by
    intro run rest hkept hchanged
    rw [List.takeWhile_append_of_pos hkept]
    cases rest with
    | nil => simp
    | cons l rest => simp [hchanged l (by simp)]
  have hhead : (changed ++ back).head? = changed.head? := by
    rw [List.head?_append_of_ne_nil _ hne]
  have hhead' : (changed.reverse ++ front.reverse).head? = changed.getLast? := by
    rw [List.head?_append_of_ne_nil _ (by simpa using hne), List.head?_reverse]
  constructor
  · rw [hlines, List.append_assoc, hrun front _ hfront (by rwa [hhead])]
    exact hfrontLength
  · rw [hlines, List.reverse_append, List.reverse_append,
      hrun back.reverse _ (fun l hl => hback l (List.mem_reverse.mp hl)) (by rwa [hhead']),
      List.length_reverse]
    exact hbackLength
  · obtain ⟨l, rest, hchanged⟩ := List.exists_cons_of_ne_nil hne
    refine ⟨l, ?_, hfirst l (by simp [hchanged])⟩
    rw [hlines, hchanged]
    simp

/-! ## All hunks -/

/-- The first hunk of a diff, behind the unchanged lines that are not shown, and what is left of the
diff: it is unchanged or starts with more unchanged lines than the next hunk shows. -/
structure IsFirst (h : Hunk) (oldBefore newBefore : Nat) (ls gap rest : List DiffLine) : Prop where
  eq_append : ls = gap ++ h.lines ++ rest
  gap_kept : ∀ l ∈ gap, l.isKept = true
  length_gap : gap.length = (ls.takeWhile isKept).length - context
  old_eq : h.oldBefore = oldBefore + gap.length
  new_eq : h.newBefore = newBefore + gap.length
  tight : h.IsTight
  rest_far : (∀ l ∈ rest, l.isKept = true) ∨ context < (rest.takeWhile isKept).length

/-- A diff is unchanged and has no hunk, or it has a first hunk. -/
theorem hunksFrom_cases (fuel oldBefore newBefore : Nat) (ls : List DiffLine) :
    ((∀ l ∈ ls, l.isKept = true) ∧ hunksFrom (fuel + 1) oldBefore newBefore ls = []) ∨
      ∃ h gap rest, IsFirst h oldBefore newBefore ls gap rest ∧
        hunksFrom (fuel + 1) oldBefore newBefore ls =
          h :: hunksFrom fuel (h.oldBefore + oldCount h.lines)
            (h.newBefore + newCount h.lines) rest := by
  by_cases hall : ls.dropWhile isKept = []
  · refine Or.inl ⟨List.dropWhile_eq_nil_iff.mp hall, ?_⟩
    simp [hunksFrom, hall]
  right
  have hkept : ∀ l ∈ ls.takeWhile isKept, l.isKept = true := fun l hl => List.mem_takeWhile_imp hl
  have hfirst : ∀ l ∈ (ls.dropWhile isKept).head?, l.isKept = false := by
    intro l hl
    have hhead := List.head?_dropWhile_not isKept ls
    rw [Option.mem_def.mp hl] at hhead
    simpa using hhead
  obtain ⟨hsplit, hlast, hleft, hhead⟩ := body_spec (Nat.lt_succ_self (ls.dropWhile isKept).length)
  rw [hunksFrom]
  generalize hbody : body ((ls.dropWhile isKept).length + 1) (ls.dropWhile isKept) = parts at *
  obtain ⟨changed, left⟩ := parts
  simp only [List.isEmpty_iff, hall, if_false]
  simp only at hsplit hlast hleft hhead
  have hchanged : ∃ l, (ls.dropWhile isKept).head? = some l ∧ changed.head? = some l := by
    obtain ⟨l, rest, hcons⟩ := List.exists_cons_of_ne_nil hall
    have hl : (ls.dropWhile isKept).head? = some l := by rw [hcons]; rfl
    exact ⟨l, hl, hhead l hl (hfirst l hl)⟩
  obtain ⟨l, hl, hchangedHead⟩ := hchanged
  refine ⟨_, (ls.takeWhile isKept).take ((ls.takeWhile isKept).length - context), _, ?_, rfl⟩
  have htrailing : ∀ m ∈ (left.takeWhile isKept).take context, m.isKept = true := fun m hm =>
    List.mem_takeWhile_imp (List.mem_of_mem_take hm)
  constructor
  · have hdrop : (left.takeWhile isKept).take context
        ++ left.drop ((left.takeWhile isKept).take context).length = left :=
      List.prefix_iff_eq_append.mp ((List.take_prefix _ _).trans (List.takeWhile_prefix isKept))
    calc ls = ls.takeWhile isKept ++ (changed ++ left) := by
          rw [← hsplit, List.takeWhile_append_dropWhile]
      _ = _ := by
          nth_rewrite 1 [← List.take_append_drop ((ls.takeWhile isKept).length - context)
            (ls.takeWhile isKept), ← hdrop]
          simp only [List.append_assoc]
  · exact fun m hm => hkept m (List.mem_of_mem_take hm)
  · simp
  · simp
  · simp
  · refine isTight_of_eq rfl (fun m hm => hkept m (List.mem_of_mem_drop hm)) htrailing ?_
      ?_ ?_ ?_ hlast
    · rw [List.length_drop, context]
      omega
    · exact List.length_take_le _ _
    · rintro rfl
      cases hchangedHead
    · rw [hchangedHead]
      exact fun m hm => Option.some.inj hm ▸ hfirst l hl
  · -- Three of more than six unchanged lines are shown, so more than three are left.
    rcases hleft with hleft | hleft
    · exact Or.inl fun m hm => hleft m (List.mem_of_mem_drop hm)
    · right
      have hshown : ((left.takeWhile isKept).take context).length = context := by
        rw [List.length_take]
        omega
      have hrest : left.drop context = (left.takeWhile isKept).drop context ++
          left.dropWhile isKept := by
        nth_rewrite 1 [← List.takeWhile_append_dropWhile (p := isKept) (l := left)]
        exact List.drop_append_of_le_length (by omega)
      rw [hshown, hrest, List.takeWhile_append_of_pos, List.length_append, List.length_drop]
      · omega
      · exact fun m hm => List.mem_takeWhile_imp (List.mem_of_mem_drop hm)

/-- Hunks that show all changes of a diff: between them, before the first and after the last lie
unchanged lines only, and each knows how many lines of either text precede it. -/
inductive Covers : Nat → Nat → List DiffLine → List Hunk → Prop where
  | nil {oldBefore newBefore : Nat} {ls : List DiffLine} (h : ∀ l ∈ ls, l.isKept = true) :
      Covers oldBefore newBefore ls []
  | cons {oldBefore newBefore : Nat} {gap rest : List DiffLine} {h : Hunk} {hs : List Hunk}
      (hgap : ∀ l ∈ gap, l.isKept = true) (hold : h.oldBefore = oldBefore + gap.length)
      (hnew : h.newBefore = newBefore + gap.length)
      (hrest : Covers (h.oldBefore + oldCount h.lines) (h.newBefore + newCount h.lines) rest hs) :
      Covers oldBefore newBefore (gap ++ h.lines ++ rest) (h :: hs)

/-- A hunk ends before another begins, and a line that is not shown lies between them. -/
def Precedes (h k : Hunk) : Prop :=
  h.oldBefore + oldCount h.lines < k.oldBefore ∧ h.newBefore + newCount h.lines < k.newBefore

/-- The hunks show all changes. -/
theorem covers_hunksFrom {fuel : Nat} (oldBefore newBefore : Nat) {ls : List DiffLine}
    (hfuel : ls.length < fuel) :
    Covers oldBefore newBefore ls (hunksFrom fuel oldBefore newBefore ls) := by
  induction fuel generalizing oldBefore newBefore ls with
  | zero => omega
  | succ fuel ih =>
      rcases hunksFrom_cases fuel oldBefore newBefore ls with
        ⟨hall, heq⟩ | ⟨h, gap, rest, hfirst, heq⟩
      · rw [heq]
        exact .nil hall
      · have hlines : 0 < h.lines.length := by
          obtain ⟨l, hl, -⟩ := hfirst.tight.changes
          exact List.length_pos_of_mem hl
        have hlength := congrArg List.length hfirst.eq_append
        simp only [List.length_append] at hlength
        rw [heq, hfirst.eq_append]
        exact .cons hfirst.gap_kept hfirst.old_eq hfirst.new_eq (ih _ _ (by omega))

/-- Each hunk has a change, and no more context than it may have. -/
theorem isTight_of_mem_hunksFrom {fuel oldBefore newBefore : Nat} {ls : List DiffLine} {h : Hunk}
    (hh : h ∈ hunksFrom fuel oldBefore newBefore ls) : h.IsTight := by
  induction fuel generalizing oldBefore newBefore ls with
  | zero => cases hh
  | succ fuel ih =>
      rcases hunksFrom_cases fuel oldBefore newBefore ls with ⟨-, heq⟩ | ⟨k, gap, rest, hfirst, heq⟩
      · rw [heq] at hh
        cases hh
      · rw [heq] at hh
        rcases List.mem_cons.mp hh with rfl | hh
        · exact hfirst.tight
        · exact ih hh

/-- The first hunk of what is left begins behind more unchanged lines than it shows. -/
theorem lt_of_mem_head? {fuel oldBefore newBefore : Nat} {ls : List DiffLine} {h : Hunk}
    (hfar : (∀ l ∈ ls, l.isKept = true) ∨ context < (ls.takeWhile isKept).length)
    (hh : h ∈ (hunksFrom fuel oldBefore newBefore ls).head?) :
    oldBefore < h.oldBefore ∧ newBefore < h.newBefore := by
  cases fuel with
  | zero => cases hh
  | succ fuel =>
      rcases hunksFrom_cases fuel oldBefore newBefore ls with ⟨-, heq⟩ | ⟨k, gap, rest, hfirst, heq⟩
      · rw [heq] at hh
        cases hh
      · rw [heq] at hh
        obtain rfl : k = h := by simpa using hh
        have hnot : ¬ ∀ l ∈ ls, l.isKept = true := by
          intro hall
          obtain ⟨l, hl, hchanged⟩ := hfirst.tight.changes
          have hmem : l ∈ ls := by
            rw [hfirst.eq_append]
            simp [hl]
          rw [hall l hmem] at hchanged
          cases hchanged
        have hgap := hfirst.length_gap
        have hlong := hfar.resolve_left hnot
        rw [hfirst.old_eq, hfirst.new_eq]
        omega

/-- The hunks come one after another, with a line between any two that neither shows. -/
theorem pairwise_hunksFrom (fuel oldBefore newBefore : Nat) (ls : List DiffLine) :
    (hunksFrom fuel oldBefore newBefore ls).Pairwise Precedes := by
  have htrans : ∀ h k m : Hunk, Precedes h k → Precedes k m → Precedes h m := by
    intro h k m hhk hkm
    unfold Precedes at *
    omega
  have : IsTrans Hunk Precedes := ⟨htrans⟩
  rw [← List.isChain_iff_pairwise]
  induction fuel generalizing oldBefore newBefore ls with
  | zero => exact List.isChain_nil
  | succ fuel ih =>
      rcases hunksFrom_cases fuel oldBefore newBefore ls with ⟨-, heq⟩ | ⟨h, gap, rest, hfirst, heq⟩
      · rw [heq]
        exact List.isChain_nil
      · rw [heq, List.isChain_cons]
        exact ⟨fun k hk => lt_of_mem_head? hfirst.rest_far hk, ih _ _ _⟩

/-! ## Applying hunks -/

/-- Applies hunks to the rest of the lines of a text, given the numbers of old and new lines before
it. A hunk is refused if its old lines do not stand at its place, or if there are not as many new
lines before it as it says. -/
def applyFrom : Nat → Nat → List Hunk → List Text → Option (List Text)
  | _, _, [], old => some old
  | oldBefore, newBefore, h :: hs, old =>
    let skipped := h.oldBefore - oldBefore
    let found := (old.drop skipped).take (oldCount h.lines)
    if h.oldBefore < oldBefore ∨ old.length < skipped ∨ h.newBefore ≠ newBefore + skipped ∨
        found ≠ oldTexts h.lines then none
    else
      (applyFrom (h.oldBefore + oldCount h.lines) (h.newBefore + newCount h.lines) hs
        (old.drop (skipped + oldCount h.lines))).map fun later => old.take skipped ++
          newTexts h.lines ++ later

/-- Applies hunks to the lines of a text. -/
def applyAll (hs : List Hunk) (old : List Text) : Option (List Text) := applyFrom 0 0 hs old

/-- Hunks that show all changes turn the old lines into the new ones. -/
theorem Covers.applyFrom_eq {oldBefore newBefore : Nat} {ls : List DiffLine} {hs : List Hunk}
    (h : Covers oldBefore newBefore ls hs) :
    applyFrom oldBefore newBefore hs (oldTexts ls) = some (newTexts ls) := by
  induction h with
  | nil hkept => rw [applyFrom, oldTexts_of_kept hkept, newTexts_of_kept hkept]
  | @cons oldBefore newBefore gap rest h hs hgap hold hnew hrest ih =>
      have hlength : (oldTexts gap).length = gap.length := by
        rw [oldTexts_of_kept hgap, List.length_map]
      have hskipped : h.oldBefore - oldBefore = (oldTexts gap).length := by omega
      have hdrop :
          ((oldTexts gap ++ oldTexts h.lines ++ oldTexts rest).drop (oldTexts gap).length).take
          (oldCount h.lines) = oldTexts h.lines := by
        rw [List.append_assoc, List.drop_left, ← length_oldTexts, List.take_left]
      have hlater : (oldTexts gap ++ oldTexts h.lines ++ oldTexts rest).drop
          ((oldTexts gap).length + oldCount h.lines) = oldTexts rest := by
        rw [← length_oldTexts, ← List.length_append, List.drop_left]
      have hfits : ¬ (h.oldBefore < oldBefore ∨
          (oldTexts gap ++ oldTexts h.lines ++ oldTexts rest).length < (oldTexts gap).length ∨
          h.newBefore ≠ newBefore + (oldTexts gap).length ∨
            oldTexts h.lines ≠ oldTexts h.lines) := by
        rintro (hlt | hlt | hne | hne)
        · omega
        · simp only [List.length_append] at hlt
          omega
        · omega
        · exact hne rfl
      rw [oldTexts_append, oldTexts_append, applyFrom]
      simp only [hskipped, hdrop, hlater, if_neg hfits, ih, Option.map_some]
      rw [newTexts_append, newTexts_append, newTexts_of_kept hgap, ← oldTexts_of_kept hgap,
        List.append_assoc (oldTexts gap), List.take_left]

/-- The lines of a hunk stand where it says in both texts. -/
structure StandsIn (h : Hunk) (old new : List Text) : Prop where
  old_eq : (old.drop h.oldBefore).take (oldCount h.lines) = oldTexts h.lines
  new_eq : (new.drop h.newBefore).take (newCount h.lines) = newTexts h.lines

/-- Hunks that show all changes stand where they say, also when other lines precede the diff. -/
theorem Covers.standsIn {oldBefore newBefore : Nat} {ls : List DiffLine} {hs : List Hunk}
    (h : Covers oldBefore newBefore ls hs) {old new : List Text} (hold : old.length = oldBefore)
    (hnew : new.length = newBefore) {k : Hunk} (hk : k ∈ hs) :
    k.StandsIn (old ++ oldTexts ls) (new ++ newTexts ls) := by
  have hmiddle : ∀ (before middle after : List Text) (i n : Nat), before.length = i →
      middle.length = n →
      ((before ++ (middle ++ after)).drop i).take n = middle := by
    rintro before middle after i n rfl rfl
    rw [List.drop_left, List.take_left]
  induction h generalizing old new with
  | nil => cases hk
  | @cons oldBefore newBefore gap rest h hs hgap holdGap hnewGap hrest ih =>
      have holdAll : old ++ oldTexts (gap ++ h.lines ++ rest)
          = (old ++ oldTexts gap) ++ (oldTexts h.lines ++ oldTexts rest) := by
        simp [oldTexts_append]
      have hnewAll : new ++ newTexts (gap ++ h.lines ++ rest)
          = (new ++ newTexts gap) ++ (newTexts h.lines ++ newTexts rest) := by
        simp [newTexts_append]
      have holdLength : (old ++ oldTexts gap).length = h.oldBefore := by
        rw [holdGap, List.length_append, hold, oldTexts_of_kept hgap, List.length_map]
      have hnewLength : (new ++ newTexts gap).length = h.newBefore := by
        rw [hnewGap, List.length_append, hnew, newTexts_of_kept hgap, List.length_map]
      rw [holdAll, hnewAll]
      rcases List.mem_cons.mp hk with rfl | hk
      · exact ⟨hmiddle _ _ _ _ _ holdLength (length_oldTexts _),
          hmiddle _ _ _ _ _ hnewLength (length_newTexts _)⟩
      · rw [← List.append_assoc, ← List.append_assoc (new ++ newTexts gap)]
        refine ih ?_ ?_ hk
        · rw [List.length_append, holdLength, length_oldTexts]
        · rw [List.length_append, hnewLength, length_newTexts]

/-- The lines of a hunk stand in a row in the diff. -/
theorem Covers.isInfix {oldBefore newBefore : Nat} {ls : List DiffLine} {hs : List Hunk}
    (h : Covers oldBefore newBefore ls hs) {k : Hunk} (hk : k ∈ hs) : k.lines <:+: ls := by
  induction h with
  | nil => cases hk
  | @cons oldBefore newBefore gap rest h hs hgap hold hnew hrest ih =>
      rcases List.mem_cons.mp hk with rfl | hk
      · exact List.infix_append gap k.lines rest
      · exact (ih hk).trans (List.suffix_append _ rest).isInfix

/-! ## Hunks that make a diff -/

/-- Hunks are a diff of two lists of lines: they are in order and apart, stand where they
say, show little more than changes with the removals of each run first, and turn the old
lines into the new ones. -/
structure IsDiff (hs : List Hunk) (old new : List Text) : Prop where
  apart : hs.Pairwise Precedes
  stands : ∀ h ∈ hs, h.StandsIn old new
  tight : ∀ h ∈ hs, h.IsTight
  removals_first : ∀ h ∈ hs, RemovalsFirst h.lines
  applies : applyAll hs old = some new

/-- The hunks of a diff cover its changes. -/
theorem covers_ofLines (ls : List DiffLine) : Covers 0 0 ls (ofLines ls) :=
  covers_hunksFrom 0 0 (Nat.lt_succ_self ls.length)

/-- The hunks of a diff in which removals come first are a diff of its two texts. -/
theorem isDiff_ofLines {ls : List DiffLine} (h : RemovalsFirst ls) :
    IsDiff (ofLines ls) (oldTexts ls) (newTexts ls) where
  apart := pairwise_hunksFrom _ 0 0 ls
  stands k hk := @Covers.standsIn 0 0 ls _ (covers_ofLines ls) [] [] rfl rfl k hk
  tight _ hk := isTight_of_mem_hunksFrom hk
  removals_first _ hk := h.of_infix ((covers_ofLines ls).isInfix hk)
  applies := (covers_ofLines ls).applyFrom_eq

end Hunk

end PointerMigration
