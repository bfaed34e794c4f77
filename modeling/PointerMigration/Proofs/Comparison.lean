/-
# Scripts lead from one list to the other

The script of two lists keeps and deletes the elements of the first list, and keeps and
inserts those of the second, in order. Joining and shifting the parts of a script changes
neither list, and dividing two lists around what they share, or anywhere else, leads to
scripts that can be put together again.
-/
import PointerMigration.Diff.Compare
import Mathlib.Tactic.NthRewrite

namespace PointerMigration

variable {α : Type}

namespace Script

@[simp] theorem source_cons (p : Part α) (s : Script α) :
    source (p :: s) = (if p.change = .insert then [] else p.items) ++ source s := by
  simp [source]

@[simp] theorem target_cons (p : Part α) (s : Script α) :
    target (p :: s) = (if p.change = .delete then [] else p.items) ++ target s := by
  simp [target]

@[simp] theorem source_append (s t : Script α) : source (s ++ t) = source s ++ source t := by
  simp [source]

@[simp] theorem target_append (s t : Script α) : target (s ++ t) = target s ++ target t := by
  simp [target]

@[simp] theorem source_nil : source ([] : Script α) = [] := rfl

@[simp] theorem target_nil : target ([] : Script α) = [] := rfl

/-- A script leads from one list to another. -/
structure Leads (s : Script α) (a b : List α) : Prop where
  source_eq : source s = a
  target_eq : target s = b

theorem leads_nil : Leads ([] : Script α) [] [] := ⟨rfl, rfl⟩

/-- Scripts that are put together lead from the joined lists to the joined lists. -/
theorem Leads.append {s t : Script α} {a b c d : List α} (hs : Leads s a b) (ht : Leads t c d) :
    Leads (s ++ t) (a ++ c) (b ++ d) := by
  constructor
  · rw [source_append, hs.source_eq, ht.source_eq]
  · rw [target_append, hs.target_eq, ht.target_eq]

theorem leads_keep (items : List α) : Leads [⟨.keep, items⟩] items items := by
  constructor <;> simp

theorem leads_delete (items : List α) : Leads [⟨.delete, items⟩] items [] := by
  constructor <;> simp

theorem leads_insert (items : List α) : Leads [⟨.insert, items⟩] [] items := by
  constructor <;> simp

theorem leads_kept (items : List α) : Leads (kept items) items items := by
  unfold kept
  split
  · rename_i hempty
    rw [List.isEmpty_iff.mp hempty]
    exact leads_nil
  · exact leads_keep items

theorem leads_replace (a b : List α) : Leads (replace a b) a b := by
  constructor <;> simp [replace]

end Script

/-! ## What two lists share -/

namespace Shared

variable [DecidableEq α]

/-- The shared front is the same in both lists. -/
theorem take_frontLength (s t : List α) : s.take (frontLength s t) = t.take (frontLength s t) := by
  fun_induction frontLength s t with
  | case1 a s t ih => simp [ih]
  | case2 => rfl
  | case3 => rfl

theorem frontLength_le (s t : List α) :
    frontLength s t ≤ s.length ∧ frontLength s t ≤ t.length := by
  fun_induction frontLength s t with
  | case1 a s t ih => simpa using ih
  | case2 => simp
  | case3 => simp

theorem endLength_le (s t : List α) : endLength s t ≤ s.length ∧ endLength s t ≤ t.length := by
  simpa [endLength] using frontLength_le s.reverse t.reverse

/-- The shared end is the same in both lists. -/
theorem drop_endLength (s t : List α) :
    s.drop (s.length - endLength s t) = t.drop (t.length - endLength s t) := by
  have hshared := congrArg List.reverse (take_frontLength s.reverse t.reverse)
  simpa [List.reverse_take, endLength] using hshared

/-- A list occurs where it is said to occur. -/
theorem isPrefix_of_mem_occurrencesFrom {part t : List α} {offset i : Nat}
    (h : i ∈ occurrencesFrom part offset t) :
    offset ≤ i ∧ i ≤ offset + t.length ∧ part <+: t.drop (i - offset) := by
  induction t generalizing offset with
  | nil =>
      rw [occurrencesFrom] at h
      split at h
      · obtain rfl : i = offset := by simpa using h
        have hpart : part = [] := by simpa using ‹part.isEmpty = true›
        simp [hpart]
      · cases h
  | cons x t ih =>
      have hlater : i ∈ occurrencesFrom part (offset + 1) t →
          offset ≤ i ∧ i ≤ offset + (x :: t).length ∧ part <+: (x :: t).drop (i - offset) := by
        intro hi
        obtain ⟨hle, hlast, hpart⟩ := ih hi
        refine ⟨by omega, by simp only [List.length_cons]; omega, ?_⟩
        rw [show i - offset = (i - (offset + 1)) + 1 by omega, List.drop_succ_cons]
        exact hpart
      rw [occurrencesFrom] at h
      split at h
      · rcases List.mem_cons.mp h with rfl | h
        · simpa using ‹part.isPrefixOf (x :: t) = true›
        · exact hlater h
      · exact hlater h

/-- At each offset that is found the part occurs. -/
theorem isPrefix_of_mem_occurrences {part t : List α} {i : Nat} (h : i ∈ occurrences part t) :
    i ≤ t.length ∧ part <+: t.drop i := by
  simpa using (isPrefix_of_mem_occurrencesFrom h).2

end Shared

/-! ## Half matches -/

namespace HalfMatch

/-- A half match divides two lists around a part they share. -/
structure Divides (m : HalfMatch α) (a b : List α) : Prop where
  first_eq : m.firstBefore ++ (m.shared ++ m.firstAfter) = a
  second_eq : m.secondBefore ++ (m.shared ++ m.secondAfter) = b

theorem Divides.swap {m : HalfMatch α} {a b : List α} (h : m.Divides a b) : m.swap.Divides b a :=
  ⟨h.second_eq, h.first_eq⟩

/-- The one of two divisions that shares more is a division. -/
theorem Divides.longer {m n : HalfMatch α} {a b : List α} (hm : m.Divides a b)
    (hn : n.Divides a b) :
    (m.longer n).Divides a b := by
  unfold HalfMatch.longer
  split
  · exact hn
  · exact hm

/-- The best of many divisions is a division. -/
theorem Divides.foldl_longer {m : HalfMatch α} {ms : List (HalfMatch α)} {a b : List α}
    (hm : m.Divides a b) (hms : ∀ n ∈ ms, n.Divides a b) :
    (ms.foldl HalfMatch.longer m).Divides a b := by
  induction ms generalizing m with
  | nil => exact hm
  | cons n ms ih =>
      exact ih (hm.longer (hms n (by simp))) fun other hother =>
        hms other (List.mem_cons_of_mem n hother)

/-- A list is put together from a front, some elements on both sides of a place, and the rest. -/
theorem take_append_take_append_drop {t : List α} {i behind ahead : Nat} (h : behind ≤ i) :
    t.take (i - behind) ++
      ((t.drop (i - behind)).take (behind + ahead) ++ t.drop (i + ahead)) = t := by
  have hdrop : t.drop (i + ahead) = (t.drop (i - behind)).drop (behind + ahead) := by
    rw [List.drop_drop]
    congr 1
    omega
  rw [hdrop, List.take_append_drop, List.take_append_drop]

variable [DecidableEq α]

/-- Around any two offsets the lists are divided by what they share there. -/
theorem divides_around {long short : List α} {i j : Nat} (hi : i ≤ long.length)
    (hj : j ≤ short.length) :
    (around long short i j).Divides long short := by
  obtain ⟨hbehindLong, hbehindShort⟩ := Shared.endLength_le (long.take i) (short.take j)
  obtain ⟨haheadLong, haheadShort⟩ := Shared.frontLength_le (long.drop i) (short.drop j)
  have hahead := Shared.take_frontLength (long.drop i) (short.drop j)
  have hbehind := Shared.drop_endLength (long.take i) (short.take j)
  simp only [List.length_take, Nat.min_eq_left hi, Nat.min_eq_left hj]
    at hbehindLong hbehindShort hbehind
  -- The shared part, seen from either list, is what lies behind the place and what lies ahead of
  -- it.
  have hpart : ∀ (t : List α) (k behind ahead : Nat), behind ≤ k → k ≤ t.length →
      (t.drop (k - behind)).take (behind + ahead)
        = (t.take k).drop (k - behind) ++ (t.drop k).take ahead := by
    intro t k behind ahead hk ht
    have hlength : ((t.take k).drop (k - behind)).length = behind := by
      rw [List.length_drop, List.length_take]
      omega
    nth_rewrite 1 [← List.take_append_drop k t]
    rw [List.drop_append_of_le_length (by rw [List.length_take]; omega), List.take_append, hlength,
      List.take_of_length_le (by omega)]
    congr 2
    omega
  have hshared : (long.drop (i - Shared.endLength (long.take i) (short.take j))).take
      (Shared.endLength (long.take i) (short.take j)
        + Shared.frontLength (long.drop i) (short.drop j))
      = (short.drop (j - Shared.endLength (long.take i) (short.take j))).take
        (Shared.endLength (long.take i) (short.take j)
          + Shared.frontLength (long.drop i) (short.drop j)) := by
    rw [hpart long i _ _ hbehindLong hi, hpart short j _ _ hbehindShort hj, hahead, hbehind]
  constructor
  · unfold around
    simp only
    rw [← hshared]
    exact take_append_take_append_drop hbehindLong
  · exact take_append_take_append_drop hbehindShort

/-- The half match at a place of the longer list divides both lists. -/
theorem divides_of_at? {long short : List α} {i : Nat} {m : HalfMatch α} (hi : i ≤ long.length)
    (h : at? long short i = some m) : m.Divides long short := by
  have hall : ∀ n ∈ (Shared.occurrences ((long.drop i).take (long.length / 4)) short).map
      (around long short i), n.Divides long short := by
    intro n hn
    obtain ⟨j, hj, rfl⟩ := List.mem_map.mp hn
    exact divides_around hi (Shared.isPrefix_of_mem_occurrences hj).1
  unfold at? at h
  simp only at h
  split at h
  · cases h
  · rename_i first rest hmatches
    rw [hmatches] at hall
    split at h
    · cases h
    · obtain rfl := Option.some.inj h
      exact (hall first (by simp)).foldl_longer fun n hn => hall n (List.mem_cons_of_mem first hn)

/-- The half match of a list with a shorter one divides both. -/
theorem divides_of_ofLonger? {long short : List α} {m : HalfMatch α}
    (h : ofLonger? long short = some m) :
    m.Divides long short := by
  unfold ofLonger? at h
  split at h
  · cases h
  · rename_i hlong
    have hlong : 4 ≤ long.length := by
      simp at hlong
      omega
    have hfirst : (long.length + 3) / 4 ≤ long.length := by omega
    have hsecond : (long.length + 1) / 2 ≤ long.length := by omega
    split at h
    · rename_i first second hat hat'
      obtain rfl := Option.some.inj h
      exact (divides_of_at? hsecond hat').longer (divides_of_at? hfirst hat)
    · rename_i first hat hat'
      obtain rfl := Option.some.inj h
      exact divides_of_at? hfirst hat
    · exact divides_of_at? hsecond h

/-- A half match divides both lists, whichever is the longer. -/
theorem divides_of_find? {a b : List α} {m : HalfMatch α} (h : find? a b = some m) :
    m.Divides a b := by
  unfold find? at h
  split at h
  · exact divides_of_ofLonger? h
  · obtain ⟨n, hn, rfl⟩ := Option.map_eq_some_iff.mp h
    exact (divides_of_ofLonger? hn).swap

end HalfMatch

namespace Script

/-! ## Tidying -/

/-- Keeping more items appends them to both lists. -/
theorem leads_keepMore {done : Script α} {a b : List α} (h : Leads done.reverse a b)
    (items : List α) :
    Leads (keepMore done items).reverse (a ++ items) (b ++ items) := by
  unfold keepMore
  split
  · rename_i kept rest
    rw [List.reverse_cons] at h ⊢
    rw [← h.source_eq, ← h.target_eq]
    constructor <;> simp
  · rw [List.reverse_cons]
    exact h.append (leads_keep items)

/-- Changes that are counted as none are none. -/
structure Pending.IsCounted (p : Pending α) : Prop where
  deleted_eq : p.deletions = 0 → p.deleted = []
  inserted_eq : p.insertions = 0 → p.inserted = []

/-- The parts that are pending lead from the deleted items to the inserted ones. -/
theorem Pending.IsCounted.leads {p : Pending α} (h : p.IsCounted) :
    Leads p.parts.reverse p.deleted p.inserted := by
  have hdeleted : Leads (if p.deletions = 0 then [] else [⟨.delete, p.deleted⟩]) p.deleted [] := by
    split
    · rw [h.deleted_eq ‹_›]
      exact leads_nil
    · exact leads_delete p.deleted
  have hinserted : Leads (if p.insertions = 0 then [] else [⟨.insert, p.inserted⟩]) []
      p.inserted := by
    split
    · rw [h.inserted_eq ‹_›]
      exact leads_nil
    · exact leads_insert p.inserted
  have hparts : p.parts.reverse = (if p.deletions = 0 then [] else [⟨.delete, p.deleted⟩])
      ++ (if p.insertions = 0 then [] else [⟨.insert, p.inserted⟩]) := by
    unfold Pending.parts
    split <;> split <;> rfl
  rw [hparts]
  simpa using hdeleted.append hinserted

variable [DecidableEq α]

/-- What is joined leads on by the pending changes and the kept part. -/
theorem leads_joinKept {done : Script α} {p : Pending α} {a b : List α} (h : Leads done.reverse a b)
    (hp : p.IsCounted) (kept : List α) :
    Leads (joinKept done p kept).reverse (a ++ (p.deleted ++ kept))
      (b ++ (p.inserted ++ kept)) := by
  unfold joinKept
  split
  · rename_i hnone
    rw [hp.deleted_eq (by omega), hp.inserted_eq (by omega)]
    exact leads_keepMore h kept
  · split
    · rw [List.reverse_cons, List.reverse_append, List.append_assoc]
      exact h.append (hp.leads.append (leads_keep kept))
    · rename_i hsome
      have hsome : p.deletions ≠ 0 ∧ p.insertions ≠ 0 := by simpa using hsome
      -- The shared front is kept before the changes, and the shared end after them.
      have hfront : Leads (if Shared.frontLength p.inserted p.deleted = 0 then done
            else keepMore done (p.inserted.take (Shared.frontLength p.inserted p.deleted))).reverse
          (a ++ p.deleted.take (Shared.frontLength p.inserted p.deleted))
          (b ++ p.inserted.take (Shared.frontLength p.inserted p.deleted)) := by
        rw [← Shared.take_frontLength]
        split
        · rename_i hzero
          simpa [hzero] using h
        · exact leads_keepMore h _
      generalize Shared.frontLength p.inserted p.deleted = front at hfront
      have hend := Shared.drop_endLength (p.inserted.drop front) (p.deleted.drop front)
      simp only
      generalize Shared.endLength (p.inserted.drop front) (p.deleted.drop front) = back at hend
      have hcounted : Pending.IsCounted
          { p with
            inserted := (p.inserted.drop front).take ((p.inserted.drop front).length - back)
            deleted := (p.deleted.drop front).take ((p.deleted.drop front).length - back) } :=
        ⟨fun hzero => absurd hzero hsome.1, fun hzero => absurd hzero hsome.2⟩
      have hall := hfront.append (hcounted.leads.append (leads_keep
        ((p.inserted.drop front).drop ((p.inserted.drop front).length - back) ++ kept)))
      have hdeleted : p.deleted.take front ++
          ((p.deleted.drop front).take ((p.deleted.drop front).length - back)
          ++ ((p.inserted.drop front).drop ((p.inserted.drop front).length - back) ++ kept))
          = p.deleted ++ kept := by
        rw [hend, ← List.append_assoc (List.take _ _) (List.drop _ _), List.take_append_drop,
          ← List.append_assoc, List.take_append_drop]
      have hinserted : p.inserted.take front
          ++ ((p.inserted.drop front).take ((p.inserted.drop front).length - back)
          ++ ((p.inserted.drop front).drop ((p.inserted.drop front).length - back) ++ kept))
          = p.inserted ++ kept := by
        rw [← List.append_assoc (List.take _ _) (List.drop _ _), List.take_append_drop,
          ← List.append_assoc, List.take_append_drop]
      rw [List.append_assoc a, List.append_assoc b, hdeleted, hinserted] at hall
      rw [List.reverse_cons, List.reverse_append, List.append_assoc]
      exact hall

/-- Joining the parts of a script changes neither the list that it starts from nor the one it leads
to. -/
theorem leads_joinFrom {done : Script α} {p : Pending α} {a b : List α} (h : Leads done.reverse a b)
    (hp : p.IsCounted) (s : Script α) :
    Leads (joinFrom done p s).reverse (a ++ (p.deleted ++ source s))
      (b ++ (p.inserted ++ target s)) := by
  fun_induction joinFrom done p s generalizing a b with
  | case1 done p => exact leads_joinKept h hp []
  | case2 done p items rest ih =>
      have hmore := ih h ⟨hp.deleted_eq, by simp⟩
      simpa using hmore
  | case3 done p items rest ih =>
      have hmore := ih h ⟨by simp, hp.inserted_eq⟩
      simpa using hmore
  | case4 done p items rest ih =>
      have hmore := ih (leads_joinKept h hp items) ⟨fun _ => rfl, fun _ => rfl⟩
      simpa using hmore

/-- Joining changes neither list. -/
theorem leads_joined (s : Script α) : Leads (joined s) (source s) (target s) := by
  have hall : Leads (joinFrom [] {} s).reverse (source s) (target s) := by
    exact @leads_joinFrom α _ [] {} [] [] leads_nil ⟨fun _ => rfl, fun _ => rfl⟩ s
  unfold joined
  split
  · rename_i change rest hdone
    rw [hdone, List.reverse_cons] at hall
    rw [← hall.source_eq, ← hall.target_eq]
    constructor <;> simp
  · exact hall

/-- A change that ends with what is kept before it, or begins with what is kept after it, can be
moved. -/
theorem leads_shiftFrom (fuel : Nat) (done rest : Script α) (shifted : Bool) :
    Leads (shiftFrom fuel done rest shifted).1 (source done.reverse ++ source rest)
      (target done.reverse ++ target rest) := by
  fun_induction shiftFrom fuel done rest shifted with
  | case1 fuel done before change after rest shifted hkept hend moved ih =>
      obtain ⟨hbefore, hafter⟩ : before.change = .keep ∧ after.change = .keep := by
        simpa using hkept
      obtain ⟨front, hitems⟩ := List.isSuffixOf_iff_suffix.mp hend
      have hmoved : moved = before.items ++ front := by
        simp [moved, ← hitems]
      rw [hmoved] at ih ⊢
      cases hchange : change.change with
      | keep => simpa [hbefore, hafter, hchange, ← hitems] using ih
      | delete => simpa [hbefore, hafter, hchange, ← hitems] using ih
      | insert => simpa [hbefore, hafter, hchange, ← hitems] using ih
  | case2 fuel done before change after rest shifted hkept _ hfront moved ih =>
      obtain ⟨hbefore, hafter⟩ : before.change = .keep ∧ after.change = .keep := by
        simpa using hkept
      obtain ⟨back, hitems⟩ := List.isPrefixOf_iff_prefix.mp hfront
      have hmoved : moved = back ++ after.items := by
        simp [moved, ← hitems]
      rw [hmoved] at ih ⊢
      cases hchange : change.change with
      | keep => simpa [hbefore, hafter, hchange, ← hitems] using ih
      | delete => simpa [hbefore, hafter, hchange, ← hitems] using ih
      | insert => simpa [hbefore, hafter, hchange, ← hitems] using ih
  | case3 fuel done before change after rest shifted _ _ _ ih => simpa using ih
  | case4 fuel done before change after rest shifted _ ih => simpa using ih
  | case5 _ done rest shifted => exact ⟨by simp, by simp⟩

/-- Tidying a script changes neither list, however often it is done. -/
theorem leads_tidyUpTo (fuel : Nat) (s : Script α) :
    Leads (tidyUpTo fuel s) (source s) (target s) := by
  have hround : ∀ s : Script α, Leads (shift (joined s)).1 (source s) (target s) := by
    intro s
    have hshift := leads_shiftFrom (joined s).length [] (joined s) false
    rw [(leads_joined s).source_eq, (leads_joined s).target_eq] at hshift
    exact hshift
  induction fuel generalizing s with
  | zero => exact ⟨rfl, rfl⟩
  | succ fuel ih =>
      have hs := hround s
      rw [tidyUpTo]
      split
      · rename_i t hshift
        rw [hshift] at hs
        rw [← hs.source_eq, ← hs.target_eq]
        exact ih t
      · rename_i t hshift
        rw [hshift] at hs
        exact hs

/-- Tidying changes neither list. -/
theorem Leads.tidy {s : Script α} {a b : List α} (h : Leads s a b) : Leads (tidy s) a b := by
  rw [← h.source_eq, ← h.target_eq]
  exact leads_tidyUpTo (rounds s) s

/-! ## Comparing -/

/-- The shorter list is kept where it occurs in the longer. -/
theorem leads_within {a b : List α} {i : Nat}
    (h : i ∈ if b.length < a.length then Shared.occurrences b a else Shared.occurrences a b) :
    Leads (within a b i) a b := by
  have hdivide : ∀ long short : List α, i ∈ Shared.occurrences short long →
      long.take i ++ (short ++ long.drop (i + short.length)) = long := by
    intro long short hi
    obtain ⟨after, hafter⟩ := (Shared.isPrefix_of_mem_occurrences hi).2
    have hrest : long.drop (i + short.length) = after := by
      rw [← List.drop_drop, ← hafter, List.drop_left]
    rw [hrest, hafter, List.take_append_drop]
  unfold within
  split at h
  · rw [if_pos ‹_›]
    exact ⟨by simpa using hdivide a b h, by simp⟩
  · rw [if_neg ‹_›]
    exact ⟨by simp, by simpa using hdivide b a h⟩

/-- Two lists are divided, and the scripts of the parts put together. -/
theorem leads_middle {compare : List α → List α → Script α} (h : ∀ a b, Leads (compare a b) a b)
    (a b : List α) : Leads (middle compare a b) a b := by
  unfold middle
  split
  · rename_i hempty
    rw [List.isEmpty_iff.mp hempty]
    exact leads_insert b
  · split
    · rename_i hempty
      rw [List.isEmpty_iff.mp hempty]
      exact leads_delete a
    · have hoccurs :
          (if b.length < a.length then Shared.occurrences b a else Shared.occurrences a b)
          = Shared.occurrences (if b.length < a.length then (a, b) else (b, a)).2
              (if b.length < a.length then (a, b) else (b, a)).1 := by
        split <;> rfl
      generalize (if b.length < a.length then (a, b) else (b, a)) = pair at hoccurs
      obtain ⟨long, short⟩ := pair
      simp only at hoccurs ⊢
      split
      · rename_i i others hfound
        refine leads_within ?_
        rw [hoccurs, hfound]
        simp
      · split
        · exact leads_replace a b
        · split
          · rename_i m hm
            obtain ⟨hfirst, hsecond⟩ := HalfMatch.divides_of_find? hm
            have hall := (h m.firstBefore m.secondBefore).append
              ((leads_keep m.shared).append (h m.firstAfter m.secondAfter))
            rwa [hfirst, hsecond] at hall
          · split
            · rename_i x y hxy
              have hall := (h (a.take x) (b.take y)).append (h (a.drop x) (b.drop y))
              rwa [List.take_append_drop, List.take_append_drop] at hall
            · exact leads_replace a b

/-- The script of two lists leads from one to the other, however often they may be divided. -/
theorem leads_compareUpTo (fuel : Nat) (a b : List α) : Leads (compareUpTo fuel a b) a b := by
  induction fuel generalizing a b with
  | zero => exact leads_replace a b
  | succ fuel ih =>
      rw [compareUpTo]
      split
      · rename_i heq
        rw [← heq]
        exact leads_kept a
      · have hfront := Shared.take_frontLength a b
        simp only
        generalize Shared.frontLength a b = front at hfront
        have hend := Shared.drop_endLength (a.drop front) (b.drop front)
        generalize Shared.endLength (a.drop front) (b.drop front) = back at hend
        have hall := ((leads_kept (a.take front)).append (leads_middle ih
          ((a.drop front).take ((a.drop front).length - back))
          ((b.drop front).take ((b.drop front).length - back)))).append
          (leads_kept ((a.drop front).drop ((a.drop front).length - back)))
        have ha : a.take front ++ (a.drop front).take ((a.drop front).length - back)
            ++ (a.drop front).drop ((a.drop front).length - back) = a := by
          rw [List.append_assoc, List.take_append_drop, List.take_append_drop]
        have hb : a.take front ++ (b.drop front).take ((b.drop front).length - back)
            ++ (a.drop front).drop ((a.drop front).length - back) = b := by
          rw [hend, hfront, List.append_assoc, List.take_append_drop, List.take_append_drop]
        rw [ha, hb] at hall
        exact hall.tidy

/-- The script of two lists leads from the first to the second. -/
theorem leads_compare (a b : List α) : Leads (compare a b) a b :=
  leads_compareUpTo (a.length + b.length + 1) a b

end Script

end PointerMigration
