/-
# Stable sorting

A stable sort is known from the values that tie: two lists are sorted alike if and only if, for
every value, those that tie with it come in the same order in both. So it does not matter if a part
of a list has been sorted before the rest is added to it.
-/
import PointerMigration.Text

namespace PointerMigration

/-- Two values tie: neither of them has to come first. -/
def ties {α : Type} (le : α → α → Bool) (a b : α) : Bool := le a b && le b a

section

variable {α : Type} {le : α → α → Bool}

/-- Values that tie with one value are in order whichever comes first. -/
theorem pairwise_filter_ties (htrans : ∀ a b c, le a b = true → le b c = true → le a c = true)
    (a : α) (l : List α) : (l.filter (ties le a)).Pairwise fun b c => le b c = true := by
  rw [List.pairwise_filter]
  apply List.pairwise_of_forall
  intro b c hb hc
  rw [ties, Bool.and_eq_true] at hb hc
  exact htrans b a c hb.2 hc.1

variable (htotal : ∀ a b, (le a b || le b a) = true)

include htotal

theorem ties_self (a : α) : ties le a a = true := by
  have h := htotal a a
  rw [Bool.or_self] at h
  rw [ties, h, Bool.and_self]

/-- Lists in order start with the same value if the values that tie come in the same order in
both. -/
theorem head_eq_of_ties {a b : α} {l l' : List α} (ha : (a :: l).Pairwise fun x y => le x y = true)
    (hb : (b :: l').Pairwise fun x y => le x y = true)
    (h : ∀ c, (a :: l).filter (ties le c) = (b :: l').filter (ties le c)) : a = b := by
  have hself := ties_self htotal
  -- Each list has the first value of the other, and its own first value comes no later.
  have hle : ∀ {x y : α} {m m' : List α}, (x :: m).Pairwise (fun x y => le x y = true) →
      (x :: m).filter (ties le y) = (y :: m').filter (ties le y) → le x y = true := by
    intro x y m m' hm hy
    have hin : y ∈ (x :: m).filter (ties le y) := by
      rw [hy]
      exact List.mem_filter.mpr ⟨List.mem_cons_self, hself y⟩
    rcases List.mem_cons.mp (List.mem_filter.mp hin).1 with rfl | hin
    · exact (Bool.and_eq_true _ _ ▸ hself y).1
    · exact (List.pairwise_cons.mp hm).1 y hin
  have hab : ties le a b = true := by
    rw [ties, hle ha (h b), hle hb (h a).symm]
    rfl
  have hfirst := h a
  rw [List.filter_cons_of_pos (hself a), List.filter_cons_of_pos hab] at hfirst
  exact (List.cons.inj hfirst).1

/-- Lists in order are equal if the values that tie come in the same order in both. -/
theorem eq_of_ties {l l' : List α} (hl : l.Pairwise fun a b => le a b = true)
    (hl' : l'.Pairwise fun a b => le a b = true)
    (h : ∀ a, l.filter (ties le a) = l'.filter (ties le a)) : l = l' := by
  induction l generalizing l' with
  | nil =>
      cases l' with
      | nil => rfl
      | cons b l' =>
          have hb := h b
          rw [List.filter_cons_of_pos (ties_self htotal b)] at hb
          cases hb
  | cons a l ih =>
      cases l' with
      | nil =>
          have ha := h a
          rw [List.filter_cons_of_pos (ties_self htotal a)] at ha
          cases ha
      | cons b l' =>
          obtain rfl := head_eq_of_ties htotal hl hl' h
          congr 1
          refine ih (List.pairwise_cons.mp hl).2 (List.pairwise_cons.mp hl').2 fun c => ?_
          have hc := h c
          rw [List.filter_cons, List.filter_cons] at hc
          split at hc
          · exact (List.cons.inj hc).2
          · exact hc

variable (htrans : ∀ a b c, le a b = true → le b c = true → le a c = true)

include htrans

/-- Sorting leaves values that are in order already as they follow one another. -/
theorem filter_mergeSort {p : α → Bool} {l : List α}
    (h : (l.filter p).Pairwise fun a b => le a b = true) :
    (l.mergeSort le).filter p = l.filter p := by
  -- A part that is in order stays a part, and nothing else passes the filter.
  have hsublist : (l.filter p).Sublist (l.mergeSort le) :=
    List.sublist_mergeSort htrans htotal h List.filter_sublist
  have hfilter := hsublist.filter p
  simp only [List.filter_filter, Bool.and_self] at hfilter
  have hperm : ((l.mergeSort le).filter p).Perm (l.filter p) := (List.mergeSort_perm l le).filter p
  exact (hfilter.eq_of_length hperm.length_eq.symm).symm

/-- **Stability.** Two lists are sorted alike if and only if the values that tie come in the
same order in both. -/
theorem mergeSort_eq_iff {l l' : List α} :
    l.mergeSort le = l'.mergeSort le ↔ ∀ a, l.filter (ties le a) = l'.filter (ties le a) := by
  have hsort : ∀ (m : List α) (a : α), (m.mergeSort le).filter (ties le a) = m.filter (ties le a) :=
    fun m a => filter_mergeSort htotal htrans (pairwise_filter_ties htrans a m)
  constructor
  · intro h a
    rw [← hsort l, h, hsort l']
  · intro h
    refine eq_of_ties htotal (List.pairwise_mergeSort htrans htotal l)
      (List.pairwise_mergeSort htrans htotal l') fun a => ?_
    rw [hsort, hsort, h]

/-- What lists are sorted to after more has been added depends only on what they are sorted to
before. -/
theorem mergeSort_append_congr {l l' : List α} (h : l.mergeSort le = l'.mergeSort le) (m : List α) :
    (l ++ m).mergeSort le = (l' ++ m).mergeSort le := by
  rw [mergeSort_eq_iff htotal htrans] at h ⊢
  intro a
  rw [List.filter_append, List.filter_append, h]

theorem mergeSort_mergeSort (l : List α) : (l.mergeSort le).mergeSort le = l.mergeSort le :=
  List.mergeSort_of_pairwise (List.pairwise_mergeSort htrans htotal l)

end

end PointerMigration
