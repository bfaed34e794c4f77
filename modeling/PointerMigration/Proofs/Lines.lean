/-
# Lines that were written

A writer of lines puts a newline behind each of them. A reader then sees exactly these lines, and
whatever follows them is read as a text of its own. A text cut short ends with a part of one line.
-/
import PointerMigration.Text
import Mathlib.Data.List.Basic

namespace PointerMigration

namespace Text

/-! ## Writing lines -/

/-- The text of some lines, each with its newline. -/
def unlines (ls : List Text) : Text := ls.flatMap fun line => line ++ [newline]

@[simp] theorem unlines_nil : unlines [] = [] := rfl

@[simp] theorem unlines_cons (line : Text) (ls : List Text) :
    unlines (line :: ls) = line ++ newline :: unlines ls := by
  simp [unlines]

@[simp] theorem unlines_append (ls ms : List Text) :
    unlines (ls ++ ms) = unlines ls ++ unlines ms := by
  simp [unlines]

theorem unlines_flatMap {α : Type} (f : α → List Text) (xs : List α) :
    unlines (xs.flatMap f) = xs.flatMap fun x => unlines (f x) := by
  induction xs with
  | nil => rfl
  | cons x xs ih => simp [ih]

/-- A text of lines that is not empty ends with a newline. -/
theorem getLast?_unlines {ls : List Text} (h : ls ≠ []) : (unlines ls).getLast? = some newline := by
  rw [← List.dropLast_concat_getLast h, unlines_append]
  simp

/-! ## Reading them back -/

/-- A newline ends the first line, and the rest is read on its own. -/
theorem lines_append_newline {line : Text} (h : newline ∉ line) (t : Text) :
    lines (line ++ newline :: t) = line :: lines t := by
  have hsplit : (line ++ newline :: t).splitOn newline = line :: t.splitOn newline :=
    List.splitOn_append_cons_self_of_not_mem h t
  obtain ⟨first, more, hparts⟩ := List.exists_cons_of_ne_nil (List.splitOn_ne_nil newline t)
  unfold lines
  rw [hsplit, hparts]
  simp only [List.getLast?_cons_cons, List.dropLast_cons_cons]
  split <;> rfl

/-- What has no newline is one line, or none if it is empty. -/
theorem lines_of_notMem {t : Text} (h : newline ∉ t) :
    lines t = if t = [] then [] else [t] := by
  unfold lines
  rw [List.splitOn_eq_singleton h]
  by_cases ht : t = []
  · simp [ht]
  · simp [ht]

/-- Written lines are read back, and what follows them is read on its own. -/
theorem lines_unlines_append {ls : List Text} (h : ∀ line ∈ ls, newline ∉ line) (t : Text) :
    lines (unlines ls ++ t) = ls ++ lines t := by
  induction ls with
  | nil => rfl
  | cons line ls ih =>
      rw [unlines_cons, List.append_assoc, List.cons_append,
        lines_append_newline (h line (by simp)),
        ih fun other hother => h other (List.mem_cons_of_mem line hother)]
      rfl

/-- Lines that are written with their newlines are read back. -/
theorem lines_unlines {ls : List Text} (h : ∀ line ∈ ls, newline ∉ line) :
    lines (unlines ls) = ls := by
  have hlines := lines_unlines_append h []
  rw [List.append_nil] at hlines
  rw [hlines, lines_of_notMem List.not_mem_nil, if_pos rfl, List.append_nil]

/-- No part of a divided list holds what divides it. -/
theorem notMem_of_mem_splitOn {b : UInt8} {t part : Text} (h : part ∈ t.splitOn b) : b ∉ part := by
  induction t generalizing part with
  | nil =>
      obtain rfl : part = [] := by simpa using h
      exact List.not_mem_nil
  | cons c t ih =>
      rw [List.splitOn_cons_eq_if_modifyHead] at h
      split at h
      · rcases List.mem_cons.mp h with rfl | h
        · exact List.not_mem_nil
        · exact ih h
      · rename_i hc
        obtain ⟨first, more, hparts⟩ := List.exists_cons_of_ne_nil (List.splitOn_ne_nil b t)
        rw [hparts, List.modifyHead_cons] at h
        rw [hparts] at ih
        rcases List.mem_cons.mp h with rfl | h
        · intro hb
          rcases List.mem_cons.mp hb with rfl | hb
          · exact hc (beq_self_eq_true b)
          · exact ih (by simp) hb
        · exact ih (List.mem_cons_of_mem first h)

/-- A line has no newline. -/
theorem newline_notMem_of_mem_lines {t line : Text} (h : line ∈ lines t) : newline ∉ line := by
  unfold lines at h
  simp only at h
  split at h
  · exact notMem_of_mem_splitOn ((List.dropLast_sublist _).subset h)
  · exact notMem_of_mem_splitOn h

/-! ## The buffer of the reader -/

/-- A reader sees written lines that fit, and what follows them as if it stood alone. -/
theorem readLines_unlines_append {limit : Nat} {ls : List Text}
    (h : ∀ line ∈ ls, newline ∉ line) (hfit : ∀ line ∈ ls, line.length < limit) (t : Text) :
    readLines limit (unlines ls ++ t)
      = (ls.map dropReturn ++ (readLines limit t).1, (readLines limit t).2) := by
  have hwhile : ∀ ms : List Text, (ls ++ ms).takeWhile (fun line => line.length < limit)
      = ls ++ ms.takeWhile (fun line => line.length < limit) := by
    intro ms
    exact List.takeWhile_append_of_pos fun line hline => by simpa using hfit line hline
  have hany : ls.any (fun line => limit ≤ line.length) = false := by
    rw [List.any_eq_false]
    intro line hline
    simpa using hfit line hline
  unfold readLines
  rw [lines_unlines_append h]
  simp only [hwhile, List.map_append, List.any_append, hany, Bool.false_or]

/-- What has no newline and fits is read as one line. -/
theorem readLines_of_notMem {limit : Nat} {t : Text} (h : newline ∉ t) (ht : t ≠ [])
    (hfit : t.length < limit) : readLines limit t = ([dropReturn t], false) := by
  rw [readLines, lines_of_notMem h, if_neg ht]
  simp [hfit]

/-- A line that does not end in a carriage return is read as it is. -/
theorem dropReturn_of_getLast? {line : Text} (h : line.getLast? ≠ some carriageReturn) :
    dropReturn line = line := by
  rw [dropReturn, if_neg h]

theorem dropReturn_isPrefix (line : Text) : dropReturn line <+: line := by
  unfold dropReturn
  split
  · exact List.dropLast_prefix line
  · exact List.prefix_rfl

/-! ## Texts cut short -/

/-- A text of lines that is cut short consists of lines and the beginning of one more. -/
theorem exists_of_isPrefix_unlines {ls : List Text} {t : Text} (h : t <+: unlines ls) :
    ∃ before rest part, ls = before ++ rest ∧ t = unlines before ++ part ∧
      (part = [] ∨ part ≠ [] ∧ ∃ line later, rest = line :: later ∧ part <+: line) := by
  induction ls generalizing t with
  | nil =>
      have ht : t = [] := List.prefix_nil.mp h
      exact ⟨[], [], [], rfl, by simp [ht], Or.inl rfl⟩
  | cons line ls ih =>
      have hline : unlines (line :: ls) = (line ++ [newline]) ++ unlines ls := by simp
      rw [hline] at h
      rcases List.prefix_or_prefix_of_prefix h (List.prefix_append _ _) with hshort | hlong
      · rcases List.prefix_concat_iff.mp hshort with rfl | hpart
        · exact ⟨[line], ls, [], rfl, by simp, Or.inl rfl⟩
        · by_cases ht : t = []
          · exact ⟨[], line :: ls, [], rfl, by simp [ht], Or.inl rfl⟩
          · exact ⟨[], line :: ls, t, rfl, rfl, Or.inr ⟨ht, line, ls, rfl, hpart⟩⟩
      · obtain ⟨more, rfl⟩ := hlong
        rw [List.prefix_append_right_inj] at h
        obtain ⟨before, rest, part, rfl, rfl, hpart⟩ := ih h
        exact ⟨line :: before, rest, part, rfl, by simp, hpart⟩

/-- A text of lines and a part of one more that is cut behind a newline consists of some of the
lines. -/
theorem exists_of_isPrefix_of_getLast? {ls : List Text} {part t : Text}
    (hls : ∀ line ∈ ls, newline ∉ line) (hpart : newline ∉ part)
    (h : t <+: unlines ls ++ part) (hlast : t.getLast? = some newline) :
    ∃ before rest, ls = before ++ rest ∧ t = unlines before := by
  -- A text that ends with a part of a line does not end in a newline.
  have hend : ∀ before q : Text, q ≠ [] → newline ∉ q → (before ++ q).getLast? ≠ some newline := by
    intro before q hq hnot hnewline
    rw [List.getLast?_append_of_ne_nil before hq] at hnewline
    exact hnot (List.mem_of_getLast? hnewline)
  have hshort : t <+: unlines ls := by
    rcases List.prefix_or_prefix_of_prefix h (List.prefix_append _ _) with hshort | ⟨q, rfl⟩
    · exact hshort
    · rw [List.prefix_append_right_inj] at h
      by_cases hq : q = []
      · simp [hq]
      · exact absurd hlast (hend _ q hq fun hmem => hpart (h.subset hmem))
  obtain ⟨before, rest, q, rfl, rfl, hq⟩ := exists_of_isPrefix_unlines hshort
  rcases hq with rfl | ⟨hq, line, later, rfl, hline⟩
  · exact ⟨before, rest, rfl, List.append_nil _⟩
  · exact absurd hlast (hend _ q hq fun hmem => hls line (by simp) (hline.subset hmem))

end Text

end PointerMigration
