/-
# Matches lie in the text

A search hands the offset at which it started from thread to thread and adds up the lengths of the
runes it has passed. So a match starts no later than it stops, and it stops in the text.
-/
import PointerMigration.Pattern.Search
import PointerMigration.Proofs.Utf8

namespace PointerMigration

/-! ## The bytes of runes -/

/-- The number of bytes of the first rune. -/
theorem Rune.width_getD (b : UInt8) (t : Text) :
    0 < ((sequence? (b :: t)).getD (replacement, 1)).2 ∧
      ((sequence? (b :: t)).getD (replacement, 1)).2 ≤ (b :: t).length := by
  cases h : sequence? (b :: t) with
  | none => simp
  | some read => exact sequence?_width h

namespace Pattern

/-- A match that has been found by the offset `offset`. -/
def Match.Before (m : Match) (offset : Nat) : Prop := m.start ≤ m.stop ∧ m.stop ≤ offset

theorem Match.Before.mono {m : Match} {offset offset' : Nat} (h : m.Before offset)
    (hle : offset ≤ offset') :
    m.Before offset' :=
  ⟨h.1, Nat.le_trans h.2 hle⟩

namespace Program

variable (p : Program)

/-! ## Where threads started -/

/-- Following forks keeps the offsets at which threads started. -/
theorem start_le_of_mem_follow {offset : Nat} {holds : Assertion → Bool} {fuel : Nat}
    {todo : List Thread} {seen : Array Bool} {reached : List Thread}
    (htodo : ∀ t ∈ todo, t.start ≤ offset) (hreached : ∀ t ∈ reached, t.start ≤ offset) :
    ∀ t ∈ p.follow holds fuel todo seen reached, t.start ≤ offset := by
  induction fuel generalizing todo seen reached with
  | zero => simpa [follow] using hreached
  | succ fuel ih =>
      cases todo with
      | nil => simpa [follow] using hreached
      | cons t todo =>
          obtain ⟨ht, htodo⟩ := List.forall_mem_cons.mp htodo
          rw [follow]
          split
          · exact ih htodo hreached
          · split
            · exact ih htodo hreached
            · exact ih (List.forall_mem_cons.mpr ⟨ht, List.forall_mem_cons.mpr ⟨ht, htodo⟩⟩)
                hreached
            · split
              · exact ih (List.forall_mem_cons.mpr ⟨ht, htodo⟩) hreached
              · exact ih htodo hreached
            · exact ih htodo (List.forall_mem_cons.mpr ⟨ht, hreached⟩)
            · exact ih htodo (List.forall_mem_cons.mpr ⟨ht, hreached⟩)

/-- A thread that goes on keeps the place where it began. -/
theorem start_of_advance? {r : Rune} {t t' : Thread} (h : p.advance? r t = some t') :
    t'.start = t.start := by
  unfold advance? at h
  split at h
  · split at h
    · cases h
      rfl
    · cases h
  · cases h

/-! ## Where matches are -/

/-- The threads at an offset, one of which starts there unless a match has been found. -/
def threadsAt (before after : Option Rune) (offset : Nat) (todo : List Thread)
    (found : Option Match) : List Thread :=
  p.reach before after (if found.isNone then todo ++ [⟨p.entry, offset⟩] else todo)

/-- The match of the threads at an offset, or else the one that was found before. -/
def matchAt (threads : List Thread) (offset : Nat) (found : Option Match) : Option Match :=
  match threads.find? p.accepts with
  | some t => some ⟨t.start, offset⟩
  | none => found

section

variable {offset : Nat} {before : Option Rune} {todo : List Thread} {found : Option Match}

theorem searchFrom_nil : p.searchFrom [] offset before todo found
    = p.matchAt (p.threadsAt before none offset todo found) offset found := rfl

theorem searchFrom_cons (piece : Text.Piece) (rest : List Text.Piece) :
    p.searchFrom (piece :: rest) offset before todo found =
      let threads := p.threadsAt before (some piece.rune) offset todo found
      let live := threads.takeWhile fun t => !p.accepts t
      if live.isEmpty && (p.matchAt threads offset found).isSome then p.matchAt threads offset found
      else p.searchFrom rest (offset + piece.bytes.length) (some piece.rune)
        (live.filterMap (p.advance? piece.rune)) (p.matchAt threads offset found) := by
  rw [searchFrom]
  rfl

/-- The threads at an offset began there or earlier. -/
theorem start_le_of_mem_threadsAt {after : Option Rune} (htodo : ∀ t ∈ todo, t.start ≤ offset) :
    ∀ t ∈ p.threadsAt before after offset todo found, t.start ≤ offset := by
  refine p.start_le_of_mem_follow ?_ (by simp)
  split
  · simpa [or_imp, forall_and] using htodo
  · exact htodo

/-- A match that is found at an offset ends there, and one found earlier has ended before. -/
theorem before_of_matchAt {threads : List Thread} (hthreads : ∀ t ∈ threads, t.start ≤ offset)
    (hfound : ∀ m, found = some m → m.Before offset) {m : Match}
    (h : p.matchAt threads offset found = some m) :
    m.Before offset := by
  unfold matchAt at h
  split at h
  · next t ht =>
      cases h
      exact ⟨hthreads t (List.mem_of_find?_eq_some ht), Nat.le_refl _⟩
  · exact hfound m h

/-- A match is found in the runes that are searched if the threads and the match to start
with are from before. -/
theorem before_of_searchFrom {rest : List Text.Piece} (htodo : ∀ t ∈ todo, t.start ≤ offset)
    (hfound : ∀ m, found = some m → m.Before offset) {m : Match}
    (h : p.searchFrom rest offset before todo found = some m) :
    m.Before (offset + (rest.flatMap Text.Piece.bytes).length) := by
  induction rest generalizing offset before todo found with
  | nil =>
      rw [searchFrom_nil] at h
      exact p.before_of_matchAt (p.start_le_of_mem_threadsAt htodo) hfound h
  | cons piece rest ih =>
      have hthreads : ∀ t ∈ p.threadsAt before (some piece.rune) offset todo found,
          t.start ≤ offset :=
        p.start_le_of_mem_threadsAt htodo
      have hmatch := fun m' => p.before_of_matchAt hthreads hfound (m := m')
      rw [List.flatMap_cons, List.length_append, ← Nat.add_assoc]
      rw [searchFrom_cons] at h
      simp only at h
      split at h
      · exact (hmatch m h).mono (by omega)
      · refine ih ?_ (fun m' hm' => (hmatch m' hm').mono (Nat.le_add_right _ _)) h
        intro t ht
        obtain ⟨t', ht', hadvance⟩ := List.mem_filterMap.mp ht
        rw [p.start_of_advance? hadvance]
        exact Nat.le_trans (hthreads t' ((List.takeWhile_sublist _).subset ht'))
          (Nat.le_add_right _ _)

end

/-- **Matches lie in the text.** -/
theorem before_length_of_find? {t : Text} {m : Match} (h : p.find? t = some m) :
    m.Before t.length := by
  have hbefore := p.before_of_searchFrom (by simp) (by simp) h
  rwa [Text.flatMap_bytes_pieces, Nat.zero_add] at hbefore

end Program

end Pattern

end PointerMigration
