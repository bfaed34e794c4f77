/-
# Induction on data

A property of data holds of every value if it passes from the parts of lists and records to the
whole. What the formats need to know of a value is said part by part: how its texts are made, how
long its lists and records are, and how deep they lie in each other.
-/
import PointerMigration.Datum

namespace PointerMigration.Datum

/-! ## Induction -/

/-- A property that passes from parts to the whole holds of every value. -/
theorem induction {P : Datum → Prop} (hnull : P .null) (hbool : ∀ b, P (.bool b))
    (hint : ∀ n, P (.int n)) (htext : ∀ t, P (.text t)) (hforeign : P .foreign)
    (hlist : ∀ items, (∀ d ∈ items, P d) → P (.list items))
    (hrecord : ∀ entries, (∀ e ∈ entries, P e.2) → P (.record entries)) (d : Datum) : P d :=
  @Datum.rec P (fun items => ∀ d ∈ items, P d) (fun entries => ∀ e ∈ entries, P e.2)
    (fun e => P e.2)
    hnull hbool hint htext hforeign hlist hrecord
    (fun _ h => absurd h List.not_mem_nil)
    (fun _ _ hd hrest => List.forall_mem_cons.mpr ⟨hd, hrest⟩)
    (fun _ h => absurd h List.not_mem_nil)
    (fun _ _ he hrest => List.forall_mem_cons.mpr ⟨he, hrest⟩)
    (fun _ _ h => h) d

/-! ## Levels -/

mutual

/-- The number of lists and records that lie in each other. -/
def nesting : Datum → Nat
  | list items => nestingOfItems items + 1
  | record entries => nestingOfEntries entries + 1
  | _ => 0

/-- The greatest nesting of some values. -/
def nestingOfItems : List Datum → Nat
  | [] => 0
  | d :: rest => max d.nesting (nestingOfItems rest)

/-- The greatest nesting of the values of some entries. -/
def nestingOfEntries : List (Option Text × Datum) → Nat
  | [] => 0
  | (_, d) :: rest => max d.nesting (nestingOfEntries rest)

end

/-- The greatest of some numbers is no less than any of them. -/
theorem le_greatest {α : Type} {f : α → Nat} {greatest : List α → Nat}
    (hcons : ∀ a l, greatest (a :: l) = max (f a) (greatest l)) {a : α} {l : List α} (h : a ∈ l) :
    f a ≤ greatest l := by
  induction l with
  | nil => cases h
  | cons b l ih =>
      rw [hcons]
      rcases List.mem_cons.mp h with rfl | h
      · omega
      · have := ih h
        omega

/-- A list nests one level deeper than its items. -/
theorem nesting_lt_of_mem_items {items : List Datum} {d : Datum} (h : d ∈ items) :
    d.nesting < (list items).nesting := by
  have hle : d.nesting ≤ nestingOfItems items := le_greatest (fun _ _ => rfl) h
  rw [nesting]
  omega

/-- A record nests one level deeper than its values. -/
theorem nesting_lt_of_mem_entries {entries : List (Option Text × Datum)} {e : Option Text × Datum}
    (h : e ∈ entries) : e.2.nesting < (record entries).nesting := by
  have hle : e.2.nesting ≤ nestingOfEntries entries :=
    le_greatest (f := fun e => e.2.nesting) (fun _ _ => rfl) h
  rw [nesting]
  omega

theorem depth_lt_of_mem_items {items : List Datum} {d : Datum} (h : d ∈ items) :
    d.depth < (list items).depth := by
  have hle : d.depth ≤ depthOfItems items := le_greatest (fun _ _ => rfl) h
  rw [depth]
  omega

theorem depth_lt_of_mem_entries {entries : List (Option Text × Datum)} {e : Option Text × Datum}
    (h : e ∈ entries) : e.2.depth < (record entries).depth := by
  have hle : e.2.depth ≤ depthOfEntries entries :=
    le_greatest (f := fun e => e.2.depth) (fun _ _ => rfl) h
  rw [depth]
  omega

theorem depth_pos (d : Datum) : 0 < d.depth := by
  cases d with
  | list items => exact Nat.succ_pos _
  | record entries => exact Nat.succ_pos _
  | _ => exact Nat.one_pos

theorem ofPresent_eq (fields : List (Text × Option Datum)) :
    ofPresent fields = record (fields.filterMap fun f => f.2.map fun d => (some f.1, d)) := rfl

/-- The entries of a record are those of its fields that are there. -/
theorem mem_present {fields : List (Text × Option Datum)} {e : Option Text × Datum} :
    e ∈ (fields.filterMap fun f => f.2.map fun d => (some f.1, d)) ↔
      ∃ key, e.1 = some key ∧ (key, some e.2) ∈ fields := by
  obtain ⟨first, d⟩ := e
  simp only [List.mem_filterMap, Option.map_eq_some_iff, Prod.mk.injEq]
  constructor
  · rintro ⟨⟨key, value⟩, hmem, d', rfl, rfl, rfl⟩
    exact ⟨key, rfl, hmem⟩
  · rintro ⟨key, rfl, hmem⟩
    exact ⟨(key, some d), hmem, d, rfl, rfl, rfl⟩

/-- What a record holds has fewer levels than the record. -/
theorem depth_lt_ofPresent {fields : List (Text × Option Datum)} {key : Text} {d : Datum}
    (h : (key, some d) ∈ fields) : d.depth < (ofPresent fields).depth := by
  have hmem : (some key, d) ∈ fields.filterMap fun f => f.2.map fun d => (some f.1, d) :=
    mem_present.mpr ⟨key, rfl, h⟩
  rw [ofPresent_eq]
  exact depth_lt_of_mem_entries hmem

/-! ## Texts and lengths -/

/-- Every text in a value and every key has one property, the length of every list and record
another, and no part is foreign to units. -/
inductive Within (text : Text → Prop) (size : Nat → Prop) : Datum → Prop where
  | null : Within text size .null
  | bool (b : Bool) : Within text size (.bool b)
  | int (n : Int64) : Within text size (.int n)
  | text {t : Text} (h : text t) : Within text size (.text t)
  | list {items : List Datum} (hsize : size items.length) (h : ∀ d ∈ items, Within text size d) :
      Within text size (.list items)
  | record {entries : List (Option Text × Datum)} (hsize : size entries.length)
      (hkey : ∀ e ∈ entries, ∃ key, e.1 = some key ∧ text key)
      (h : ∀ e ∈ entries, Within text size e.2) :
      Within text size (.record entries)

end PointerMigration.Datum
