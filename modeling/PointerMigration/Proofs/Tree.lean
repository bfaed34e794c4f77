/-
# Nodes of a unit

A node stands in a unit as one of its outermost nodes, or as a child of a node that stands in it.
The visits to a unit find each node where it stands and nothing else. A unit passes the check of its
ids if no id but the empty one is that of two nodes, so that an id leads back to its node.
-/
import PointerMigration.Source.UnitFile
import Mathlib.Data.List.Pairwise

namespace PointerMigration

/-- The value that is found is the one with a property, if there is no more than one. -/
theorem find?_eq_some_iff_of_unique {α : Type} {l : List α} {p : α → Bool}
    (h : ∀ a ∈ l, ∀ b ∈ l, p a = true → p b = true → a = b) (a : α) :
    l.find? p = some a ↔ a ∈ l ∧ p a = true := by
  constructor
  · intro hfind
    exact ⟨List.mem_of_find?_eq_some hfind, List.find?_some hfind⟩
  · rintro ⟨ha, hpa⟩
    obtain ⟨b, hb⟩ : ∃ b, l.find? p = some b := by
      rw [← Option.isSome_iff_exists, List.find?_isSome]
      exact ⟨a, ha, hpa⟩
    rw [hb, h b (List.mem_of_find?_eq_some hb) a ha (List.find?_some hb) hpa]

/-- The value that a table with distinct keys gives to a key, unless it is the value
for all other keys. -/
theorem getD_find?_eq_iff {β : Type} {table : List (Text × β)}
    (hkeys : ∀ a ∈ table, ∀ b ∈ table, a.1 = b.1 → a = b) {key : Text} {other v : β}
    (h : v ≠ other) :
    ((table.find? fun entry => entry.1 = key).map Prod.snd).getD other = v ↔ (key, v) ∈ table := by
  have hfind : ∀ entry, table.find? (fun entry => entry.1 = key) = some entry ↔
      entry ∈ table ∧ decide (entry.1 = key) = true := by
    refine find?_eq_some_iff_of_unique fun a ha b hb hkeya hkeyb => ?_
    rw [decide_eq_true_iff] at hkeya hkeyb
    exact hkeys a ha b hb (hkeya.trans hkeyb.symm)
  have hother : ∀ found : Option β, found.getD other = v ↔ found = some v := by
    intro found
    cases found with
    | none => simp [h.symm]
    | some v' => simp
  rw [hother, Option.map_eq_some_iff]
  constructor
  · rintro ⟨⟨key', v'⟩, hentry, rfl⟩
    obtain ⟨hmem, hkey⟩ := (hfind _).mp hentry
    rw [← of_decide_eq_true hkey]
    exact hmem
  · intro hmem
    exact ⟨(key, v), (hfind _).mpr ⟨hmem, decide_eq_true rfl⟩, rfl⟩

/-! ## Where nodes stand -/

/-- A node stands in a unit below some ancestors, the innermost first, and at a place among the
children of that one. -/
inductive CompilationUnit.Has (u : CompilationUnit) : List Node → Nat → Node → Prop where
  | outermost {i : Nat} {n : Node} (h : u.inner[i]? = some (some n)) : u.Has [] i n
  | child {ancestors : List Node} {i j : Nat} {parent n : Node} (hparent : u.Has ancestors i parent)
      (h : parent.inner[j]? = some (some n)) : u.Has (parent :: ancestors) j n

namespace Node

theorem visits_eq (ancestors : List Node) (i : Nat) (n : Node) :
    n.visits (fun _ => true) ancestors i
      = ⟨n, ancestors, i⟩ :: visitsOf (fun _ => true) (n :: ancestors) 0 n.inner := by
  cases n
  rfl

/-- The visits to children are those to the single ones. -/
theorem mem_visitsOf {ancestors : List Node} {start : Nat} {children : List (Option Node)}
    {v : Visit} :
    v ∈ visitsOf (fun _ => true) ancestors start children ↔
      ∃ (i : Nat) (n : Node), children[i]? = some (some n) ∧
        v ∈ n.visits (fun _ => true) ancestors (start + i) := by
  induction children generalizing start with
  | nil => simp [visitsOf]
  | cons child children ih =>
      -- The first child is at the start, the others one place further than in the rest of the list.
      have hsplit : (∃ (i : Nat) (n : Node), (child :: children)[i]? = some (some n) ∧
            v ∈ n.visits (fun _ => true) ancestors (start + i)) ↔
          (∃ n : Node, child = some n ∧ v ∈ n.visits (fun _ => true) ancestors start) ∨
            ∃ (i : Nat) (n : Node), children[i]? = some (some n) ∧
              v ∈ n.visits (fun _ => true) ancestors (start + 1 + i) := by
        constructor
        · rintro ⟨i, n, hn, hv⟩
          cases i with
          | zero => exact Or.inl ⟨n, by simpa using hn, hv⟩
          | succ i => exact Or.inr ⟨i, n, by simpa using hn, by rwa [Nat.add_assoc, Nat.add_comm 1]⟩
        · rintro (⟨n, rfl, hv⟩ | ⟨i, n, hn, hv⟩)
          · exact ⟨0, n, rfl, hv⟩
          · exact ⟨i + 1, n, by simpa using hn, by rwa [Nat.add_comm i 1, ← Nat.add_assoc]⟩
      rw [hsplit, ← ih]
      cases child with
      | none => simp [visitsOf]
      | some n => simp [visitsOf]

mutual

/-- What is visited from a node on stands in the unit if the node does. -/
theorem has_of_mem_visits {u : CompilationUnit} {ancestors : List Node} {i : Nat} {v : Visit} :
    ∀ n : Node, u.Has ancestors i n → v ∈ n.visits (fun _ => true) ancestors i →
      u.Has v.ancestors v.index v.node
  | n@{ inner, .. }, hn, hv => by
      -- What the children need is that they stand below this node.
      rw [visits_eq, List.mem_cons] at hv
      rcases hv with rfl | hv
      · exact hn
      · exact has_of_mem_visitsOf inner (fun j c hc => .child hn (by simpa using hc)) hv

/-- What is visited from children on stands in the unit if the children do. -/
theorem has_of_mem_visitsOf {u : CompilationUnit} {ancestors : List Node} {start : Nat}
    {v : Visit} :
    ∀ children : List (Option Node),
      (∀ j c, children[j]? = some (some c) → u.Has ancestors (start + j) c) →
      v ∈ visitsOf (fun _ => true) ancestors start children → u.Has v.ancestors v.index v.node
  | [], _, hv => by simp [visitsOf] at hv
  | none :: rest, hchildren, hv => by
      rw [visitsOf] at hv
      exact has_of_mem_visitsOf rest (fun j c hc => by
        have := hchildren (j + 1) c hc
        rwa [Nat.add_comm j 1, ← Nat.add_assoc] at this) hv
  | some n :: rest, hchildren, hv => by
      rw [visitsOf, List.mem_append] at hv
      rcases hv with hv | hv
      · exact has_of_mem_visits n (hchildren 0 n rfl) hv
      · exact has_of_mem_visitsOf rest (fun j c hc => by
          have := hchildren (j + 1) c hc
          rwa [Nat.add_comm j 1, ← Nat.add_assoc] at this) hv

end

theorem mem_visits_self (ancestors : List Node) (i : Nat) (n : Node) :
    ⟨n, ancestors, i⟩ ∈ n.visits (fun _ => true) ancestors i := by
  rw [visits_eq]
  exact List.mem_cons_self

mutual

/-- With a node its children are visited. -/
theorem child_mem_visits {ancestors : List Node} {i j : Nat} {v : Visit} {c : Node}
    (hc : v.node.inner[j]? = some (some c)) :
    ∀ n : Node, v ∈ n.visits (fun _ => true) ancestors i →
      ⟨c, v.node :: v.ancestors, j⟩ ∈ n.visits (fun _ => true) ancestors i
  | n@{ inner, .. }, hv => by
      rw [visits_eq, List.mem_cons] at hv ⊢
      rcases hv with rfl | hv
      · refine Or.inr (mem_visitsOf.mpr ⟨j, c, hc, ?_⟩)
        rw [Nat.zero_add]
        exact mem_visits_self _ j c
      · exact Or.inr (child_mem_visitsOf hc inner hv)

theorem child_mem_visitsOf {ancestors : List Node} {start j : Nat} {v : Visit} {c : Node}
    (hc : v.node.inner[j]? = some (some c)) :
    ∀ children : List (Option Node), v ∈ visitsOf (fun _ => true) ancestors start children →
      ⟨c, v.node :: v.ancestors, j⟩ ∈ visitsOf (fun _ => true) ancestors start children
  | [], hv => by simp [visitsOf] at hv
  | none :: rest, hv => by
      rw [visitsOf] at hv ⊢
      exact child_mem_visitsOf hc rest hv
  | some n :: rest, hv => by
      rw [visitsOf, List.mem_append] at hv ⊢
      rcases hv with hv | hv
      · exact Or.inl (child_mem_visits hc n hv)
      · exact Or.inr (child_mem_visitsOf hc rest hv)

end

end Node

namespace CompilationUnit

variable (u : CompilationUnit)

theorem mem_visits_of_has {ancestors : List Node} {i : Nat} {n : Node} (h : u.Has ancestors i n) :
    ⟨n, ancestors, i⟩ ∈ u.visits := by
  induction h with
  | outermost h =>
      refine Node.mem_visitsOf.mpr ⟨_, _, h, ?_⟩
      rw [Nat.zero_add]
      exact Node.mem_visits_self _ _ _
  | child _ h ih => exact Node.child_mem_visitsOf h u.inner ih

/-- **Visits.** The visits to a unit are to the nodes where they stand. -/
theorem mem_visits_iff (v : Visit) : v ∈ u.visits ↔ u.Has v.ancestors v.index v.node := by
  constructor
  · intro hv
    refine Node.has_of_mem_visitsOf u.inner (fun j c hc => ?_) hv
    rw [Nat.zero_add]
    exact .outermost hc
  · exact u.mem_visits_of_has

/-- A node is one of a unit if it stands in it anywhere. -/
theorem mem_nodes_iff (n : Node) : n ∈ u.nodes ↔ ∃ ancestors i, u.Has ancestors i n := by
  rw [nodes, List.mem_map]
  constructor
  · rintro ⟨v, hv, rfl⟩
    exact ⟨v.ancestors, v.index, (u.mem_visits_iff v).mp hv⟩
  · rintro ⟨ancestors, i, h⟩
    exact ⟨⟨n, ancestors, i⟩, u.mem_visits_of_has h, rfl⟩

/-! ## Ids -/

/-- No id is repeated if those that are not empty differ from each other and from those seen
before. -/
theorem repeatedId?_eq_none_iff (seen ids : List Text) :
    repeatedId? seen ids = none ↔
      ids.Pairwise (fun a b => a ≠ [] → a ≠ b) ∧ ∀ id ∈ ids, id ≠ [] → id ∉ seen := by
  induction ids generalizing seen with
  | nil => simp [repeatedId?]
  | cons id ids ih =>
      rw [repeatedId?, List.pairwise_cons]
      by_cases hempty : id = []
      · simp [hempty, ih]
      by_cases hseen : id ∈ seen
      · simp [hempty, hseen]
      · have hnext : ¬ (seen.contains id) = true := by simpa using hseen
        rw [if_neg (by simpa using hempty), if_neg hnext, ih]
        constructor
        · rintro ⟨hpairwise, hlater⟩
          refine ⟨⟨fun b hb _ hidb => ?_, hpairwise⟩, fun b hb hne => ?_⟩
          · exact hlater b hb (hidb ▸ hempty) (by simp [hidb])
          · rcases List.mem_cons.mp hb with rfl | hb
            · exact hseen
            · exact fun hmem => hlater b hb hne (List.mem_cons_of_mem id hmem)
        · rintro ⟨⟨hfirst, hpairwise⟩, hlater⟩
          refine ⟨hpairwise, fun b hb hne hmem => ?_⟩
          rcases List.mem_cons.mp hmem with rfl | hmem
          · exact hfirst b hb hempty rfl
          · exact hlater b (List.mem_cons_of_mem id hb) hne hmem

/-- A unit passes the check of its ids if none of them is repeated. -/
theorem checked_eq_ok_iff {u w : CompilationUnit} :
    u.checked = .ok w ↔ u = w ∧ (u.nodes.map Node.id).Pairwise fun a b => a ≠ [] → a ≠ b := by
  have hnone := repeatedId?_eq_none_iff [] (u.nodes.map Node.id)
  rw [checked, duplicateId?]
  cases hrepeated : repeatedId? [] (u.nodes.map Node.id) with
  | none => simp_all
  | some id => simp_all

/-- In a unit that passes the check an id that is not empty is that of one node. -/
theorem eq_of_id_eq {u : CompilationUnit} (hu : u.checked = .ok u) {n m : Node} (hn : n ∈ u.nodes)
    (hm : m ∈ u.nodes) (hid : n.id = m.id) (hne : n.id ≠ []) : n = m := by
  have hpairwise := (checked_eq_ok_iff.mp hu).2
  rw [List.pairwise_map] at hpairwise
  -- The order of the two nodes is not known, so the relation has to be symmetric.
  have : Std.Symm fun a b : Node => a.id ≠ [] → a.id ≠ b.id :=
    ⟨fun a b hab hb heq => hab (heq ▸ hb) heq.symm⟩
  by_contra hnm
  exact hpairwise.forall hn hm hnm hne hid

/-- In such a unit the node that is found by its id is the one with this id. -/
theorem lookup_eq_some_iff {u : CompilationUnit} (hu : u.checked = .ok u) {id : Text} {n : Node} :
    u.lookup id = some n ↔ id ≠ [] ∧ n ∈ u.nodes ∧ n.id = id := by
  rw [lookup]
  by_cases hid : id = []
  · simp [hid]
  · rw [if_neg (by simpa using hid), find?_eq_some_iff_of_unique]
    · simp [hid]
    · intro a ha b hb hida hidb
      rw [decide_eq_true_iff] at hida hidb
      exact eq_of_id_eq hu ha hb (hida.trans hidb.symm) (hida ▸ hid)

end CompilationUnit

end PointerMigration
