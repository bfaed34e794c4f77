/-
# Ids of nodes

A path leads from a unit to one of its nodes: each number is a place among the children of the node
before. Two nodes are different if their paths are, even if they have the same contents. The visits
to a unit are to the nodes at all its paths, in the order of the paths. So reading a unit fails
because of its ids if and only if one of them stands at two paths, and otherwise an id leads to the
one path where it stands.
-/
import PointerMigration.Proofs.Resolving
import PointerMigration.Proofs.UnitFiles

namespace PointerMigration

/-! ## Paths -/

/-- A path comes earlier than another: it leads to a node around the other one, or turns off
to an earlier child. -/
def Earlier (p q : List Nat) : Prop := List.Lex (· < ·) p q

theorem Earlier.irrefl (p : List Nat) : ¬ Earlier p p := List.lt_irrefl p

theorem Earlier.asymm {p q : List Nat} (h : Earlier p q) : ¬ Earlier q p := List.lt_asymm h

/-- Of two places one comes earlier, unless they are the same. -/
theorem Earlier.trichotomy (p q : List Nat) : Earlier p q ∨ p = q ∨ Earlier q p := lt_trichotomy p q

theorem Earlier.trans {p q r : List Nat} (h : Earlier p q) (h' : Earlier q r) : Earlier p r :=
  List.lt_trans h h'

/-- The node that a path leads to from a node. -/
def Node.at? (n : Node) : List Nat → Option Node
  | [] => some n
  | i :: path =>
    match n.inner[i]? with
    | some (some c) => c.at? path
    | _ => none

/-- The node that a path leads to from a unit. -/
def CompilationUnit.nodeAt? (u : CompilationUnit) : List Nat → Option Node
  | [] => none
  | i :: path =>
    match u.inner[i]? with
    | some (some n) => n.at? path
    | _ => none

/-- A path leads through the child that it names first. -/
theorem Node.at?_cons_eq_some_iff {n m : Node} {i : Nat} {path : List Nat} :
    n.at? (i :: path) = some m ↔ ∃ c, n.inner[i]? = some (some c) ∧ c.at? path = some m := by
  rw [at?]
  split
  · next c hc => simp [hc]
  · next hnone => exact ⟨nofun, fun ⟨c, hc, _⟩ => absurd hc (hnone c)⟩

theorem CompilationUnit.nodeAt?_cons_eq_some_iff {u : CompilationUnit} {m : Node} {i : Nat}
    {path : List Nat} :
    u.nodeAt? (i :: path) = some m ↔ ∃ n, u.inner[i]? = some (some n) ∧ n.at? path = some m :=
  -- Such a path leads where it would from a node with the same children.
  Node.at?_cons_eq_some_iff (n := { inner := u.inner })

/-! ## All paths in order -/

namespace Node

mutual

/-- The paths from a node to itself and to what is inside it, with the nodes there, in preorder. -/
def places : Node → List (List Nat × Node)
  | n@{ inner, .. } => ([], n) :: placesOf 0 inner

/-- The paths to children, the first of which is at `index`, and to what is inside them. -/
def placesOf (index : Nat) : List (Option Node) → List (List Nat × Node)
  | [] => []
  | none :: rest => placesOf (index + 1) rest
  | some n :: rest => n.places.map (fun e => (index :: e.1, e.2)) ++ placesOf (index + 1) rest

end

theorem places_eq (n : Node) : n.places = ([], n) :: placesOf 0 n.inner := by
  cases n
  rfl

/-- The paths to children and what is inside them start with the places of the children. -/
theorem mem_placesOf {index : Nat} {children : List (Option Node)} {e : List Nat × Node} :
    e ∈ placesOf index children ↔
      ∃ (i : Nat) (c : Node), children[i]? = some (some c) ∧ ∃ p, (p, e.2) ∈ c.places ∧
        e.1 = (index + i) :: p := by
  induction children generalizing index with
  | nil => simp [placesOf]
  | cons child children ih =>
      have hfirst : e ∈ placesOf index (child :: children) ↔
          (∃ c, child = some c ∧ ∃ p, (p, e.2) ∈ c.places ∧ e.1 = index :: p) ∨
            e ∈ placesOf (index + 1) children := by
        cases child with
        | none => simp [placesOf]
        | some n =>
            rw [placesOf, List.mem_append, List.mem_map]
            refine or_congr_left ⟨?_, ?_⟩
            · rintro ⟨e', he', rfl⟩
              exact ⟨n, rfl, e'.1, he', rfl⟩
            · rintro ⟨c, hc, p, hp, hpath⟩
              cases hc
              exact ⟨(p, e.2), hp, Prod.ext hpath.symm rfl⟩
      rw [hfirst, ih]
      constructor
      · rintro (⟨c, rfl, hp⟩ | ⟨i, c, hc, p, hp, hpath⟩)
        · exact ⟨0, c, rfl, hp⟩
        · exact ⟨i + 1, c, hc, p, hp, by rw [hpath, Nat.add_assoc, Nat.add_comm 1]⟩
      · rintro ⟨i, c, hc, p, hp, hpath⟩
        cases i with
        | zero => exact Or.inl ⟨c, by simpa using hc, p, hp, hpath⟩
        | succ i => exact Or.inr ⟨i, c, hc, p, hp, by rw [hpath, Nat.add_assoc, Nat.add_comm 1]⟩

theorem mem_places_iff {n m : Node} {p : List Nat} : (p, m) ∈ n.places ↔ n.at? p = some m := by
  induction p generalizing n with
  | nil =>
      rw [places_eq, List.mem_cons, mem_placesOf, at?, Option.some.injEq]
      simp [eq_comm]
  | cons i p ih =>
      rw [places_eq, List.mem_cons, mem_placesOf, at?_cons_eq_some_iff]
      simp [ih]

/-- The paths are in order. -/
theorem pairwise_placesOf (index : Nat) (children : List (Option Node)) :
    (placesOf index children).Pairwise fun a b => Earlier a.1 b.1 := by
  induction children
    using children_induction (P := fun n => n.places.Pairwise fun a b => Earlier a.1 b.1)
    generalizing index with
  | node n hinner =>
      rw [places_eq, List.pairwise_cons]
      refine ⟨fun e he => ?_, hinner 0⟩
      obtain ⟨i, c, -, p, -, hpath⟩ := mem_placesOf.mp he
      rw [hpath]
      exact .nil
  | nil => exact .nil
  | gap rest hrest => exact hrest (index + 1)
  | cons n rest hn hrest =>
      rw [placesOf, List.pairwise_append, List.pairwise_map]
      refine ⟨hn.imp fun h => .cons h, hrest (index + 1), fun a ha b hb => ?_⟩
      obtain ⟨a', -, rfl⟩ := List.mem_map.mp ha
      obtain ⟨i, c, -, p, -, hpath⟩ := mem_placesOf.mp hb
      rw [hpath]
      exact .rel (by omega)

/-- The nodes at the paths are the nodes that are visited. -/
theorem map_placesOf (index : Nat) (children : List (Option Node))
    (ancestors : List Node) (i : Nat) :
    (placesOf index children).map Prod.snd
      = (visitsOf (fun _ => true) ancestors i children).map Visit.node := by
  induction children using children_induction (P := fun n => ∀ (ancestors : List Node) (i : Nat),
    n.places.map Prod.snd = (n.visits (fun _ => true) ancestors i).map Visit.node)
    generalizing index ancestors i with
  | node n hinner ancestors i =>
      rw [places_eq, visits_eq, List.map_cons, List.map_cons, hinner 0 (n :: ancestors) 0]
  | nil => rfl
  | gap rest hrest => rw [placesOf, visitsOf, hrest (index + 1) ancestors (i + 1)]
  | cons n rest hn hrest =>
      rw [placesOf, visitsOf, List.map_append, List.map_append, List.map_map, ← hn ancestors i,
        hrest (index + 1) ancestors (i + 1)]
      rfl

end Node

namespace CompilationUnit

variable (u : CompilationUnit)

/-- The paths of a unit with the nodes there, in preorder. -/
def places : List (List Nat × Node) := Node.placesOf 0 u.inner

/-- The places of a unit are its paths, each with the node that it leads to. -/
theorem mem_places_iff {p : List Nat} {n : Node} : (p, n) ∈ u.places ↔ u.nodeAt? p = some n := by
  rw [places, Node.mem_placesOf]
  cases p with
  | nil => simp [nodeAt?]
  | cons i p =>
      rw [nodeAt?_cons_eq_some_iff]
      simp [Node.mem_places_iff]

/-- The places of a unit are listed in preorder. -/
theorem pairwise_places : u.places.Pairwise fun a b => Earlier a.1 b.1 :=
  Node.pairwise_placesOf 0 u.inner

/-- **Visits in order.** The nodes that are visited stand at the paths of the unit, in the
order of the paths. -/
theorem nodes_eq_map_places : u.nodes = u.places.map Prod.snd :=
  (Node.map_placesOf 0 u.inner [] 0).symm

/-- The nodes of a unit are those that a path leads to. -/
theorem mem_nodes_iff_nodeAt? {n : Node} : n ∈ u.nodes ↔ ∃ p, u.nodeAt? p = some n := by
  rw [nodes_eq_map_places, List.mem_map]
  constructor
  · rintro ⟨⟨p, m⟩, hmem, rfl⟩
    exact ⟨p, u.mem_places_iff.mp hmem⟩
  · rintro ⟨p, hp⟩
    exact ⟨(p, n), u.mem_places_iff.mpr hp, rfl⟩

/-- Of two paths of a unit, the later one stands behind the earlier one in the list of all paths. -/
theorem mem_before_iff {before after : List (List Nat × Node)} {q : List Nat} {m : Node}
    (h : u.places = before ++ (q, m) :: after) {p : List Nat} {n : Node} :
    (p, n) ∈ before ↔ u.nodeAt? p = some n ∧ Earlier p q := by
  have hpairwise := u.pairwise_places
  rw [h, List.pairwise_append, List.pairwise_cons] at hpairwise
  obtain ⟨-, ⟨hafter, -⟩, hbefore⟩ := hpairwise
  rw [← u.mem_places_iff, h]
  constructor
  · intro hmem
    exact ⟨List.mem_append_left _ hmem, hbefore _ hmem _ List.mem_cons_self⟩
  · rintro ⟨hmem, hearlier⟩
    rcases List.mem_append.mp hmem with hmem | hmem
    · exact hmem
    · rcases List.mem_cons.mp hmem with heq | hmem
      · cases heq
        exact absurd hearlier (Earlier.irrefl q)
      · exact absurd hearlier (hafter _ hmem).asymm

/-! ## Ids that are repeated -/

/-- Two different paths lead to nodes with the same id, which is not empty. -/
def SharesId : Prop :=
  ∃ p q n m, p ≠ q ∧ u.nodeAt? p = some n ∧ u.nodeAt? q = some m ∧ n.id = m.id ∧ m.id ≠ []

/-- A path leads to a node with an id that is not empty and that a node at an earlier path has. -/
def Repeats (q : List Nat) : Prop :=
  ∃ m, u.nodeAt? q = some m ∧ m.id ≠ [] ∧ ∃ p n, u.nodeAt? p = some n ∧ Earlier p q ∧ n.id = m.id

/-- The id at the first path whose id is that of an earlier one. -/
def IsFirstRepeated (id : Text) : Prop :=
  ∃ q m, u.nodeAt? q = some m ∧ m.id = id ∧ u.Repeats q ∧ ∀ q', Earlier q' q → ¬ u.Repeats q'

/-- Two nodes share an id if and only if the id of one is repeated at a later place. -/
theorem sharesId_iff : u.SharesId ↔ ∃ q, u.Repeats q := by
  constructor
  · rintro ⟨p, q, n, m, hpq, hp, hq, hid, hne⟩
    rcases Earlier.trichotomy p q with hearlier | heq | hearlier
    · exact ⟨q, m, hq, hne, p, n, hp, hearlier, hid⟩
    · exact absurd heq hpq
    · exact ⟨p, n, hp, hid ▸ hne, q, m, hq, hearlier, hid.symm⟩
  · rintro ⟨q, m, hq, hne, p, n, hp, hearlier, hid⟩
    exact ⟨p, q, n, m, fun heq => Earlier.irrefl q (heq ▸ hearlier), hp, hq, hid, hne⟩

/-- An id is repeated first where it has come before and no id before it is repeated. -/
theorem repeatedId?_eq_some_iff {seen ids : List Text} {id : Text} :
    repeatedId? seen ids = some id ↔
      ∃ before after, ids = before ++ id :: after ∧ id ≠ [] ∧ (id ∈ seen ∨ id ∈ before) ∧
        repeatedId? seen before = none := by
  induction ids generalizing seen with
  | nil => simp [repeatedId?]
  | cons first ids ih =>
      -- The id is the first one, or another one with the first one before it.
      have hsplit : ∀ Q : List Text → Prop,
          (∃ before after, first :: ids = before ++ id :: after ∧ Q before) ↔
          (first = id ∧ Q []) ∨ ∃ before after, ids = before ++ id :: after ∧
            Q (first :: before) := by
        intro Q
        constructor
        · rintro ⟨before, after, h, hq⟩
          cases before with
          | nil =>
              cases h
              exact Or.inl ⟨rfl, hq⟩
          | cons b before =>
              cases h
              exact Or.inr ⟨before, after, rfl, hq⟩
        · rintro (⟨rfl, hq⟩ | ⟨before, after, rfl, hq⟩)
          · exact ⟨[], ids, rfl, hq⟩
          · exact ⟨first :: before, after, rfl, hq⟩
      rw [hsplit]
      by_cases hempty : first = []
      · have hskip : ∀ rest, repeatedId? seen (first :: rest) = repeatedId? seen rest := by
          simp [repeatedId?, hempty]
        simp only [hskip, ih, List.mem_cons]
        grind
      by_cases hseen : first ∈ seen
      · have hfound : ∀ rest, repeatedId? seen (first :: rest) = some first := by
          simp [repeatedId?, hempty, hseen]
        simp only [hfound, Option.some.injEq, reduceCtorEq, and_false, exists_false, or_false]
        exact ⟨fun hid => hid ▸ ⟨rfl, hempty, Or.inl hseen, rfl⟩, fun hid => hid.1⟩
      · have hnext : ∀ rest, repeatedId? seen (first :: rest)
            = repeatedId? (first :: seen) rest := by
          simp [repeatedId?, hempty, hseen]
        simp only [hnext, ih, List.mem_cons]
        grind

/-- No id at some paths in order is repeated if the later of two paths has another id
than the earlier one. -/
theorem repeatedId?_eq_none_iff_of_pairwise {l : List (List Nat × Node)}
    (hl : l.Pairwise fun a b => Earlier a.1 b.1) :
    repeatedId? [] (l.map fun e => e.2.id) = none ↔
      ∀ a ∈ l, ∀ b ∈ l, Earlier a.1 b.1 → b.2.id ≠ [] → a.2.id ≠ b.2.id := by
  rw [repeatedId?_eq_none_iff, List.pairwise_map]
  constructor
  · rintro ⟨hpairwise, -⟩ a ha b hb hearlier hne hid
    -- The relation is symmetric, so that it holds for any two entries of the list.
    have : Std.Symm fun a b : List Nat × Node => a.2.id ≠ [] → a.2.id ≠ b.2.id :=
      ⟨fun a b hab hb heq => hab (heq ▸ hb) heq.symm⟩
    have hab : a ≠ b := fun heq => Earlier.irrefl b.1 (heq ▸ hearlier)
    exact hpairwise.forall ha hb hab (hid ▸ hne) hid
  · intro hdiffer
    refine ⟨hl.imp_of_mem fun {a b} ha hb hearlier hne hid => ?_, by simp⟩
    exact hdiffer a ha b hb hearlier (hid ▸ hne) hid

/-- The check of the ids goes through the places of a unit. -/
theorem duplicateId?_eq : u.duplicateId? = repeatedId? [] (u.places.map fun e => e.2.id) := by
  rw [duplicateId?, nodes_eq_map_places, List.map_map]
  rfl

/-- The check of the ids finds nothing if and only if no place repeats an id. -/
theorem duplicateId?_eq_none_iff : u.duplicateId? = none ↔ ∀ q, ¬ u.Repeats q := by
  rw [duplicateId?_eq, repeatedId?_eq_none_iff_of_pairwise u.pairwise_places]
  constructor
  · rintro hdiffer q ⟨m, hq, hne, p, n, hp, hearlier, hid⟩
    exact hdiffer (p, n) (u.mem_places_iff.mpr hp) (q, m) (u.mem_places_iff.mpr hq) hearlier hne hid
  · rintro hnone ⟨p, n⟩ hp ⟨q, m⟩ hq hearlier hne hid
    exact hnone q ⟨m, u.mem_places_iff.mp hq, hne, p, n, u.mem_places_iff.mp hp, hearlier, hid⟩

/-- No id before a path is repeated if no earlier path repeats one. -/
theorem repeatedId?_before_eq_none_iff {before after : List (List Nat × Node)}
    {q : List Nat} {m : Node} (h : u.places = before ++ (q, m) :: after) :
    repeatedId? [] (before.map fun e => e.2.id) = none ↔ ∀ q', Earlier q' q → ¬ u.Repeats q' := by
  have hpairwise : before.Pairwise fun a b => Earlier a.1 b.1 :=
    (List.pairwise_append.mp (h ▸ u.pairwise_places)).1
  rw [repeatedId?_eq_none_iff_of_pairwise hpairwise]
  constructor
  · rintro hdiffer q' hq'q ⟨m', hq', hne, p, n, hp, hpq', hid⟩
    exact hdiffer (p, n) ((u.mem_before_iff h).mpr ⟨hp, hpq'.trans hq'q⟩) (q', m')
      ((u.mem_before_iff h).mpr ⟨hq', hq'q⟩) hpq' hne hid
  · rintro hnone ⟨p, n⟩ hp ⟨q', m'⟩ hq' hpq' hne hid
    obtain ⟨hq', hq'q⟩ := (u.mem_before_iff h).mp hq'
    exact hnone q' hq'q ⟨m', hq', hne, p, n, ((u.mem_before_iff h).mp hp).1, hpq', hid⟩

/-- **The repeated id.** The id that makes a unit fail is the one at the first path
that repeats an id. -/
theorem duplicateId?_eq_some_iff {id : Text} : u.duplicateId? = some id ↔ u.IsFirstRepeated id := by
  rw [duplicateId?_eq, repeatedId?_eq_some_iff]
  constructor
  · rintro ⟨ids, ids', hids, hne, hmem, hnone⟩
    obtain ⟨before, rest, hplaces, rfl, hrest⟩ := List.map_eq_append_iff.mp hids
    obtain ⟨⟨q, m⟩, after, rfl, rfl, -⟩ := List.map_eq_cons_iff.mp hrest
    have hq : u.nodeAt? q = some m := by
      rw [← u.mem_places_iff, hplaces]
      exact List.mem_append_right _ List.mem_cons_self
    obtain ⟨⟨p, n⟩, hp, hid⟩ := List.mem_map.mp (hmem.resolve_left List.not_mem_nil)
    obtain ⟨hp, hearlier⟩ := (u.mem_before_iff hplaces).mp hp
    exact ⟨q, m, hq, rfl, ⟨m, hq, hne, p, n, hp, hearlier, hid⟩,
      (u.repeatedId?_before_eq_none_iff hplaces).mp hnone⟩
  · rintro ⟨q, m, hq, rfl, ⟨m', hq', hne, p, n, hp, hearlier, hid⟩, hfirst⟩
    cases hq.symm.trans hq'
    obtain ⟨before, after, hplaces⟩ := List.append_of_mem (u.mem_places_iff.mpr hq)
    refine ⟨before.map fun e => e.2.id, after.map fun e => e.2.id, ?_, hne, Or.inr ?_, ?_⟩
    · rw [hplaces, List.map_append, List.map_cons]
    · exact List.mem_map.mpr ⟨(p, n), (u.mem_before_iff hplaces).mpr ⟨hp, hearlier⟩, hid⟩
    · exact (u.repeatedId?_before_eq_none_iff hplaces).mpr hfirst

/-! ## Reading a unit -/

/-- A unit is refused only for an id that is repeated, and the first such id is named. -/
theorem checked_eq_error_iff {e : UnitError} :
    u.checked = .error e ↔ ∃ id, e = .duplicateId id ∧ u.IsFirstRepeated id := by
  rw [checked]
  cases hid : u.duplicateId? with
  | none => simp [← duplicateId?_eq_some_iff, hid]
  | some id => simp [← duplicateId?_eq_some_iff, hid, eq_comm]

/-- There is a first repeated id if any id is shared. -/
theorem exists_isFirstRepeated_iff : (∃ id, u.IsFirstRepeated id) ↔ u.SharesId := by
  simp only [← duplicateId?_eq_some_iff]
  rw [← Option.ne_none_iff_exists', ne_eq, duplicateId?_eq_none_iff, sharesId_iff, not_forall_not]

/-- A unit passes the check of its ids if none is shared. -/
theorem checked_eq_ok_iff_not_sharesId {w : CompilationUnit} :
    u.checked = .ok w ↔ w = u ∧ ¬ u.SharesId := by
  constructor
  · intro hw
    refine ⟨(checked_eq_ok_iff.mp hw).1.symm, fun hshares => ?_⟩
    obtain ⟨id, hid⟩ := u.exists_isFirstRepeated_iff.mpr hshares
    cases hw.symm.trans (u.checked_eq_error_iff.mpr ⟨id, rfl, hid⟩)
  · rintro ⟨rfl, hshares⟩
    cases hchecked : w.checked with
    | error e =>
        obtain ⟨id, -, hid⟩ := w.checked_eq_error_iff.mp hchecked
        exact absurd (w.exists_isFirstRepeated_iff.mp ⟨id, hid⟩) hshares
    | ok w' => rw [(checked_eq_ok_iff.mp hchecked).1]

/-- What a unit that passes the check finds by an id. -/
theorem lookup_eq_some_iff_nodeAt? {u : CompilationUnit} (hu : u.checked = .ok u) {id : Text}
    {n : Node} :
    u.lookup id = some n ↔ id ≠ [] ∧ n.id = id ∧ ∃ p, u.nodeAt? p = some n := by
  rw [lookup_eq_some_iff hu, mem_nodes_iff_nodeAt?, and_comm (b := n.id = id)]

/-- **Ids.** Reading the data of a unit fails only because of an id that two of its nodes share, and
then names the id at the first path that repeats one. Otherwise it gives the unit, in which an id
that is not empty leads to the one node that has it. -/
theorem decode_indexes_ids {f : UnitFormat} {t : Text} {v : Datum} {u : CompilationUnit}
    (hdata : f.readDatum t = some v) (hunit : read f.dialect v = .ok u) :
    ((∃ id, decode f t = .error (.duplicateId id)) ↔ u.SharesId) ∧
      (∀ e, decode f t = .error e ↔ ∃ id, e = .duplicateId id ∧ u.IsFirstRepeated id) ∧
      (∀ w, decode f t = .ok w ↔ w = u ∧ ¬ u.SharesId) ∧
      (decode f t = .ok u →
        (∀ id n, u.lookup id = some n ↔ id ≠ [] ∧ n.id = id ∧ ∃ p, u.nodeAt? p = some n) ∧
        ∀ p q n m, u.nodeAt? p = some n → u.nodeAt? q = some m → n.id = m.id → m.id ≠ [] →
          p = q) := by
  have hdecode : decode f t = u.checked := by
    simp only [decode, hdata, ofDatum, hunit]
  rw [hdecode]
  refine ⟨?_, fun e => u.checked_eq_error_iff, fun w => u.checked_eq_ok_iff_not_sharesId,
    fun hu => ?_⟩
  · simp only [checked_eq_error_iff, UnitError.duplicateId.injEq, exists_eq_left',
      u.exists_isFirstRepeated_iff]
  · refine ⟨fun id n => lookup_eq_some_iff_nodeAt? hu, fun p q n m hp hq hid hne => ?_⟩
    by_contra hpq
    exact (u.checked_eq_ok_iff_not_sharesId.mp hu).2 ⟨p, q, n, m, hpq, hp, hq, hid, hne⟩

/-- A unit with gaps and with nodes that have no id. Of two ids that come twice, the one that comes
later comes again first. -/
def crossingIds : CompilationUnit :=
  { inner :=
      [none,
       some { id := "a", inner := [some { id := "b" }, some {}] },
       some { inner := [some {}, none, some { id := "b" }] },
       some { id := "a" }] }

/-- Two ids are repeated crosswise, and the one that is repeated first is named, not the
one that comes first. -/
theorem decode_indexes_ids_crossing :
    UnitFormat.json.readDatum (encode .json crossingIds) = some crossingIds.datum ∧
      read UnitFormat.json.dialect crossingIds.datum = .ok crossingIds ∧
      decode .json (encode .json crossingIds) = .error (.duplicateId "b") ∧
      crossingIds.SharesId ∧ crossingIds.IsFirstRepeated "b" := by
  have hwithin : crossingIds.datum.Within (fun t => Text.isValidUtf8 t = true) fun _ => True :=
    within_datum allowsRecords_json (by decide +kernel) fun _ _ => trivial
  have hdata : UnitFormat.json.readDatum (encode .json crossingIds) = some crossingIds.datum :=
    Json.read_write hwithin (by decide +kernel)
  have hunit : read UnitFormat.json.dialect crossingIds.datum = .ok crossingIds :=
    read_datum _ crossingIds
  have hfirst : crossingIds.IsFirstRepeated "b" :=
    crossingIds.duplicateId?_eq_some_iff.mp (by decide +kernel)
  obtain ⟨hshares, herror, -⟩ := decode_indexes_ids hdata hunit
  have hdecode := (herror (.duplicateId "b")).mpr ⟨"b", rfl, hfirst⟩
  exact ⟨hdata, hunit, hdecode, hshares.mp ⟨_, hdecode⟩, hfirst⟩

end CompilationUnit

end PointerMigration
