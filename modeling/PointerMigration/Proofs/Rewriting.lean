/-
# Rewritten units

When the edits of a pass have been made and the unit is compiled again, the fields that were
accepted have the type of the wrapper, and everything behind an edit has moved. Otherwise the tree
is the same: nodes stand where they stood, and what needs a raw pointer is what needed one before.
-/
import PointerMigration.Proofs.Verdicts
import Mathlib.Data.List.ReduceOption

namespace PointerMigration

/-! ## Rewritten units -/

/-- What happens to a unit between two passes. A field that is accepted gets a type that is not a
pointer, and the locations move. -/
structure Rewriting where
  settings : Settings
  exclusions : Exclusions
  /-- The new type of a field, by its place among the children and the places of the nodes around
  it, the innermost first. -/
  newType : List Nat → CType
  newType_form : ∀ path, (newType path).form ≠ .pointer
  /-- Where an offset in a file moves to. -/
  shift : Text → Int64 → Int64

namespace Rewriting

/-- Whether a field gets a new type. -/
def accepts (w : Rewriting) (s : Site) : Bool :=
  match s.verdict w.settings w.exclusions with
  | .ok v => v = .accepted
  | .error _ => false

/-- Where a location moves to. -/
def move (w : Rewriting) (l : Location) : Location := { l with offset := w.shift l.file l.offset }

end Rewriting

mutual

/-- A node after the rewriting, given its ancestors before it. -/
def Node.rewritten (w : Rewriting) (ancestors : List Node) (path : List Nat) : Node → Node
  | n@{ inner, .. } =>
    { n with
      type := if w.accepts ⟨n, ancestors, path.head?⟩ then some (w.newType path) else n.type
      begin := n.begin.map w.move
      loc := n.loc.map w.move
      typeLoc := n.typeLoc.map w.move
      inner := Node.rewrittenAll w (n :: ancestors) path 0 inner }

/-- Children after the rewriting, the first of which is at `index`. -/
def Node.rewrittenAll (w : Rewriting) (ancestors : List Node) (path : List Nat) (index : Nat) :
    List (Option Node) → List (Option Node)
  | [] => []
  | none :: rest => none :: Node.rewrittenAll w ancestors path (index + 1) rest
  | some n :: rest =>
    some (n.rewritten w ancestors (index :: path)) ::
      Node.rewrittenAll w ancestors path (index + 1) rest

end

/-- A unit after the rewriting. -/
def CompilationUnit.rewritten (w : Rewriting) (u : CompilationUnit) : CompilationUnit :=
  { u with inner := Node.rewrittenAll w [] [] 0 u.inner }

/-- The locations of a node. -/
def Node.locations (n : Node) : List Location := [n.begin, n.loc, n.typeLoc].reduceOption

/-- The locations move within each file without passing each other. -/
def Rewriting.Increasing (w : Rewriting) (u : CompilationUnit) : Prop :=
  ∀ n ∈ u.nodes, ∀ l ∈ n.locations, ∀ n' ∈ u.nodes, ∀ l' ∈ n'.locations,
    l.file = l'.file → l.offset < l'.offset → w.shift l.file l.offset < w.shift l'.file l'.offset

instance (w : Rewriting) (u : CompilationUnit) : Decidable (w.Increasing u) :=
  inferInstanceAs (Decidable (∀ n ∈ u.nodes, _))

/-! ## Nodes before and after -/

namespace Rewriting

variable {w : Rewriting}

/-- A field is rewritten if its verdict is to accept it. -/
theorem accepts_iff {s : Site} : w.accepts s = true ↔
    s.verdict w.settings w.exclusions = .ok .accepted := by
  unfold accepts
  cases s.verdict w.settings w.exclusions with
  | error _ => simp
  | ok v => simp

/-- A node becomes another one somewhere in a tree. -/
def Takes (w : Rewriting) (n n' : Node) : Prop :=
  ∃ ancestors path, n' = n.rewritten w ancestors path

/-- A visited node becomes another one where it stands. -/
structure TakesVisit (w : Rewriting) (v v' : Visit) : Prop where
  node : ∃ path, v'.node = v.node.rewritten w v.ancestors (v.index :: path)
  ancestors : List.Forall₂ w.Takes v.ancestors v'.ancestors
  index : v'.index = v.index

end Rewriting

namespace Node

variable {w : Rewriting} {ancestors : List Node} {path : List Nat} {n : Node}

theorem rewritten_eq :
    n.rewritten w ancestors path =
      { n with
        type := if w.accepts ⟨n, ancestors, path.head?⟩ then some (w.newType path) else n.type
        begin := n.begin.map w.move
        loc := n.loc.map w.move
        typeLoc := n.typeLoc.map w.move
        inner := rewrittenAll w (n :: ancestors) path 0 n.inner } := by
  cases n
  rfl

@[simp] theorem id_rewritten : (n.rewritten w ancestors path).id = n.id := by rw [rewritten_eq]

@[simp] theorem kind_rewritten : (n.rewritten w ancestors path).kind = n.kind := by
  rw [rewritten_eq]

@[simp] theorem ref_rewritten : (n.rewritten w ancestors path).ref = n.ref := by rw [rewritten_eq]

@[simp] theorem begin_rewritten : (n.rewritten w ancestors path).begin = n.begin.map w.move := by
  rw [rewritten_eq]

@[simp] theorem loc_rewritten : (n.rewritten w ancestors path).loc = n.loc.map w.move := by
  rw [rewritten_eq]

@[simp] theorem typeLoc_rewritten :
    (n.rewritten w ancestors path).typeLoc = n.typeLoc.map w.move := by
  rw [rewritten_eq]

@[simp] theorem isImplicit_rewritten :
    (n.rewritten w ancestors path).isImplicit = n.isImplicit := by
  rw [rewritten_eq]

@[simp] theorem isVariadic_rewritten :
    (n.rewritten w ancestors path).isVariadic = n.isVariadic := by
  rw [rewritten_eq]

@[simp] theorem isLambda_rewritten : (n.rewritten w ancestors path).isLambda = n.isLambda := by
  rw [rewritten_eq]

/-- A rewritten node has the role that it had. -/
@[simp] theorem role_rewritten : (n.rewritten w ancestors path).role = n.role := by
  rw [role, kind_rewritten, role]

@[simp] theorem isRecord_rewritten : (n.rewritten w ancestors path).isRecord = n.isRecord := by
  rw [isRecord, role_rewritten, isRecord]

@[simp] theorem isImplicitSpecialization_rewritten :
    (n.rewritten w ancestors path).isImplicitSpecialization = n.isImplicitSpecialization := by
  rw [rewritten_eq]
  rfl

@[simp] theorem isExternC_rewritten : (n.rewritten w ancestors path).isExternC = n.isExternC := by
  rw [rewritten_eq]
  rfl

@[simp] theorem knownName_rewritten : (n.rewritten w ancestors path).knownName = n.knownName := by
  rw [rewritten_eq]
  rfl

/-- Rewriting children takes each of them and keeps the gaps. -/
theorem forall₂_rewrittenAll (ancestors : List Node) (path : List Nat) (index : Nat)
    (children : List (Option Node)) :
    List.Forall₂ (Option.Rel w.Takes) children (rewrittenAll w ancestors path index children) := by
  induction children generalizing index with
  | nil => exact .nil
  | cons child rest ih =>
      cases child with
      | none => exact .cons .none (ih _)
      | some n => exact .cons (.some ⟨_, _, rfl⟩) (ih _)

mutual

/-- The visits from a node on become those from the node that it becomes. -/
theorem forall₂_visits {ancestors ancestors' : List Node}
    (h : List.Forall₂ w.Takes ancestors ancestors') (path : List Nat) (i : Nat) :
    ∀ n : Node, List.Forall₂ w.TakesVisit (n.visits (fun _ => true) ancestors i)
      ((n.rewritten w ancestors (i :: path)).visits (fun _ => true) ancestors' i)
  | n@{ inner, .. } => by
      rw [visits_eq, visits_eq]
      refine .cons ⟨⟨path, rfl⟩, h, rfl⟩ ?_
      rw [rewritten_eq]
      exact forall₂_visitsOf (.cons ⟨ancestors, i :: path, rewritten_eq.symm⟩ h) (i :: path) 0 inner

/-- The visits of rewritten children are the rewritten visits. -/
theorem forall₂_visitsOf {ancestors ancestors' : List Node}
    (h : List.Forall₂ w.Takes ancestors ancestors') (path : List Nat) (start : Nat) :
    ∀ children : List (Option Node),
      List.Forall₂ w.TakesVisit (visitsOf (fun _ => true) ancestors start children)
        (visitsOf (fun _ => true) ancestors' start (rewrittenAll w ancestors path start children))
  | [] => .nil
  | none :: rest => by
      rw [rewrittenAll, visitsOf, visitsOf]
      exact forall₂_visitsOf h path (start + 1) rest
  | some n :: rest => by
      rw [rewrittenAll, visitsOf, visitsOf]
      exact List.rel_append (forall₂_visits h path start n)
        (forall₂_visitsOf h path (start + 1) rest)

end

end Node

namespace Rewriting.Takes

variable {w : Rewriting} {n n' : Node} (h : w.Takes n n')

include h

theorem kind : n'.kind = n.kind := by
  obtain ⟨ancestors, path, rfl⟩ := h
  exact Node.kind_rewritten

theorem role : n'.role = n.role := by
  obtain ⟨ancestors, path, rfl⟩ := h
  exact Node.role_rewritten

/-- The children of a node become those of the node that it becomes. -/
theorem inner : List.Forall₂ (Option.Rel w.Takes) n.inner n'.inner := by
  obtain ⟨ancestors, path, rfl⟩ := h
  rw [Node.rewritten_eq]
  exact Node.forall₂_rewrittenAll _ _ _ _

end Rewriting.Takes

namespace CompilationUnit

variable {w : Rewriting} {u : CompilationUnit}

/-- **Visits.** The visits to a unit become those to the unit after the rewriting. -/
theorem forall₂_visits_rewritten : List.Forall₂ w.TakesVisit u.visits (u.rewritten w).visits :=
  Node.forall₂_visitsOf .nil [] 0 u.inner

/-- No id is that of two nodes after rewriting if none was before. -/
theorem checked_rewritten (hu : u.checked = .ok u) :
    (u.rewritten w).checked = .ok (u.rewritten w) := by
  have hids : u.nodes.map Node.id = (u.rewritten w).nodes.map Node.id := by
    rw [nodes, nodes, List.map_map, List.map_map, ← List.forall₂_eq_eq_eq,
      List.forall₂_map_left_iff, List.forall₂_map_right_iff]
    refine (forall₂_visits_rewritten (w := w)).imp fun v v' hv => ?_
    obtain ⟨path, hnode⟩ := hv.node
    simp [hnode]
  rw [checked_eq_ok_iff] at hu ⊢
  rw [← hids]
  exact ⟨rfl, hu.2⟩

/-- Every node comes from one before the rewriting. -/
theorem exists_of_mem_nodes_rewritten {n' : Node} (h : n' ∈ (u.rewritten w).nodes) :
    ∃ n ∈ u.nodes, w.Takes n n' := by
  obtain ⟨v', hv', rfl⟩ := List.mem_map.mp h
  obtain ⟨v, hv, htakes⟩ := exists_mem_of_forall₂_right forall₂_visits_rewritten hv'
  obtain ⟨path, hnode⟩ := htakes.node
  exact ⟨v.node, List.mem_map_of_mem hv, v.ancestors, _, hnode⟩

end CompilationUnit

/-! ## Uses before and after -/

/-- Only fields get another type. -/
theorem Node.type_rewritten_of_ne {w : Rewriting} {ancestors : List Node}
    {path : List Nat} {n : Node} (hrole : n.role ≠ .field) :
    (n.rewritten w ancestors path).type = n.type := by
  rw [rewritten_eq]
  refine if_neg fun haccepts => hrole ?_
  obtain ⟨p, hplaces⟩ := Site.exists_places_of_verdict (Rewriting.accepts_iff.mp haccepts)
  exact (Site.places_eq_ok_iff.mp hplaces).1

namespace Use

variable {w : Rewriting} {u : CompilationUnit}

/-- The members that a node uses are still found after rewriting. -/
theorem exists_members_of_takes {n n' : Node} (hn : w.Takes n n') (hrole : n.role ≠ .field)
    (h : ∃ ms, members u n = .ok ms) : ∃ ms, members (u.rewritten w) n' = .ok ms := by
  have hlength := hn.inner.length_eq
  have hrel := forall₂_getLast? hn.inner
  obtain ⟨ancestors, path, rfl⟩ := hn
  rw [exists_members_iff] at h ⊢
  rw [Node.role_rewritten, Node.type_rewritten_of_ne hrole, ← hlength]
  refine ⟨h.1, fun hvariable hdeduced hlast => h.2 hvariable hdeduced ?_⟩
  obtain ⟨last, hlast, hgap⟩ := exists_of_rel_some (hlast ▸ hrel)
  cases hgap
  exact hlast

/-- A member that stands behind conversions comes from one that does. -/
theorem BehindCasts.of_takes {casts : Nat} {e e' m' : Node} (he : w.Takes e e')
    (h : BehindCasts casts e' m') : ∃ m, BehindCasts casts e m ∧ w.Takes m m' := by
  induction h generalizing e with
  | member hkind => exact ⟨e, .member (he.kind ▸ hkind), he⟩
  | cast hkind hinner _ ih =>
      obtain ⟨operand, rest, hoperand, hrest, hchildren⟩ :=
        List.forall₂_cons_right_iff.mp (hinner ▸ he.inner)
      obtain ⟨c, rfl, hc⟩ := exists_of_rel_some hoperand
      obtain rfl := List.forall₂_nil_right_iff.mp hrest
      obtain ⟨m, hm, htakes⟩ := ih hc
      exact ⟨m, .cast (he.kind ▸ hkind) hchildren hm, htakes⟩

/-- A call that passes variadic arguments after rewriting did so before. -/
theorem IsVariadic.of_takes {n n' : Node} (hn : w.Takes n n') (h : IsVariadic (u.rewritten w) n') :
    IsVariadic u n := by
  obtain ⟨ancestors, path, rfl⟩ := hn
  rcases h with hmarked | ⟨hne, f', hf', hid, hvariadic⟩
  · exact Or.inl (by simpa using hmarked)
  · obtain ⟨f, hf, _, _, rfl⟩ := CompilationUnit.exists_of_mem_nodes_rewritten hf'
    exact Or.inr ⟨by simpa using hne, f, hf, by simpa using hid, by simpa using hvariadic⟩

/-- An expression that needs a raw pointer comes from one that does. -/
theorem NeedsPointer.of_takes {n n' e' : Node} (hn : w.Takes n n')
    (h : NeedsPointer (u.rewritten w) n' e') :
    ∃ e, NeedsPointer u n e ∧ w.Takes e e' := by
  have hinner := hn.inner
  have htype : n'.type = n.type := by
    have hkind := hn.kind ▸ h.kind_ne
    obtain ⟨ancestors, path, rfl⟩ := hn
    exact Node.type_rewritten_of_ne (mt Node.role_eq_field_iff.mp hkind)
  cases h with
  | argument hkind hvariadic he =>
      have htail := List.forall₂_drop 1 hinner
      rw [List.drop_one, List.drop_one] at htail
      obtain ⟨arg, harg, hrel⟩ := exists_mem_of_forall₂_right htail he
      obtain ⟨e, rfl, htakes⟩ := exists_of_rel_some hrel
      exact ⟨e, .argument (hn.kind ▸ hkind) (hvariadic.of_takes hn) harg, htakes⟩
  | castOperand hkind he =>
      obtain ⟨operand, hoperand, hrel⟩ := exists_of_rel_some (he ▸ forall₂_head? hinner)
      obtain ⟨e, rfl, htakes⟩ := exists_of_rel_some hrel
      exact ⟨e, .castOperand (hn.kind ▸ hkind) hoperand, htakes⟩
  | branch hkind hthree he =>
      -- There are three children before the rewriting, too.
      rw [hthree] at hinner
      generalize hchildren : n.inner = children at hinner
      rcases hinner with - | ⟨-, - | ⟨hyes, - | ⟨hno, ⟨⟩⟩⟩⟩
      rcases he with rfl | rfl
      · obtain ⟨e, rfl, htakes⟩ := exists_of_rel_some hyes
        exact ⟨e, .branch (hn.kind ▸ hkind) hchildren (Or.inl rfl), htakes⟩
      · obtain ⟨e, rfl, htakes⟩ := exists_of_rel_some hno
        exact ⟨e, .branch (hn.kind ▸ hkind) hchildren (Or.inr rfl), htakes⟩
  | initializer hkind htype' hpointee hauto he =>
      obtain ⟨last, hlast, hrel⟩ := exists_of_rel_some (he ▸ forall₂_getLast? hinner)
      obtain ⟨e, rfl, htakes⟩ := exists_of_rel_some hrel
      exact ⟨e, .initializer (hn.kind ▸ hkind) (htype ▸ htype') hpointee hauto hlast, htakes⟩
  | bracedInitializer hkind htype' hpointee hauto hlist hlistKind he =>
      obtain ⟨last, hlast, hrel⟩ := exists_of_rel_some (hlist ▸ forall₂_getLast? hinner)
      obtain ⟨list, rfl, hlistTakes⟩ := exists_of_rel_some hrel
      obtain ⟨first, hfirst, hrel⟩ := exists_of_rel_some (he ▸ forall₂_head? hlistTakes.inner)
      obtain ⟨e, rfl, htakes⟩ := exists_of_rel_some hrel
      exact ⟨e, .bracedInitializer (hn.kind ▸ hkind) (htype ▸ htype') hpointee hauto hlast
        (hlistTakes.kind ▸ hlistKind) hfirst, htakes⟩

end Use

/-- A use that needs a raw pointer comes from one that does. -/
theorem NeedsAccessor.of_rewritten {w : Rewriting} {u : CompilationUnit} {m' : Node}
    (h : NeedsAccessor (u.rewritten w) m') : ∃ m, NeedsAccessor u m ∧ w.Takes m m' := by
  obtain ⟨n', hn', e', hneeds', hbehind'⟩ := h
  obtain ⟨n, hn, hnode⟩ := CompilationUnit.exists_of_mem_nodes_rewritten hn'
  obtain ⟨e, hneeds, hexpr⟩ := hneeds'.of_takes hnode
  obtain ⟨m, hbehind, hmember⟩ := hbehind'.of_takes hexpr
  exact ⟨m, ⟨n, hn, e, hneeds, hbehind⟩, hmember⟩

end PointerMigration
