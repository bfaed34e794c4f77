/-
# The order of declarations

The outermost declarations of a unit can be put in any order. There is a pass over the unit as
before, every field keeps its verdict, and the same edits are made in the same files: a use that
comes before the class of its field is treated like one that comes after it.
-/
import PointerMigration.Proofs.Verdicts

namespace PointerMigration

/-! ## Visits in another order -/

namespace CompilationUnit

/-- What is gathered from the visits to a unit, declaration by declaration. Only the outermost nodes
know their place among the declarations, so it must not matter to what is gathered. -/
theorem filterMap_visits {α : Type} {f : Visit → Option α}
    (hf : ∀ n i j, f ⟨n, [], i⟩ = f ⟨n, [], j⟩) (u : CompilationUnit) :
    u.visits.filterMap f
      = u.inner.flatMap fun d => d.toList.flatMap fun n =>
        (n.visits (fun _ => true) [] 0).filterMap f := by
  have hstart : ∀ (children : List (Option Node)) (start : Nat),
      (Node.visitsOf (fun _ => true) [] start children).filterMap f
        = children.flatMap fun d =>
            d.toList.flatMap fun n => (n.visits (fun _ => true) [] 0).filterMap f := by
    intro children
    induction children with
    | nil => exact fun _ => rfl
    | cons d rest ih =>
        intro start
        rw [List.flatMap_cons, ← ih (start + 1)]
        cases d with
        | none => rfl
        | some n =>
            rw [Node.visitsOf, List.filterMap_append, Node.visits_eq, List.filterMap_cons,
              hf n start 0, ← List.filterMap_cons, ← Node.visits_eq]
            simp
  exact hstart u.inner 0

variable {u v : CompilationUnit} (hinner : v.inner.Perm u.inner)

include hinner

/-- What is read off each visit comes in another order and is otherwise the same. -/
theorem filterMap_visits_perm {α : Type} {f : Visit → Option α}
    (hf : ∀ n i j, f ⟨n, [], i⟩ = f ⟨n, [], j⟩) :
    (v.visits.filterMap f).Perm (u.visits.filterMap f) := by
  rw [filterMap_visits hf, filterMap_visits hf]
  exact hinner.flatMap_right _

/-- Both units have the same nodes. -/
theorem nodes_perm : v.nodes.Perm u.nodes := by
  have hperm := filterMap_visits_perm hinner (f := fun w => some w.node) fun _ _ _ => rfl
  rwa [List.filterMap_eq_map'] at hperm

/-- The ids are still those of one node each. -/
theorem checked_of_perm (hu : u.checked = .ok u) : v.checked = .ok v := by
  rw [checked_eq_ok_iff] at hu ⊢
  refine ⟨rfl, (((nodes_perm hinner).map Node.id).pairwise_iff ?_).mpr hu.2⟩
  intro a b hab hb heq
  exact hab (heq ▸ hb) heq.symm

/-- The fields stand where they stood, if none of them is outermost. -/
theorem fieldSites_perm (hinside : ∀ s ∈ u.fieldSites, s.ancestors ≠ []) :
    v.fieldSites.Perm u.fieldSites := by
  -- The place of an outermost field would change, so such fields are left out of what is gathered.
  let inside : Visit → Option Site := fun w =>
    if w.node.role = .field ∧ w.ancestors ≠ [] then some w.site else none
  have hgather : ∀ t : CompilationUnit, (∀ s ∈ t.fieldSites, s.ancestors ≠ []) →
      t.fieldSites = t.visits.filterMap inside := by
    intro t ht
    rw [fieldSites, ← List.filterMap_eq_map', ← List.filterMap_eq_filter, List.filterMap_filterMap]
    refine List.filterMap_congr fun w hw => ?_
    by_cases hrole : w.node.role = .field
    · have hne : w.ancestors ≠ [] := ht w.site (mem_fieldSites_iff.mpr ⟨w, hw, hrole, rfl⟩)
      simp [inside, hrole, hne, Option.guard]
    · simp [inside, hrole, Option.guard]
  have hinside' : ∀ s ∈ v.fieldSites, s.ancestors ≠ [] := by
    intro s hs hnil
    obtain ⟨w, hw, hrole, rfl⟩ := mem_fieldSites_iff.mp hs
    obtain ⟨n, ancestors, i⟩ := w
    cases hnil
    obtain ⟨h⟩ := (v.mem_visits_iff _).mp hw
    obtain ⟨j, hj⟩ := List.getElem?_of_mem (hinner.mem_iff.mp (List.mem_of_getElem? h))
    exact hinside ⟨n, [], some j⟩
      (mem_fieldSites_iff.mpr ⟨⟨n, [], j⟩, u.mem_visits_of_has (.outermost hj), hrole, rfl⟩) rfl
  rw [hgather u hinside, hgather v hinside']
  exact filterMap_visits_perm hinner fun n i j => by simp [inside]

end CompilationUnit

/-! ## Uses in another order -/

namespace Use

variable {u v : CompilationUnit} (hnodes : ∀ n, n ∈ v.nodes ↔ n ∈ u.nodes)

include hnodes

/-- Whether a call is variadic depends on the nodes alone. -/
theorem isVariadic_congr (call : Node) : IsVariadic v call ↔ IsVariadic u call := by
  simp only [IsVariadic, hnodes]

/-- The members of a node depend only on which nodes there are. -/
theorem members_congr (hu : u.checked = .ok u) (hv : v.checked = .ok v) (n : Node) :
    members v n = members u n := by
  have hcalls : isVariadicCall v n = isVariadicCall u n := by
    rw [Bool.eq_iff_iff, isVariadicCall_iff hv, isVariadicCall_iff hu, isVariadic_congr hnodes]
  rw [members, members, operands, operands, hcalls]

/-- Whether an expression needs a raw pointer depends on the nodes alone. -/
theorem needsPointer_of_nodes {n e : Node} (h : NeedsPointer v n e) : NeedsPointer u n e := by
  cases h with
  | argument hkind hvariadic he =>
      exact .argument hkind ((isVariadic_congr hnodes n).mp hvariadic) he
  | castOperand hkind he => exact .castOperand hkind he
  | branch hkind hinner he => exact .branch hkind hinner he
  | initializer hkind htype hpointee hauto he => exact .initializer hkind htype hpointee hauto he
  | bracedInitializer hkind htype hpointee hauto hlist hlistKind he =>
      exact .bracedInitializer hkind htype hpointee hauto hlist hlistKind he

end Use

/-- Which uses need the accessor depends on the nodes alone. -/
theorem needsAccessor_congr {u v : CompilationUnit} (hnodes : ∀ n, n ∈ v.nodes ↔ n ∈ u.nodes)
    (m : Node) :
    NeedsAccessor v m ↔ NeedsAccessor u m := by
  constructor
  · rintro ⟨n, hn, e, hneeds, hbehind⟩
    exact ⟨n, (hnodes n).mp hn, e, Use.needsPointer_of_nodes hnodes hneeds, hbehind⟩
  · rintro ⟨n, hn, e, hneeds, hbehind⟩
    exact ⟨n, (hnodes n).mpr hn, e,
      Use.needsPointer_of_nodes (fun n => (hnodes n).symm) hneeds, hbehind⟩

/-! ## Edits in another order -/

namespace FileEdits

/-- In a tidy list the edits of a file are those that the list has for it. -/
theorem Tidy.mem_iff_lists {es : List FileEdits} (h : Tidy es) {e : FileEdits} (he : e ∈ es)
    {r : Replacement} : r ∈ e.replacements ↔ Lists es r ∧ r.file = e.name := by
  constructor
  · intro hr
    exact ⟨⟨e, he, (h.file_eq e he r hr).symm, hr⟩, h.file_eq e he r hr⟩
  · rintro ⟨⟨e', he', hname, hr⟩, hfile⟩
    -- A file is listed once, so the replacement is listed here.
    rwa [List.inj_on_of_nodup_map h.names_nodup he he' (hfile.symm.trans hname.symm)]

/-- A tidy list names the files that it has edits for. -/
theorem Tidy.mem_names_iff {es : List FileEdits} (h : Tidy es) {file : Text} :
    file ∈ es.map name ↔ ∃ r, Lists es r ∧ r.file = file := by
  rw [List.mem_map]
  constructor
  · rintro ⟨e, he, rfl⟩
    obtain ⟨r, hr⟩ := List.exists_mem_of_ne_nil _ (h.ne_nil e he)
    exact ⟨r, (h.mem_iff_lists he).mp hr⟩
  · rintro ⟨r, ⟨e, he, hname, -⟩, rfl⟩
    exact ⟨e, he, hname⟩

/-- Edits that list the same replacements have the same files, each with the same replacements. -/
theorem Tidy.perm_of_lists {es es' : List FileEdits} (h : Tidy es) (h' : Tidy es')
    (hlists : ∀ r, Lists es r ↔ Lists es' r) :
    (es.map name).Perm (es'.map name) ∧
      ∀ e ∈ es, ∀ e' ∈ es', e.name = e'.name → e.replacements.Perm e'.replacements := by
  constructor
  · rw [List.perm_ext_iff_of_nodup h.names_nodup h'.names_nodup]
    intro file
    rw [h.mem_names_iff, h'.mem_names_iff]
    simp only [hlists]
  · intro e he e' he' hname
    rw [List.perm_ext_iff_of_nodup (h.nodup e he) (h'.nodup e' he')]
    intro r
    rw [h.mem_iff_lists he, h'.mem_iff_lists he', hlists, hname]

end FileEdits

/-! ## Passes in another order -/

section

variable {settings : Settings} {exclusions : Exclusions} {u : CompilationUnit} {p : Pass}

/-- A field outside of any class has no verdict. -/
theorem Site.ancestors_ne_nil_of_verdict {s : Site} {w : Verdict}
    (h : s.verdict settings exclusions = .ok w) : s.ancestors ≠ [] := by
  intro hnil
  simp [verdict, classify, hnil, Checked.breach] at h

/-- **Order.** Let there be a pass over a unit that has passed the check of its ids. With its
declarations in any other order the unit passes the check, and there is a pass over it. The fields
stand where they stood, and each has the same verdict. The edits are in the same files, and for each
file the replacements are the same. -/
theorem run_of_inner_perm (hu : u.checked = .ok u)
    (hrun : (Pass.run settings exclusions u).2 = .ok p) {inner : List (Option Node)}
    (hinner : inner.Perm u.inner) :
    CompilationUnit.checked { u with inner } = .ok { u with inner } ∧
    ∃ q, (Pass.run settings exclusions { u with inner }).2 = .ok q ∧ q.language = p.language ∧
      (CompilationUnit.fieldSites { u with inner }).Perm u.fieldSites ∧
      (∃ verdictOn : Site → Verdict,
        p.verdicts = u.fieldSites.map (fun s => (s.field, verdictOn s)) ∧
        q.verdicts = (CompilationUnit.fieldSites { u with inner }).map fun s =>
          (s.field, verdictOn s)) ∧
      (q.edits.map FileEdits.name).Perm (p.edits.map FileEdits.name) ∧
      ∀ e ∈ p.edits, ∀ e' ∈ q.edits, e'.name = e.name → e'.replacements.Perm e.replacements := by
  have hv : CompilationUnit.checked { u with inner } = .ok { u with inner } :=
    CompilationUnit.checked_of_perm hinner hu
  have hnodes : ∀ n, n ∈ CompilationUnit.nodes { u with inner } ↔ n ∈ u.nodes :=
    fun n => (CompilationUnit.nodes_perm (v := { u with inner }) hinner).mem_iff
  obtain ⟨hinput, hsites, hmembers, huses⟩ := (Pass.exists_run_iff hu).mp ⟨p, hrun⟩
  have hperm : (CompilationUnit.fieldSites { u with inner }).Perm u.fieldSites := by
    refine CompilationUnit.fieldSites_perm hinner fun s hs => ?_
    obtain ⟨w, hw⟩ := hsites s hs
    exact Site.ancestors_ne_nil_of_verdict hw
  -- What a pass needs is said of sites and nodes, and never of their order.
  obtain ⟨q, hq⟩ : ∃ q, (Pass.run settings exclusions { u with inner }).2 = .ok q := by
    refine (Pass.exists_run_iff hv).mpr ⟨hinput, ?_, ?_, ?_⟩
    · intro s hs
      exact hsites s (hperm.mem_iff.mp hs)
    · intro n hn hrole
      rw [Use.members_congr hnodes hu hv]
      exact hmembers n ((hnodes n).mp hn) hrole
    · intro m hm
      obtain ⟨href, hloc⟩ := huses m ((needsAccessor_congr hnodes m).mp hm)
      exact ⟨href, fun s hs => hloc s (hperm.mem_iff.mp hs)⟩
  have hlists : ∀ r, FileEdits.Lists q.edits r ↔ FileEdits.Lists p.edits r := by
    intro r
    rw [(Pass.edits_of_run hv hq).2, (Pass.edits_of_run hu hrun).2, Pass.verdicts_eq_map hq,
      Pass.verdicts_eq_map hrun]
    simp only [MadeFor, needsAccessor_congr hnodes, (hperm.map _).mem_iff]
  obtain ⟨hfiles, hreplacements⟩ :=
    (Pass.edits_of_run hv hq).1.perm_of_lists (Pass.edits_of_run hu hrun).1 hlists
  have hverdicts := And.intro (Pass.verdicts_eq_map hrun) (Pass.verdicts_eq_map hq)
  refine ⟨hv, q, hq, Pass.language_eq_of_input_eq hrun hq rfl, hperm, ⟨_, hverdicts⟩, hfiles, ?_⟩
  intro e he e' he' hname
  exact hreplacements e' he' e he hname

/-- The class can come before the use of its field. -/
theorem run_of_inner_perm_swapped :
    let swapped : CompilationUnit :=
      { deducedBeforeField with inner := deducedBeforeField.inner.reverse }
    deducedBeforeField.checked = .ok deducedBeforeField ∧
      swapped.inner.reduceOption.map Node.kind = ["CXXRecordDecl", "VarDecl"] ∧
      ∃ p q, (Pass.run {} {} deducedBeforeField).2 = .ok p ∧ (Pass.run {} {} swapped).2 = .ok q ∧
        p.edits.map FileEdits.name = ["a.h", "a.cc"] ∧
        (q.edits.map FileEdits.name).Perm (p.edits.map FileEdits.name) := by
  have hchecked : deducedBeforeField.checked = .ok deducedBeforeField := rfl
  obtain ⟨p, hrun, hnames⟩ : ∃ p, (Pass.run {} {} deducedBeforeField).2 = .ok p ∧
      p.edits.map FileEdits.name = ["a.h", "a.cc"] := ⟨_, rfl, rfl⟩
  obtain ⟨-, q, hq, -, -, -, hfiles, -⟩ :=
    run_of_inner_perm hchecked hrun (List.reverse_perm deducedBeforeField.inner)
  exact ⟨hchecked, rfl, p, q, hrun, hq, hnames, hfiles⟩

end

end PointerMigration
