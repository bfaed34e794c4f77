/-
# A second pass

A pass over a unit that was rewritten by the pass before makes no edits. It rejects the fields
that were accepted, because their type is no longer a pointer, and gives all other fields the
verdict that they had.
-/
import PointerMigration.Proofs.Rewriting

namespace PointerMigration

/-! ## Locations before and after -/

/-- The locations of a node are its start, its name and the start of its type. -/
theorem Node.mem_locations_iff {n : Node} {l : Location} :
    l ∈ n.locations ↔ n.begin = some l ∨ n.loc = some l ∨ n.typeLoc = some l := by
  simp [locations, List.reduceOption_mem_iff, eq_comm]

section

variable {w : Rewriting} {u : CompilationUnit} (hw : w.Increasing u) {n m : Node} (hn : n ∈ u.nodes)
  (hm : m ∈ u.nodes) {l l' : Location} (hl : l ∈ n.locations) (hl' : l' ∈ m.locations)

include hw hn hm hl hl'

/-- Offsets of one file that were different stay different. -/
theorem Rewriting.Increasing.shift_eq_iff (hfile : l.file = l'.file) :
    w.shift l.file l.offset = w.shift l'.file l'.offset ↔ l.offset = l'.offset := by
  constructor
  · intro heq
    by_contra hne
    rcases Int64.lt_or_lt_of_ne hne with hlt | hlt
    · exact Int64.ne_of_lt (hw n hn l hl m hm l' hl' hfile hlt) heq
    · exact Int64.ne_of_lt (hw m hm l' hl' n hn l hl hfile.symm hlt) heq.symm
  · intro heq
    rw [hfile, heq]

/-- Two types start at the same place after the rewriting if they did so before. -/
theorem Rewriting.Increasing.sameStart_move :
    Site.sameStart (w.move l) (w.move l') = Site.sameStart l l' := by
  unfold Site.sameStart move
  by_cases hfile : l.file = l'.file
  · simp only [hw.shift_eq_iff hn hm hl hl' hfile]
  · simp [hfile]

end

/-- There is no new declaration after the rewriting if there was none before it. -/
theorem Declaration.replacement_of_takes {settings : Settings} {w : Rewriting} {u : CompilationUnit}
    (hw : w.Increasing u) {n n' : Node} (hn : n ∈ u.nodes) (htakes : w.Takes n n')
    (h : replacement settings n = .ok none) : replacement settings n' = .ok none := by
  obtain ⟨ancestors, path, rfl⟩ := htakes
  rw [replacement_eq_none_iff] at h ⊢
  simp only [Node.loc_rewritten, Node.begin_rewritten, Option.map_eq_some_iff]
  rintro _ ⟨name, hname, rfl⟩ hplain
  obtain ⟨start, hstart, hbefore⟩ := h name hname hplain
  refine ⟨_, ⟨start, hstart, rfl⟩, ?_⟩
  by_cases hfile : name.file = start.file
  · refine Or.inr (hw n hn name ?_ n hn start ?_ hfile (hbefore.resolve_left (not_not_intro hfile)))
    · exact Node.mem_locations_iff.mpr (.inr (.inl hname))
    · exact Node.mem_locations_iff.mpr (.inl hstart)
  · exact Or.inl hfile

/-! ## Verdicts before and after -/

namespace Site

variable {w : Rewriting}

/-- The places of a field move with the text, and its type is there. -/
theorem exists_places_of_takes {n n' : Node} (hn : w.Takes n n') {p : Places}
    (h : places n = .ok p) :
    ∃ type, n'.type = some type ∧ places n' = .ok
      { type, begin := w.move p.begin, name := w.move p.name,
        typeStart := w.move p.typeStart } := by
  obtain ⟨ancestors, path, rfl⟩ := hn
  rw [places_eq_ok_iff] at h
  have htype : ∃ type, (n.rewritten w ancestors path).type = some type := by
    rw [Node.rewritten_eq, h.2.1]
    dsimp only
    split_ifs
    · exact ⟨_, rfl⟩
    · exact ⟨_, rfl⟩
  obtain ⟨type, htype⟩ := htype
  refine ⟨type, htype, places_eq_ok_iff.mpr ?_⟩
  simp [h, htype]

/-- A place where a type starts is as unique as before. -/
theorem isUniqueStart_of_takes {start : Location}
    {children children' : List (Option Node)} {b : Bool}
    (hchildren : List.Forall₂ (Option.Rel w.Takes) children children')
    (hsame : ∀ n, some n ∈ children → ∀ l, n.typeLoc = some l →
      sameStart (w.move l) (w.move start) = sameStart l start)
    (h : isUniqueStart start children = .ok b) :
    isUniqueStart (w.move start) children' = .ok b := by
  induction hchildren with
  | nil => exact h
  | cons hchild _ ih =>
      cases hchild with
      | none => cases h
      | @some n _ htakes =>
          obtain ⟨ancestors, path, rfl⟩ := htakes
          have ih' := ih fun n hn => hsame n (List.mem_cons_of_mem _ hn)
          rw [isUniqueStart] at h ⊢
          rw [Node.role_rewritten, Node.typeLoc_rewritten]
          split_ifs at h ⊢ with hrole
          · exact ih' h
          -- Another field decides the matter if its type starts at the same place.
          cases hstart : n.typeLoc with
          | none =>
              rw [hstart] at h
              cases h
          | some l =>
              rw [hstart] at h
              simp only [Option.map_some, hsame n List.mem_cons_self l hstart] at h ⊢
              split_ifs at h ⊢ with hshared
              · exact h
              · exact ih' h

section

variable {as as' : List Node} (h : List.Forall₂ w.Takes as as') {p q : Node → Bool}
  (hp : ∀ n ancestors path, p (n.rewritten w ancestors path) = p n)

include h hp

/-- What holds of a node whatever its locations and types are is kept along the ancestors. -/
theorem any_of_takes : as'.any p = as.any p := by
  induction h with
  | nil => rfl
  | cons htakes _ ih =>
      obtain ⟨ancestors, path, rfl⟩ := htakes
      rw [List.any_cons, List.any_cons, hp, ih]

theorem head?_any_of_takes : as'.head?.any p = as.head?.any p := by
  cases h with
  | nil => rfl
  | cons htakes _ =>
      obtain ⟨ancestors, path, rfl⟩ := htakes
      exact hp _ _ _

theorem find?_any_of_takes (hq : ∀ n ancestors path, q (n.rewritten w ancestors path) = q n) :
    (as'.find? p).any q = (as.find? p).any q := by
  induction h with
  | nil => rfl
  | cons htakes _ ih =>
      obtain ⟨ancestors, path, rfl⟩ := htakes
      rw [List.find?_cons, List.find?_cons, hp]
      split
      · exact hq _ _ _
      · exact ih

end

section

variable {s s' : Site} (hancestors : List.Forall₂ w.Takes s.ancestors s'.ancestors)

include hancestors

/-- Whether a field stands in a block for C does not change. -/
theorem inExternC_of_takes : s'.inExternC = s.inExternC :=
  find?_any_of_takes hancestors (by simp) (by simp)

/-- Whether a field is made by the compiler does not change. -/
theorem isImplicit_of_takes (hfield : w.Takes s.field s'.field) : s'.isImplicit = s.isImplicit := by
  obtain ⟨ancestors, path, hfield⟩ := hfield
  rw [isImplicit, isImplicit, hfield, Node.isImplicit_rewritten,
    head?_any_of_takes hancestors (by simp), any_of_takes hancestors (by simp)]

/-- The other children around a field become those around the field after the rewriting. -/
theorem siblings_of_takes (hindex : s'.index = s.index) {children : List (Option Node)}
    (h : s.siblings = some children) :
    ∃ children', s'.siblings = some children' ∧
      List.Forall₂ (Option.Rel w.Takes) children children' := by
  obtain ⟨parent, hparent, rfl⟩ := Option.map_eq_some_iff.mp h
  have hrel := forall₂_head? hancestors
  rw [hparent] at hrel
  generalize hparent' : s'.ancestors.head? = parent' at hrel
  cases hrel with
  | @some _ parent' htakes =>
      refine ⟨_, by rw [siblings, hparent', hindex]; rfl, ?_⟩
      cases s.index with
      | none => exact htakes.inner
      | some i =>
          simp only [List.eraseIdx_eq_take_drop_succ]
          exact List.rel_append (List.forall₂_take i htakes.inner)
            (List.forall₂_drop (i + 1) htakes.inner)

/-- The place of a field is classified as before. -/
theorem inScope_of_takes {settings : Settings} {exclusions : Exclusions} {c : Verdict}
    (hfield : w.Takes s.field s'.field) (h : s.inScope settings exclusions = .ok c) :
    s'.inScope settings exclusions = .ok c := by
  unfold inScope at h ⊢
  cases hplaces : places s.field with
  | error e =>
      rw [hplaces] at h
      cases h
  | ok p =>
      obtain ⟨type, -, hplaces'⟩ := exists_places_of_takes hfield hplaces
      have hname : s'.field.knownName = s.field.knownName := by
        obtain ⟨ancestors, path, hfield⟩ := hfield
        rw [hfield, Node.knownName_rewritten]
      rw [hplaces] at h
      rw [hplaces', inExternC_of_takes hancestors, isImplicit_of_takes hancestors hfield, hname]
      exact h

end

/-- The nodes around a field are nodes of the unit. -/
theorem mem_nodes_of_mem_siblings {u : CompilationUnit} {v : Visit} (hv : v ∈ u.visits)
    {children : List (Option Node)} (h : v.site.siblings = some children) {n : Node}
    (hn : some n ∈ children) : n ∈ u.nodes := by
  have hhas := (u.mem_visits_iff v).mp hv
  obtain ⟨node, ancestors, i⟩ := v
  cases hhas with
  | outermost _ => cases h
  | child hparent _ =>
      cases h
      obtain ⟨j, hj⟩ := List.getElem?_of_mem (List.mem_of_mem_eraseIdx hn)
      exact (u.mem_nodes_iff n).mpr ⟨_, j, .child hparent hj⟩

section

variable {u : CompilationUnit} (hw : w.Increasing u) {v v' : Visit} (hmem : v ∈ u.visits)
  (hv : w.TakesVisit v v')

include hw hmem hv

/-- The type of a field is classified as before if it is the same. -/
theorem eligible_of_takes (htype : v'.node.type = v.node.type) {c : Verdict}
    (h : v.site.eligible = .ok c) :
    v'.site.eligible = .ok c := by
  obtain ⟨path, hnode⟩ := hv.node
  obtain ⟨p, hplaces, hclass⟩ := eligible_eq_ok_iff.mp h
  obtain ⟨-, hptype, -, -, hstart⟩ := places_eq_ok_iff.mp hplaces
  obtain ⟨type, htype', hplaces'⟩ := exists_places_of_takes ⟨_, _, hnode⟩ hplaces
  obtain rfl : p.type = type := Option.some.inj (hptype.symm.trans (htype.symm.trans htype'))
  refine eligible_eq_ok_iff.mpr ⟨_, hplaces', ?_⟩
  rcases hclass with hrejected | ⟨haccepted, children, unique, hsiblings, hunique, hc⟩
  · exact Or.inl hrejected
  · have hancestors : List.Forall₂ w.Takes v.site.ancestors v'.site.ancestors := hv.ancestors
    obtain ⟨children', hsiblings', hchildren⟩ :=
      siblings_of_takes hancestors (congrArg some hv.index) hsiblings
    refine Or.inr ⟨haccepted, children', unique, hsiblings', ?_, hc⟩
    refine isUniqueStart_of_takes hchildren (fun n hn l hl => ?_) hunique
    exact hw.sameStart_move (mem_nodes_of_mem_siblings hmem hsiblings hn) (List.mem_map_of_mem hmem)
      (Node.mem_locations_iff.mpr (by simp [hl])) (Node.mem_locations_iff.mpr (.inr (.inr hstart)))

/-- A field is classified as before if it has the same type. -/
theorem classify_of_takes (htype : v'.node.type = v.node.type) {settings : Settings}
    {exclusions : Exclusions} {c : Verdict} (h : v.site.classify settings exclusions = .ok c) :
    v'.site.classify settings exclusions = .ok c := by
  obtain ⟨hrecord, hclass⟩ := classify_eq_ok_iff.mp h
  have hancestors : List.Forall₂ w.Takes v.site.ancestors v'.site.ancestors := hv.ancestors
  refine classify_eq_ok_iff.mpr ⟨(head?_any_of_takes hancestors (by simp)).trans hrecord, ?_⟩
  rcases hclass with ⟨r, heligible, rfl⟩ | ⟨heligible, hscope⟩
  · exact Or.inl ⟨r, eligible_of_takes hw hmem hv htype heligible, rfl⟩
  · obtain ⟨path, hnode⟩ := hv.node
    exact Or.inr ⟨eligible_of_takes hw hmem hv htype heligible,
      inScope_of_takes hancestors ⟨_, _, hnode⟩ hscope⟩

/-- A field that was rejected is rejected for the same reason. -/
theorem verdict_of_takes_rejected {r : Reason}
    (h : v.site.verdict w.settings w.exclusions = .ok (.rejected r)) :
    v'.site.verdict w.settings w.exclusions = .ok (.rejected r) := by
  obtain ⟨path, hnode⟩ := hv.node
  have htype : v'.node.type = v.node.type := by
    rw [hnode, Node.rewritten_eq]
    refine if_neg fun haccepts => ?_
    cases h.symm.trans (Rewriting.accepts_iff.mp haccepts)
  rcases verdict_eq_rejected_iff.mp h with hrejected | ⟨haccepted, hnone, rfl⟩
  · exact verdict_eq_rejected_iff.mpr (Or.inl (classify_of_takes hw hmem hv htype hrejected))
  · -- The name was not in the text of the declaration, and it still is not.
    have hnone' :=
      Declaration.replacement_of_takes hw (List.mem_map_of_mem hmem) ⟨_, _, hnode⟩ hnone
    exact verdict_eq_rejected_iff.mpr
      (Or.inr ⟨classify_of_takes hw hmem hv htype haccepted, hnone', rfl⟩)

omit hw hmem in
/-- A field that was accepted is not a pointer any more. -/
theorem verdict_of_takes_accepted (h : v.site.verdict w.settings w.exclusions = .ok .accepted) :
    v'.site.verdict w.settings w.exclusions = .ok (.rejected .notPointer) := by
  obtain ⟨path, hnode⟩ := hv.node
  have htype : v'.node.type = some (w.newType (v.index :: path)) := by
    rw [hnode, Node.rewritten_eq]
    exact if_pos (Rewriting.accepts_iff.mpr h)
  have hrecord := (classify_eq_ok_iff.mp (verdict_eq_accepted_iff.mp h).1).1
  obtain ⟨p, hplaces⟩ := exists_places_of_verdict h
  obtain ⟨type, htype', hplaces'⟩ := exists_places_of_takes ⟨_, _, hnode⟩ hplaces
  have hnot : classifyType type = .ok (.rejected .notPointer) := by
    rw [← htype', htype]
    simp [classifyType, CType.isPointer, w.newType_form]
  have heligible' : v'.site.eligible = .ok (.rejected .notPointer) :=
    eligible_eq_ok_iff.mpr ⟨_, hplaces', Or.inl ⟨_, hnot, rfl⟩⟩
  have hclassify' : v'.site.classify w.settings w.exclusions = .ok (.rejected .notPointer) := by
    refine classify_eq_ok_iff.mpr ⟨?_, Or.inl ⟨_, heligible', rfl⟩⟩
    exact (head?_any_of_takes hv.ancestors (by simp)).trans hrecord
  rw [verdict, hclassify']

end

end Site

/-! ## The second pass -/

section

variable {w : Rewriting} {u : CompilationUnit} {p : Pass}

/-- The fields of a unit become those of the unit after the rewriting, each with its verdict. -/
theorem CompilationUnit.forall₂_fieldSites_rewritten (hw : w.Increasing u) :
    List.Forall₂ (fun s s' => w.Takes s.field s'.field ∧
        ∀ c, s.verdict w.settings w.exclusions = .ok c →
          s'.verdict w.settings w.exclusions
            = .ok (if c = .accepted then .rejected .notPointer else c))
      u.fieldSites (u.rewritten w).fieldSites := by
  have hvisits : List.Forall₂ (fun v v' => v ∈ u.visits ∧ w.TakesVisit v v')
      u.visits (u.rewritten w).visits :=
    (List.forall₂_and_left _ _).mpr ⟨fun _ hv => hv, forall₂_visits_rewritten⟩
  rw [fieldSites, fieldSites, List.forall₂_map_left_iff, List.forall₂_map_right_iff]
  refine (List.rel_filter ?_ hvisits).imp ?_
  · rintro v v' ⟨-, hv⟩
    obtain ⟨path, hnode⟩ := hv.node
    simp [hnode]
  · rintro v v' ⟨hmem, hv⟩
    obtain ⟨path, hnode⟩ := hv.node
    refine ⟨⟨_, _, hnode⟩, fun c hverdict => ?_⟩
    cases c with
    | accepted => exact Site.verdict_of_takes_accepted hv hverdict
    | rejected r => exact Site.verdict_of_takes_rejected hw hmem hv hverdict

/-- **The second pass.** Let there be a pass over a unit that has passed the check of its ids.
Give every field that is accepted a type that is not a pointer, and let the locations move
without passing each other. Then there is a pass over the new unit, and it makes no edits. The
verdict on a field that was accepted is that it is not a pointer, and the verdict on any other
field is the same as before. -/
theorem run_rewritten (hu : u.checked = .ok u)
    (hrun : (Pass.run w.settings w.exclusions u).2 = .ok p) (hw : w.Increasing u) :
    (u.rewritten w).checked = .ok (u.rewritten w) ∧
    ∃ q, (Pass.run w.settings w.exclusions (u.rewritten w)).2 = .ok q ∧ q.language = p.language ∧
      q.edits = [] ∧
      List.Forall₂ (fun e e' => w.Takes e.1 e'.1 ∧
          e'.2 = if e.2 = .accepted then .rejected .notPointer else e.2)
        p.verdicts q.verdicts := by
  have hu' := CompilationUnit.checked_rewritten (w := w) hu
  obtain ⟨hinput, hsites, hmembers, huses⟩ := (Pass.exists_run_iff hu).mp ⟨p, hrun⟩
  have hfields := CompilationUnit.forall₂_fieldSites_rewritten hw
  -- No field is accepted, so nothing is asked of the uses but that they name a declaration.
  have hsites' : ∀ s' ∈ (u.rewritten w).fieldSites,
      ∃ c, s'.verdict w.settings w.exclusions = .ok c ∧ c ≠ .accepted := by
    intro s' hs'
    obtain ⟨s, hs, -, hverdict⟩ := exists_mem_of_forall₂_right hfields hs'
    obtain ⟨c, hc⟩ := hsites s hs
    refine ⟨_, hverdict c hc, ?_⟩
    split_ifs with haccepted
    · simp
    · exact haccepted
  obtain ⟨q, hq⟩ : ∃ q, (Pass.run w.settings w.exclusions (u.rewritten w)).2 = .ok q := by
    refine (Pass.exists_run_iff hu').mpr ⟨hinput, ?_, ?_, ?_⟩
    · intro s' hs'
      obtain ⟨c, hc, -⟩ := hsites' s' hs'
      exact ⟨c, hc⟩
    · intro n' hn' hrole
      obtain ⟨n, hn, htakes⟩ := CompilationUnit.exists_of_mem_nodes_rewritten hn'
      have hrole' : n.role ≠ .field := htakes.role ▸ hrole
      exact Use.exists_members_of_takes htakes hrole' (hmembers n hn hrole')
    · intro m' hm'
      obtain ⟨m, hm, ancestors, path, rfl⟩ := hm'.of_rewritten
      refine ⟨by simpa using (huses m hm).1, fun s' hs' _ hverdict => ?_⟩
      obtain ⟨c, hc, hne⟩ := hsites' s' hs'
      exact absurd (Except.ok.inj (hc.symm.trans hverdict)) hne
  have hverdicts : List.Forall₂ (fun e e' => w.Takes e.1 e'.1 ∧
      e'.2 = if e.2 = .accepted then .rejected .notPointer else e.2) p.verdicts q.verdicts := by
    rw [Pass.verdicts_eq_map hrun, Pass.verdicts_eq_map hq, List.forall₂_map_left_iff,
      List.forall₂_map_right_iff]
    refine ((List.forall₂_and_left _ _).mpr ⟨hsites, hfields⟩).imp ?_
    rintro s s' ⟨⟨c, hc⟩, htakes, hverdict⟩
    rw [hc, hverdict c hc]
    exact ⟨htakes, rfl⟩
  refine ⟨hu', q, hq, Pass.language_eq_of_input_eq hrun hq rfl, ?_, hverdicts⟩
  refine Pass.edits_eq_nil_of_run hu' hq fun e he => ?_
  obtain ⟨s', hs', -, hverdict⟩ := exists_mem_of_forall₂_right (Pass.verdicts_of_run hq) he
  obtain ⟨c, hc, hne⟩ := hsites' s' hs'
  exact Except.ok.inj (hc.symm.trans hverdict) ▸ hne

/-- Every pointer that is migrated becomes a class, and what comes behind its declaration moves. -/
def wrapped : Rewriting where
  settings := {}
  exclusions := {}
  newType := fun _ => { kind := "record", name := "CheckedPtr<int>" }
  newType_form := fun _ => by decide
  shift := fun _ offset => if 10 < offset then offset + 11 else offset

/-- The pass over this unit makes two edits, the pass after it none. -/
theorem run_rewritten_wrapped :
    ∃ p q, (Pass.run {} {} deducedBeforeField).2 = .ok p ∧
      (Pass.run {} {} (deducedBeforeField.rewritten wrapped)).2 = .ok q ∧
      p.verdicts.map Prod.snd = [.accepted] ∧ p.edits.length = 2 ∧
      q.verdicts.map Prod.snd = [.rejected .notPointer] ∧ q.edits = [] := by
  have hincreasing : wrapped.Increasing deducedBeforeField := by decide
  obtain ⟨p, hrun, hverdicts, hedits⟩ : ∃ p, (Pass.run {} {} deducedBeforeField).2 = .ok p ∧
      p.verdicts.map Prod.snd = [.accepted] ∧ p.edits.length = 2 := ⟨_, rfl, rfl, rfl⟩
  obtain ⟨-, q, hq, -, hnone, hrejected⟩ := run_rewritten (w := wrapped) rfl hrun hincreasing
  refine ⟨p, q, hrun, hq, hverdicts, hedits, ?_, hnone⟩
  obtain ⟨e, hp, haccepted⟩ := List.map_eq_singleton_iff.mp hverdicts
  obtain ⟨e', rest, ⟨-, he'⟩, hrest, hq'⟩ := List.forall₂_cons_left_iff.mp (hp ▸ hrejected)
  obtain rfl := List.forall₂_nil_left_iff.mp hrest
  rw [hq', List.map_singleton, he', haccepted]
  rfl

end

end PointerMigration
