/-
# Verdicts

The verdict on a field depends on the field, on the nodes around it and on its place among the
children of the innermost one. There is a pass over a unit if there is a verdict on every field and
every use that needs a raw pointer can be dealt with. The pass has the verdicts on the fields in
preorder, and its edits are those made for the fields that are accepted.
-/
import PointerMigration.Proofs.PassEdits
import Mathlib.Data.List.Forall2

namespace PointerMigration

/-! ## Steps -/

section

variable {α β ε : Type} {step : α → Except ε β} {log : β → List LogEntry}

/-- Steps succeed if each of them does, with its own result. -/
theorem loggedSteps_eq_ok_iff {as : List α} {results : List β} :
    (loggedSteps step log as).2 = .ok results ↔
      List.Forall₂ (fun a b => step a = .ok b) as results := by
  constructor
  · intro h
    induction as generalizing results with
    | nil =>
        cases Except.ok.inj h
        exact .nil
    | cons a rest ih =>
        obtain ⟨b, later, hstep, hrest, rfl⟩ := loggedSteps_cons_eq_ok h
        exact .cons hstep (ih hrest)
  · intro h
    induction h with
    | nil => rfl
    | cons hstep _ ih =>
        rw [loggedSteps, hstep]
        simp only [ih]
        rfl

/-- All steps are taken if and only if none of them fails. -/
theorem exists_loggedSteps_iff {as : List α} :
    (∃ results, (loggedSteps step log as).2 = .ok results) ↔ ∀ a ∈ as, ∃ b, step a = .ok b := by
  constructor
  · rintro ⟨results, h⟩
    exact exists_of_loggedSteps h
  · intro h
    simp only [loggedSteps_eq_ok_iff]
    induction as with
    | nil => exact ⟨[], .nil⟩
    | cons a rest ih =>
        rw [List.forall_mem_cons] at h
        obtain ⟨b, hb⟩ := h.1
        obtain ⟨later, hlater⟩ := ih h.2
        exact ⟨b :: later, .cons hb hlater⟩

end

/-! ## Related lists -/

section

variable {α β : Type} {R : α → β → Prop} {as : List α} {bs : List β}

/-- Each element of the first list has a partner in the second. -/
theorem exists_mem_of_forall₂_left (h : List.Forall₂ R as bs) {a : α} (ha : a ∈ as) :
    ∃ b ∈ bs, R a b := by
  induction h with
  | nil => cases ha
  | cons hab _ ih =>
      rcases List.mem_cons.mp ha with rfl | ha
      · exact ⟨_, List.mem_cons_self, hab⟩
      · obtain ⟨b, hb, hR⟩ := ih ha
        exact ⟨b, List.mem_cons_of_mem _ hb, hR⟩

theorem exists_mem_of_forall₂_right (h : List.Forall₂ R as bs) {b : β} (hb : b ∈ bs) :
    ∃ a ∈ as, R a b :=
  exists_mem_of_forall₂_left (R := flip R) h.flip hb

theorem forall₂_head? (h : List.Forall₂ R as bs) : Option.Rel R as.head? bs.head? := by
  cases h with
  | nil => exact .none
  | cons hab _ => exact .some hab

theorem forall₂_getLast? (h : List.Forall₂ R as bs) : Option.Rel R as.getLast? bs.getLast? := by
  rw [← List.head?_reverse, ← List.head?_reverse]
  exact forall₂_head? (List.rel_reverse h)

theorem exists_of_rel_some {a : Option α} {b : β} (h : Option.Rel R a (some b)) :
    ∃ c, a = some c ∧ R c b := by
  cases h with
  | some hR => exact ⟨_, rfl, hR⟩

end

/-! ## Sites -/

/-- A visited field where it stands. -/
def Visit.site (v : Visit) : Site :=
  { field := v.node, ancestors := v.ancestors, index := some v.index }

/-- The fields of a unit where they stand, in preorder. -/
def CompilationUnit.fieldSites (u : CompilationUnit) : List Site :=
  (u.visits.filter fun v => v.node.role = .field).map Visit.site

/-- The verdict on a field in the end. A field that is accepted as it stands is left alone if its
name is not in the text of its declaration. -/
def Site.verdict (settings : Settings) (exclusions : Exclusions) (s : Site) : Checked Verdict :=
  match s.classify settings exclusions with
  | .error e => .error e
  | .ok (.rejected r) => .ok (.rejected r)
  | .ok .accepted =>
    (Declaration.replacement settings s.field).map fun d =>
      if d.isSome then .accepted else .rejected .inMacro

section

variable {settings : Settings} {exclusions : Exclusions} {u : CompilationUnit}

/-- The sites of fields are those of the visits of fields. -/
theorem CompilationUnit.mem_fieldSites_iff {s : Site} :
    s ∈ u.fieldSites ↔ ∃ v ∈ u.visits, v.node.role = .field ∧ v.site = s := by
  simp [fieldSites, and_assoc]

/-- Where a verdict comes from. -/
theorem Site.verdict_eq_ok_iff {s : Site} {v : Verdict} :
    s.verdict settings exclusions = .ok v ↔
      (∃ r, s.classify settings exclusions = .ok (.rejected r) ∧ v = .rejected r) ∨
        s.classify settings exclusions = .ok .accepted ∧
          (Declaration.replacement settings s.field = .ok none ∧ v = .rejected .inMacro ∨
            (∃ d, Declaration.replacement settings s.field = .ok (some d)) ∧ v = .accepted) := by
  rw [verdict]
  cases hclassify : s.classify settings exclusions with
  | error e => simp
  | ok w =>
      cases w with
      | rejected r => simp [eq_comm]
      | accepted =>
          cases hdeclaration : Declaration.replacement settings s.field with
          | error e => simp [Except.map]
          | ok d => cases d <;> simp [Except.map, eq_comm]

/-- A field is accepted if it is classified so and its declaration can be replaced. -/
theorem Site.verdict_eq_accepted_iff {s : Site} :
    s.verdict settings exclusions = .ok .accepted ↔
      s.classify settings exclusions = .ok .accepted ∧
        ∃ d, Declaration.replacement settings s.field = .ok (some d) := by
  simp [verdict_eq_ok_iff]

/-- A field is rejected for the reason of its class, or because a macro supplies its name. -/
theorem Site.verdict_eq_rejected_iff {s : Site} {r : Reason} :
    s.verdict settings exclusions = .ok (.rejected r) ↔
      s.classify settings exclusions = .ok (.rejected r) ∨
        s.classify settings exclusions = .ok .accepted ∧
          Declaration.replacement settings s.field = .ok none ∧ r = .inMacro := by
  simp [verdict_eq_ok_iff]

/-- The verdict is that of what is found at the field. -/
theorem Site.verdict_iff_ofField {s : Site} {v : Verdict} :
    s.verdict settings exclusions = .ok v ↔
      ∃ f, Finding.ofField settings exclusions s = .ok f ∧ f.verdict? = some (s.field, v) := by
  simp only [verdict_eq_ok_iff, Finding.ofField_eq_ok_iff]
  constructor
  · rintro (⟨r, hclassify, rfl⟩ | ⟨hclassify, ⟨hnone, rfl⟩ | ⟨⟨d, hd⟩, rfl⟩⟩)
    · exact ⟨_, Or.inl ⟨r, hclassify, rfl⟩, rfl⟩
    · exact ⟨_, Or.inr ⟨hclassify, Or.inl ⟨hnone, rfl⟩⟩, rfl⟩
    · exact ⟨_, Or.inr ⟨hclassify, Or.inr ⟨d, hd, rfl⟩⟩, rfl⟩
  · rintro ⟨f, ⟨r, hclassify, rfl⟩ | ⟨hclassify, ⟨hnone, rfl⟩ | ⟨d, hd, rfl⟩⟩, hverdict⟩
    · cases hverdict
      exact Or.inl ⟨r, hclassify, rfl⟩
    · cases hverdict
      exact Or.inr ⟨hclassify, Or.inl ⟨hnone, rfl⟩⟩
    · cases hverdict
      exact Or.inr ⟨hclassify, Or.inr ⟨⟨d, hd⟩, rfl⟩⟩

/-- A field has its places if it has a type, a start, a name and a start of the type. -/
theorem Site.places_eq_ok_iff {n : Node} {p : Places} :
    places n = .ok p ↔ n.role = .field ∧ n.type = some p.type ∧ n.begin = some p.begin ∧
      n.loc = some p.name ∧
      n.typeLoc = some p.typeStart := by
  obtain ⟨type, begin, name, typeStart⟩ := p
  unfold places
  by_cases hrole : n.role = .field
  · cases n.type <;> cases n.begin <;> cases n.loc <;> cases n.typeLoc <;>
      simp [hrole, Checked.breach]
  · simp [hrole, Checked.breach]

/-- A field with its places is judged by its type, and then by whether it shares the start of its
type with another one. -/
theorem Site.eligible_eq_ok_iff {s : Site} {c : Verdict} :
    s.eligible = .ok c ↔ ∃ p, places s.field = .ok p ∧
      ((∃ r, classifyType p.type = .ok (.rejected r) ∧ c = .rejected r) ∨
        classifyType p.type = .ok .accepted ∧ ∃ children unique, s.siblings = some children ∧
          isUniqueStart p.typeStart children = .ok unique ∧
          c = if unique then .accepted else .rejected .sharedType) := by
  unfold eligible
  cases places s.field with
  | error e => simp [bind, Except.bind]
  | ok p =>
      cases hclass : classifyType p.type with
      | error e => simp [bind, Except.bind, hclass]
      | ok v =>
          cases v with
          | rejected r => simp [bind, Except.bind, hclass, pure, Except.pure, eq_comm]
          | accepted =>
              cases s.siblings with
              | none => simp [bind, Except.bind, hclass]
              | some children =>
                  cases hunique : isUniqueStart p.typeStart children with
                  | error e => simp [bind, Except.bind, hclass, hunique]
                  | ok unique =>
                      cases unique <;>
                        simp [bind, Except.bind, hclass, hunique, pure, Except.pure, eq_comm]

/-- A field of a class is judged by itself, and if it is eligible by where it stands. -/
theorem Site.classify_eq_ok_iff {s : Site} {c : Verdict} :
    s.classify settings exclusions = .ok c ↔ s.ancestors.head?.any Node.isRecord = true ∧
      ((∃ r, s.eligible = .ok (.rejected r) ∧ c = .rejected r) ∨
        s.eligible = .ok .accepted ∧ s.inScope settings exclusions = .ok c) := by
  unfold classify
  by_cases hrecord : s.ancestors.head?.any Node.isRecord = true
  · cases s.eligible with
    | error e => simp [bind, Except.bind, hrecord]
    | ok v => cases v <;> simp [bind, Except.bind, hrecord, pure, Except.pure, eq_comm]
  · simp [hrecord, Checked.breach]

/-- A field with a verdict has all that the compiler must supply. -/
theorem Site.exists_places_of_verdict {s : Site} {v : Verdict}
    (h : s.verdict settings exclusions = .ok v) :
    ∃ p, places s.field = .ok p := by
  obtain ⟨c, hclassify⟩ : ∃ c, s.classify settings exclusions = .ok c := by
    rcases verdict_eq_ok_iff.mp h with ⟨r, hclassify, -⟩ | ⟨hclassify, -⟩
    · exact ⟨_, hclassify⟩
    · exact ⟨_, hclassify⟩
  obtain ⟨-, ⟨r, heligible, -⟩ | ⟨heligible, -⟩⟩ := classify_eq_ok_iff.mp hclassify
  all_goals
    obtain ⟨p, hplaces, -⟩ := eligible_eq_ok_iff.mp heligible
    exact ⟨p, hplaces⟩

/-- When there is no new declaration of a field. -/
theorem Declaration.replacement_eq_none_iff {field : Node} :
    replacement settings field = .ok none ↔
      ∀ name, field.loc = some name → name.isPlain = true →
        ∃ start, field.begin = some start ∧
          (name.file ≠ start.file ∨ name.offset < start.offset) := by
  unfold replacement
  cases field.loc with
  | none => simp
  | some name =>
      by_cases hplain : name.isPlain = true
      · cases field.begin with
        | none => simp [hplain]
        | some start =>
            by_cases hbefore : name.file ≠ start.file ∨ name.offset < start.offset
            · simp [hplain, hbefore]
            · simp only [not_or, not_not] at hbefore
              cases text settings field <;> simp [hplain, hbefore]
      · simp [hplain]

/-! ## Passes -/

/-- What a pass is made of. -/
theorem Pass.run_eq_ok_iff {p : Pass} :
    (run settings exclusions u).2 = .ok p ↔
      ∃ input found outcomes, u.input = .ok input ∧ (findings settings exclusions u).2 = .ok found ∧
        (useOutcomes settings found).2 = .ok outcomes ∧
        p = ofFindings u.name (Language.ofName input.language) found outcomes := by
  constructor
  · intro h
    unfold run at h
    split at h
    · cases h
    · next input hinput =>
        have hanalyze : (analyze settings exclusions u (Language.ofName input.language)).2
            = .ok p := by
          cases hresult : (analyze settings exclusions u (Language.ofName input.language)).2 with
          | error e => simp [hresult, Except.mapError] at h
          | ok p' => simpa [hresult, Except.mapError] using h
        obtain ⟨found, outcomes, hfound, houtcomes, hp⟩ := analyze_eq_ok hanalyze
        exact ⟨input, found, outcomes, hinput, hfound, houtcomes, hp⟩
  · rintro ⟨input, found, outcomes, hinput, hfound, houtcomes, rfl⟩
    have hfound' : findings settings exclusions u
        = ((findings settings exclusions u).1, .ok found) :=
      Prod.ext rfl hfound
    have houtcomes' : useOutcomes settings found = ((useOutcomes settings found).1, .ok outcomes) :=
      Prod.ext rfl houtcomes
    rw [run, hinput]
    simp only [analyze]
    rw [hfound']
    simp only
    rw [houtcomes']
    rfl

/-- Something is found at every field with a verdict, and at every other node with members. -/
theorem Finding.exists_ofVisit_iff {v : Visit} :
    (∃ f, ofVisit settings exclusions u v = .ok f) ↔
      (v.node.role = .field → ∃ w, v.site.verdict settings exclusions = .ok w) ∧
        (v.node.role ≠ .field → ∃ ms, Use.members u v.node = .ok ms) := by
  rw [ofVisit]
  by_cases hrole : v.node.role = .field
  · simp only [hrole, if_true, forall_const, ne_eq, not_true, false_implies, and_true,
      Site.verdict_iff_ofField]
    constructor
    · rintro ⟨f, hf⟩
      rcases ofField_eq_ok_iff.mp hf with ⟨reason, -, rfl⟩ | ⟨-, ⟨-, rfl⟩ | ⟨r, -, rfl⟩⟩
      · exact ⟨_, _, hf, rfl⟩
      · exact ⟨_, _, hf, rfl⟩
      · exact ⟨_, _, hf, rfl⟩
    · rintro ⟨w, f, hf, -⟩
      exact ⟨f, hf⟩
  · simp only [hrole, if_false, false_implies, true_and, ne_eq, not_false_eq_true, forall_const]
    cases Use.members u v.node <;> simp [Except.map]

/-- The verdict of what is found at a visit. -/
theorem Finding.verdict?_of_ofVisit {v : Visit} {f : Finding}
    (h : ofVisit settings exclusions u v = .ok f) :
    (v.node.role = .field ∧ ∃ w, f.verdict? = some (v.node, w) ∧
        v.site.verdict settings exclusions = .ok w) ∨
      (v.node.role ≠ .field ∧ f.verdict? = none) := by
  rw [ofVisit] at h
  split at h
  · next hrole =>
      refine Or.inl ⟨hrole, ?_⟩
      simp only [Site.verdict_iff_ofField]
      rcases ofField_eq_ok_iff.mp h with ⟨reason, -, rfl⟩ | ⟨-, ⟨-, rfl⟩ | ⟨r, -, rfl⟩⟩
      · exact ⟨_, rfl, _, h, rfl⟩
      · exact ⟨_, rfl, _, h, rfl⟩
      · exact ⟨_, rfl, _, h, rfl⟩
  · next hrole =>
      refine Or.inr ⟨hrole, ?_⟩
      cases hmembers : Use.members u v.node with
      | error e =>
          rw [hmembers] at h
          cases h
      | ok ms =>
          rw [hmembers] at h
          cases h
          rfl

/-- The verdicts that are found are those on the fields where they stand. -/
theorem Finding.verdicts_of_findings {found : List Finding}
    (hfound : (Pass.findings settings exclusions u).2 = .ok found) :
    List.Forall₂ (fun s e => e.1 = s.field ∧ s.verdict settings exclusions = .ok e.2)
      u.fieldSites (found.filterMap verdict?) := by
  rw [Pass.findings, loggedSteps_eq_ok_iff] at hfound
  unfold CompilationUnit.fieldSites
  generalize u.visits = visits at hfound
  induction hfound with
  | nil => exact .nil
  | cons hfinding _ ih =>
      rcases verdict?_of_ofVisit hfinding with ⟨hrole, w, hverdict, hsite⟩ | ⟨hrole, hverdict⟩
      · rw [List.filter_cons_of_pos (by simpa using hrole), List.filterMap_cons_some hverdict,
          List.map_cons]
        exact .cons ⟨rfl, hsite⟩ ih
      · rw [List.filter_cons_of_neg (by simpa using hrole), List.filterMap_cons_none hverdict]
        exact ih

/-- The findings have the verdict on each field and no others. -/
theorem Finding.mem_verdicts_iff {found : List Finding}
    (hfound : (Pass.findings settings exclusions u).2 = .ok found) {field : Node} {v : Verdict} :
    (field, v) ∈ found.filterMap verdict? ↔
      ∃ s ∈ u.fieldSites, s.field = field ∧ s.verdict settings exclusions = .ok v := by
  have hverdicts := verdicts_of_findings hfound
  constructor
  · intro hmem
    obtain ⟨s, hs, hfield, hverdict⟩ := exists_mem_of_forall₂_right hverdicts hmem
    exact ⟨s, hs, hfield.symm, hverdict⟩
  · rintro ⟨s, hs, rfl, hverdict⟩
    obtain ⟨⟨field, w⟩, hmem, rfl, hw⟩ := exists_mem_of_forall₂_left hverdicts hs
    cases hverdict.symm.trans hw
    exact hmem

/-- **Verdicts.** A pass has the verdicts on the fields of the unit where they stand, in
preorder. -/
theorem Pass.verdicts_of_run {p : Pass} (hrun : (run settings exclusions u).2 = .ok p) :
    List.Forall₂ (fun s e => e.1 = s.field ∧ s.verdict settings exclusions = .ok e.2)
      u.fieldSites p.verdicts := by
  obtain ⟨-, found, -, -, hfound, -, rfl⟩ := run_eq_ok_iff.mp hrun
  exact Finding.verdicts_of_findings hfound

/-- A pass has the verdict on each field that the field has where it stands. -/
theorem Pass.verdicts_eq_map {p : Pass} (hrun : (run settings exclusions u).2 = .ok p) :
    p.verdicts = u.fieldSites.map fun s =>
      (s.field, (s.verdict settings exclusions).toOption.getD .accepted) := by
  rw [eq_comm, ← List.forall₂_eq_eq_eq, List.forall₂_map_left_iff]
  refine (verdicts_of_run hrun).imp fun s e ⟨hfield, hverdict⟩ => ?_
  rw [hverdict, ← hfield]
  rfl

/-- Passes over units with the same input file have the same language. -/
theorem Pass.language_eq_of_input_eq {t : CompilationUnit} {p q : Pass}
    (hp : (run settings exclusions u).2 = .ok p) (hq : (run settings exclusions t).2 = .ok q)
    (hinput : t.input = u.input) : q.language = p.language := by
  obtain ⟨i, _, _, hi, -, -, rfl⟩ := run_eq_ok_iff.mp hp
  obtain ⟨j, _, _, hj, -, -, rfl⟩ := run_eq_ok_iff.mp hq
  obtain rfl : j = i := Except.ok.inj (hj.symm.trans (hinput.trans hi))
  rfl

/-- A replacement that is made for a field of a unit: its new declaration, or an accessor behind a
use of it that needs one and does not stand in a macro. -/
def MadeFor (settings : Settings) (u : CompilationUnit) (field : Node) (r : Replacement) : Prop :=
  Declaration.replacement settings field = .ok (some r) ∨
    ∃ m place, NeedsAccessor u m ∧ m.ref = field.id ∧ m.loc = some place ∧ place.isPlain = true ∧
      r = Use.accessorAt settings place field

/-- A use can be dealt with if it names a declaration and has a place, should that be needed. -/
theorem Use.exists_outcome_iff {accepted : Text → Option Node} {m : Node} :
    (∃ o, outcome settings accepted m = .ok o) ↔
      m.ref ≠ [] ∧ ∀ field, accepted m.ref = some field → m.loc ≠ none := by
  unfold outcome
  by_cases href : m.ref = []
  · simp [href, Checked.breach]
  rw [if_neg (by simpa using href)]
  cases hfield : accepted m.ref with
  | none => simp [href]
  | some field =>
      cases hloc : m.loc with
      | none => simp [Checked.breach]
      | some place =>
          refine ⟨fun _ => ⟨href, by simp⟩, fun _ => ?_⟩
          by_cases hplain : place.isPlain = true
          · exact ⟨_, by simp only [hplain]; rfl⟩
          · exact ⟨_, by simp only [hplain]; rfl⟩

/-- When the members of a node can be found. -/
theorem Use.exists_members_iff {n : Node} :
    (∃ ms, members u n = .ok ms) ↔
      (n.role = .conditional → n.inner.length = 3) ∧
        (n.role = .variable → isDeducedPointer n.type = true → n.inner.getLast? ≠ some none) := by
  have hmap : ∀ x : Checked (List (Option Node)),
      (∃ ms, x.map (fun es => es.filterMap member?) = .ok ms) ↔ ∃ es, x = .ok es := by
    intro x
    cases x <;> simp [Except.map]
  rw [members, hmap, operands]
  cases hrole : n.role with
  | conditional =>
      simp only [branches, forall_const, reduceCtorEq, false_implies, and_true]
      split
      · next hinner => simp [hinner, Except.map]
      · next hinner =>
          refine iff_of_false (by simp [Checked.breach, Except.map]) fun hlength => ?_
          obtain ⟨condition, yes, no, hthree⟩ := List.length_eq_three.mp hlength
          exact hinner condition yes no hthree
  | «variable» =>
      by_cases hdeduced : isDeducedPointer n.type = true
      · simp only [initializer, hdeduced, if_true]
        split <;> simp_all [Except.map]
      · simp [hdeduced]
  | _ => simp

section

variable (hu : u.checked = .ok u)

include hu

/-- The accepted field with an id is one of the fields that have this verdict. -/
theorem Finding.acceptedField?_iff_mem {found : List Finding}
    (hfound : (Pass.findings settings exclusions u).2 = .ok found) {id : Text} (hid : id ≠ [])
    {field : Node} :
    Pass.acceptedField? (found.filterMap verdict?) id = some field ↔
      field.id = id ∧ (field, .accepted) ∈ found.filterMap verdict? := by
  rw [acceptedField?_eq_some_iff hfound hu hid, ← accepted_verdict_mem_iff hfound]

/-- **Success.** There is a pass over a unit if and only if the unit has one input file, every field
has a verdict, the operands of all other nodes can be found, and every use that needs a raw pointer
names a declaration and has a place in case this is a field that is accepted. -/
theorem Pass.exists_run_iff :
    (∃ p, (run settings exclusions u).2 = .ok p) ↔
      (∃ input, u.input = .ok input) ∧
      (∀ s ∈ u.fieldSites, ∃ v, s.verdict settings exclusions = .ok v) ∧
      (∀ n ∈ u.nodes, n.role ≠ .field → ∃ ms, Use.members u n = .ok ms) ∧
      ∀ m, NeedsAccessor u m → m.ref ≠ [] ∧
        ∀ s ∈ u.fieldSites, s.field.id = m.ref → s.verdict settings exclusions = .ok .accepted →
          m.loc ≠ none := by
  constructor
  · rintro ⟨p, hrun⟩
    obtain ⟨input, found, outcomes, hinput, hfound, houtcomes, rfl⟩ := run_eq_ok_iff.mp hrun
    have hvisits := exists_loggedSteps_iff.mp ⟨found, hfound⟩
    simp only [Finding.exists_ofVisit_iff] at hvisits
    refine ⟨⟨input, hinput⟩, ?_, ?_, ?_⟩
    · intro s hs
      obtain ⟨v, hv, hrole, rfl⟩ := CompilationUnit.mem_fieldSites_iff.mp hs
      exact (hvisits v hv).1 hrole
    · intro n hn hrole
      obtain ⟨v, hv, rfl⟩ := List.mem_map.mp hn
      exact (hvisits v hv).2 hrole
    · intro m hm
      have houtcome := exists_loggedSteps_iff.mp ⟨outcomes, houtcomes⟩ m
        ((Finding.mem_uses_iff hfound hu).mpr hm)
      obtain ⟨href, hloc⟩ := Use.exists_outcome_iff.mp houtcome
      refine ⟨href, fun s hs hid hverdict => hloc s.field ?_⟩
      rw [Finding.acceptedField?_iff_mem hu hfound href, Finding.mem_verdicts_iff hfound]
      exact ⟨hid, s, hs, rfl, hverdict⟩
  · rintro ⟨⟨input, hinput⟩, hsites, hmembers, huses⟩
    obtain ⟨found, hfound⟩ : ∃ found, (findings settings exclusions u).2 = .ok found := by
      refine exists_loggedSteps_iff.mpr fun v hv => Finding.exists_ofVisit_iff.mpr ⟨?_, ?_⟩
      · intro hrole
        exact hsites _ (CompilationUnit.mem_fieldSites_iff.mpr ⟨v, hv, hrole, rfl⟩)
      · exact hmembers _ (List.mem_map_of_mem hv)
    obtain ⟨outcomes, houtcomes⟩ : ∃ outcomes, (useOutcomes settings found).2 = .ok outcomes := by
      refine exists_loggedSteps_iff.mpr fun m hm => Use.exists_outcome_iff.mpr ?_
      obtain ⟨href, hloc⟩ := huses m ((Finding.mem_uses_iff hfound hu).mp hm)
      refine ⟨href, fun field hfield => ?_⟩
      obtain ⟨hid, hmem⟩ := (Finding.acceptedField?_iff_mem hu hfound href).mp hfield
      obtain ⟨s, hs, rfl, hverdict⟩ := (Finding.mem_verdicts_iff hfound).mp hmem
      exact hloc s hs hid hverdict
    exact ⟨_, run_eq_ok_iff.mpr ⟨input, found, outcomes, hinput, hfound, houtcomes, rfl⟩⟩

/-- **Edits.** The edits of a pass are listed by file, and they are those made for the
fields that are accepted. -/
theorem Pass.edits_of_run {p : Pass} (hrun : (run settings exclusions u).2 = .ok p) :
    FileEdits.Tidy p.edits ∧
      ∀ r, FileEdits.Lists p.edits r ↔
        ∃ field, (field, .accepted) ∈ p.verdicts ∧ MadeFor settings u field r := by
  obtain ⟨input, found, outcomes, -, hfound, houtcomes, rfl⟩ := run_eq_ok_iff.mp hrun
  obtain ⟨htidy, hlists⟩ := FileEdits.ofReplacements_spec
    (found.filterMap Finding.declaration? ++ outcomes.filterMap Use.Outcome.replacement?)
  refine ⟨htidy, fun r => ?_⟩
  rw [ofFindings, hlists, List.mem_append, List.mem_filterMap, List.mem_filterMap]
  constructor
  · rintro (⟨f, hf, hr⟩ | ⟨o, ho, hr⟩)
    · cases f with
      | accepted field d =>
          cases hr
          obtain ⟨-, -, -, -, -, hdeclaration⟩ := (Finding.accepted_mem_iff hfound).mp hf
          exact ⟨field, List.mem_filterMap.mpr ⟨_, hf, rfl⟩, Or.inl hdeclaration⟩
      | rejected | nameElsewhere | uses => cases hr
    · cases o with
      | insertion d =>
          cases hr
          obtain ⟨m, hm, houtcome⟩ := (mem_loggedSteps_iff houtcomes _).mp ho
          obtain ⟨href, field, place, hfield, hloc, hplain, rfl⟩ :=
            Use.outcome_eq_insertion_iff.mp houtcome
          obtain ⟨hid, hmem⟩ := (Finding.acceptedField?_iff_mem hu hfound href).mp hfield
          exact ⟨field, hmem,
            Or.inr ⟨m, place, (Finding.mem_uses_iff hfound hu).mp hm, hid.symm, hloc, hplain, rfl⟩⟩
      | untouched | inMacro => cases hr
  · rintro ⟨field, hmem, hdeclaration | ⟨m, place, hm, href, hloc, hplain, rfl⟩⟩
    · -- The finding with this verdict has the new declaration of the field.
      obtain ⟨f, hf, hverdict⟩ := List.mem_filterMap.mp hmem
      cases f with
      | accepted field' d =>
          cases hverdict
          obtain ⟨-, -, -, -, -, hd⟩ := (Finding.accepted_mem_iff hfound).mp hf
          cases hdeclaration.symm.trans hd
          exact Or.inl ⟨_, hf, rfl⟩
      | rejected | nameElsewhere | uses => cases hverdict
    · have hm' := (Finding.mem_uses_iff hfound hu).mpr hm
      obtain ⟨o, ho⟩ := exists_of_loggedSteps houtcomes _ hm'
      have hne := Use.ref_ne_nil_of_outcome ho
      have hfield := (Finding.acceptedField?_iff_mem hu hfound hne).mpr ⟨href.symm, hmem⟩
      refine Or.inr ⟨.insertion _, (mem_loggedSteps_iff houtcomes _).mpr ⟨m, hm', ?_⟩, rfl⟩
      exact Use.outcome_eq_insertion_iff.mpr ⟨hne, field, place, hfield, hloc, hplain, rfl⟩

/-- A pass that accepts no field makes no edits. -/
theorem Pass.edits_eq_nil_of_run {p : Pass} (hrun : (run settings exclusions u).2 = .ok p)
    (hnone : ∀ e ∈ p.verdicts, e.2 ≠ .accepted) : p.edits = [] := by
  obtain ⟨htidy, hlists⟩ := edits_of_run hu hrun
  refine List.eq_nil_iff_forall_not_mem.mpr fun e he => ?_
  obtain ⟨r, hr⟩ := List.exists_mem_of_ne_nil _ (htidy.ne_nil e he)
  obtain ⟨field, haccepted, -⟩ := (hlists r).mp ⟨e, he, (htidy.file_eq e he r hr).symm, hr⟩
  exact hnone _ haccepted rfl

end

end

end PointerMigration
