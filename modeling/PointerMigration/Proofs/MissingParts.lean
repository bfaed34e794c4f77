/-
# Missing parts

A unit may lack types, locations, references and operands where the compiler should have
supplied them. The analysis says so: it ends with a message that names the breach. There is one
case in which it uses a part that is not there. The type behind a pointer is spelled without a
check, so the analysis breaks down at a field that is accepted and points to pointers of which
the last points to nothing.
-/
import PointerMigration.Proofs.Acceptance
import PointerMigration.Proofs.UnitFiles

namespace PointerMigration

/-! ## Failures -/

/-- Two steps break down if one of them does. -/
theorem Checked.bind_eq_absent_iff {α β : Type} {x : Checked α} {f : α → Checked β} :
    (x >>= f) = .error .absent ↔ x = .error .absent ∨ ∃ a, x = .ok a ∧ f a = .error .absent := by
  cases x <;> simp [bind, Except.bind]

theorem Checked.map_eq_absent_iff {α β : Type} {x : Checked α} {f : α → β} :
    x.map f = .error .absent ↔ x = .error .absent := by
  cases x <;> simp [Except.map]

/-- Steps fail at the first of them that fails. -/
theorem loggedSteps_eq_error_iff {α β ε : Type} {step : α → Except ε β} {log : β → List LogEntry}
    {as : List α} {e : ε} :
    (loggedSteps step log as).2 = .error e ↔
      ∃ before a after, as = before ++ a :: after ∧ (∀ x ∈ before, ∃ b, step x = .ok b) ∧
        step a = .error e := by
  constructor
  · intro h
    induction as with
    | nil => cases h
    | cons a rest ih =>
        rw [loggedSteps] at h
        cases hstep : step a with
        | error e' =>
            rw [hstep] at h
            cases h
            exact ⟨[], a, rest, rfl, by simp, hstep⟩
        | ok b =>
            have hrest : (loggedSteps step log rest).2 = .error e := by
              cases hresult : (loggedSteps step log rest).2 with
              | error e' => simpa [hstep, hresult, Except.map] using h
              | ok later => simp [hstep, hresult, Except.map] at h
            obtain ⟨before, x, after, rfl, hbefore, hx⟩ := ih hrest
            exact ⟨a :: before, x, after, rfl, List.forall_mem_cons.mpr ⟨⟨b, hstep⟩, hbefore⟩, hx⟩
  · rintro ⟨before, a, after, rfl, hbefore, ha⟩
    induction before with
    | nil => rw [List.nil_append, loggedSteps, ha]
    | cons x before ih =>
        obtain ⟨b, hb⟩ := hbefore x (by simp)
        have hlater := ih fun y hy => hbefore y (List.mem_cons_of_mem x hy)
        rw [List.cons_append, loggedSteps, hb]
        simp only [hlater]
        rfl

/-- A breach is reported by a message that says what kind of failure it is. -/
def Breach.IsReported (b : Breach) : Prop :=
  Text.ofString "internal error: " <+: b.message ∨ Text.ofString "malformed " <+: b.message

theorem Breach.isReported (b : Breach) : b.IsReported := by
  cases b with
  | pointerToNothing => exact Or.inl (List.isPrefixOf_iff_prefix.mp (by decide))
  | operandCount node count =>
      right
      simp only [message, List.append_assoc]
      exact List.prefix_append _ _
  | _ =>
      left
      simp only [message, List.append_assoc]
      exact List.prefix_append _ _

/-! ## Types without a spelling -/

/-- A pointer to nothing, or a pointer to a type that leads nowhere. -/
inductive CType.LeadsNowhere : CType → Prop where
  | nothing {t : CType} (hform : t.form = .pointer) (helem : t.elem = none) : LeadsNowhere t
  | pointer {t e : CType} (hform : t.form = .pointer) (helem : t.elem = some e)
      (h : LeadsNowhere e) :
      LeadsNowhere t

/-- A type leads nowhere if it is a pointer to nothing, or to a type that leads nowhere. -/
theorem CType.leadsNowhere_iff {t : CType} :
    t.LeadsNowhere ↔ t.form = .pointer ∧ ∀ e, t.elem = some e → e.LeadsNowhere := by
  constructor
  · rintro (⟨hform, helem⟩ | ⟨hform, helem, h⟩)
    · exact ⟨hform, by simp [helem]⟩
    · refine ⟨hform, fun e he => ?_⟩
      cases helem.symm.trans he
      exact h
  · rintro ⟨hform, h⟩
    cases helem : t.elem with
    | none => exact .nothing hform helem
    | some e => exact .pointer hform helem (h e helem)

/-- Every type has a spelling but those that lead nowhere. -/
theorem CType.spell_eq_none_iff (t : CType) : t.spell = none ↔ t.LeadsNowhere := by
  induction t using CType.induction with
  | h t ih =>
      rw [leadsNowhere_iff, spell.eq_def]
      obtain ⟨kind, name, isConst, isVolatile, elem, tag⟩ := t
      simp only
      split
      · next hform =>
          cases elem with
          | none => simp [hform]
          | some e => simp [hform, ← ih e rfl]
      · next hform => simp [hform]
      · next hform => simp [hform]
      · next hform _ _ => exact iff_of_false (by simp) fun h => hform h.1

/-! ## Fields -/

section

variable {settings : Settings} {exclusions : Exclusions}

namespace Site

/-- Whether a field has its places is told without using them. -/
theorem places_ne_absent (n : Node) : places n ≠ .error .absent := by
  unfold places
  split
  · simp [Checked.breach]
  · split <;> simp [Checked.breach]

/-- A type is judged without using what it lacks. -/
theorem classifyType_ne_absent (type : Option CType) : classifyType type ≠ .error .absent := by
  unfold classifyType
  split
  · simp
  · split
    · simp
    · split
      · simp [Checked.breach]
      · split <;> simp [Checked.breach]

/-- When the starts of children are compared, only a gap among them can be missing. -/
theorem none_mem_of_isUniqueStart {start : Location} {children : List (Option Node)}
    (h : isUniqueStart start children = .error .absent) : none ∈ children := by
  fun_induction isUniqueStart start children with
  | case1 => cases h
  | case2 => exact List.mem_cons_self
  | case3 n rest hrole ih => exact List.mem_cons_of_mem _ (ih h)
  | case4 => cases h
  | case5 => cases h
  | case6 n rest hrole l hl hsame ih => exact List.mem_cons_of_mem _ (ih h)

/-- The classification of a field breaks down only at a gap among the children of the class. -/
theorem none_mem_of_classify {s : Site} (h : s.classify settings exclusions = .error .absent) :
    ∃ parent, s.ancestors.head? = some parent ∧ none ∈ parent.inner := by
  unfold classify at h
  split at h
  · cases h
  next hrecord =>
  obtain ⟨parent, hparent⟩ : ∃ parent, s.ancestors.head? = some parent := by
    cases hhead : s.ancestors.head? with
    | none => simp [hhead] at hrecord
    | some parent => exact ⟨parent, rfl⟩
  refine ⟨parent, hparent, ?_⟩
  -- Parts of the field itself are asked for with a check; only the other children are taken as they
  -- are.
  rcases Checked.bind_eq_absent_iff.mp h with h | ⟨v, -, h⟩
  · rcases Checked.bind_eq_absent_iff.mp h with h | ⟨p, -, h⟩
    · exact absurd h (places_ne_absent _)
    rcases Checked.bind_eq_absent_iff.mp h with h | ⟨v, -, h⟩
    · exact absurd h (classifyType_ne_absent _)
    cases v with
    | rejected r => cases h
    | accepted =>
        simp only [siblings, hparent, Option.map_some] at h
        rcases Checked.bind_eq_absent_iff.mp h with h | ⟨unique, -, h⟩
        · have hmem := none_mem_of_isUniqueStart h
          cases hindex : s.index with
          | none => simpa [hindex] using hmem
          | some i =>
              rw [hindex] at hmem
              exact List.mem_of_mem_eraseIdx hmem
        · cases unique <;> cases h
  · cases v with
    | rejected r => cases h
    | accepted =>
        rcases Checked.bind_eq_absent_iff.mp h with h | ⟨p, -, h⟩
        · exact absurd h (places_ne_absent _)
        · cases h

/-- A field that is accepted points to a type. -/
theorem exists_pointer_of_accepted {s : Site} (h : s.classify settings exclusions = .ok .accepted) :
    ∃ p e, places s.field = .ok p ∧ p.type.form = .pointer ∧ p.type.elem = some e := by
  obtain ⟨-, ⟨r, -, hr⟩ | ⟨heligible, -⟩⟩ := classify_eq_ok_iff.mp h
  · cases hr
  obtain ⟨p, hplaces, ⟨r, -, hr⟩ | ⟨htype, -⟩⟩ := eligible_eq_ok_iff.mp heligible
  · cases hr
  obtain ⟨hkind, e, -, helem, -⟩ := classifyType_eq_accepted_iff.mp htype
  exact ⟨p, e, hplaces, CType.form_eq_pointer_iff.mpr hkind, helem⟩

/-- A field that is accepted and whose declaration is rewritten up to its name, though the type that
it points to leads nowhere. -/
structure Unspellable (settings : Settings) (exclusions : Exclusions) (s : Site) : Prop where
  accepted : s.classify settings exclusions = .ok .accepted
  name_follows : ∃ start name, s.field.begin = some start ∧ s.field.loc = some name ∧
    name.isPlain = true ∧ name.file = start.file ∧ start.offset ≤ name.offset
  leads_nowhere : ∃ t e, s.field.type = some t ∧ t.elem = some e ∧ e.LeadsNowhere

end Site

/-- The new declaration of a field breaks down if there is room for it and the type has no
spelling. -/
theorem Declaration.replacement_eq_absent_iff {field : Node} {start name : Location}
    (hstart : field.begin = some start) (hname : field.loc = some name) :
    replacement settings field = .error .absent ↔
      (name.isPlain = true ∧ name.file = start.file ∧ start.offset ≤ name.offset) ∧
        text settings field = none := by
  rw [replacement, hname, hstart]
  simp only
  by_cases hplain : name.isPlain = true
  · by_cases hbefore : name.file ≠ start.file ∨ name.offset < start.offset
    · rw [if_neg (by simp [hplain]), if_pos (by simpa using hbefore), ← Int64.not_lt]
      simp only [reduceCtorEq, false_iff]
      rintro ⟨⟨-, hfile, hoffset⟩, -⟩
      exact hbefore.elim (fun h => h hfile) hoffset
    · rw [if_neg (by simp [hplain]), if_neg (by simpa using hbefore), ← Int64.not_lt]
      simp only [not_or, not_not] at hbefore
      cases text settings field with
      | none => simp [hplain, hbefore]
      | some t => simp
  · simp [hplain]

/-- The text of a declaration is missing if the type pointed to leads nowhere. -/
theorem Declaration.text_eq_none_iff {field : Node} {t e : CType} (htype : field.type = some t)
    (hform : t.form = .pointer) (helem : t.elem = some e) :
    text settings field = none ↔ e.LeadsNowhere := by
  rw [← CType.spell_eq_none_iff, text, htype]
  simp [CType.pointee?, CType.isPointer, hform, helem, CType.spell?]

/-- Looking at a field breaks down at a gap in the class, or if the field is accepted and its new
type cannot be spelled. -/
theorem Finding.ofField_eq_absent_iff {s : Site} :
    ofField settings exclusions s = .error .absent ↔
      s.classify settings exclusions = .error .absent ∨ s.Unspellable settings exclusions := by
  have hdeclaration : s.classify settings exclusions = .ok .accepted →
      (Declaration.replacement settings s.field = .error .absent ↔
        s.Unspellable settings exclusions) := by
    intro haccepted
    obtain ⟨p, e, hplaces, hform, helem⟩ := Site.exists_pointer_of_accepted haccepted
    obtain ⟨-, htype, hbegin, hname, -⟩ := Site.places_eq_ok_iff.mp hplaces
    rw [Declaration.replacement_eq_absent_iff hbegin hname,
      Declaration.text_eq_none_iff htype hform helem]
    constructor
    · rintro ⟨hfollows, hnowhere⟩
      exact ⟨haccepted, ⟨_, _, hbegin, hname, hfollows⟩, ⟨_, _, htype, helem, hnowhere⟩⟩
    · rintro ⟨-, ⟨start, name, hbegin', hname', hfollows⟩, ⟨t, e', htype', helem', hnowhere⟩⟩
      cases hbegin.symm.trans hbegin'
      cases hname.symm.trans hname'
      cases htype.symm.trans htype'
      cases helem.symm.trans helem'
      exact ⟨hfollows, hnowhere⟩
  unfold ofField
  rw [Checked.bind_eq_absent_iff]
  refine or_congr_right ⟨?_, fun h => ⟨.accepted, h.accepted, ?_⟩⟩
  · rintro ⟨v, hclassify, h⟩
    cases v with
    | rejected r => cases h
    | accepted =>
        rcases Checked.bind_eq_absent_iff.mp h with h | ⟨d, -, h⟩
        · exact (hdeclaration hclassify).mp h
        · cases d <;> cases h
  · exact Checked.bind_eq_absent_iff.mpr (Or.inl ((hdeclaration h.accepted).mpr h))

/-! ## Units -/

/-- No list of a unit has a gap. -/
structure CompilationUnit.NoGaps (u : CompilationUnit) : Prop where
  inputs : none ∉ u.inputs.getD []
  inner : none ∉ u.inner
  children : ∀ n ∈ u.nodes, none ∉ n.inner

section

variable {u : CompilationUnit} (hu : u.NoGaps)

include hu

/-- Without gaps the input of a unit is there. -/
theorem CompilationUnit.NoGaps.input_ne_absent : u.input ≠ .error .absent := by
  have hinputs := hu.inputs
  unfold CompilationUnit.input
  split
  · simp
  · next hnone =>
      rw [hnone] at hinputs
      simp at hinputs
  · simp

/-- The field of a visit is classified, or there is a breach. -/
theorem CompilationUnit.NoGaps.classify_ne_absent {v : Visit} (hv : v ∈ u.visits) :
    v.site.classify settings exclusions ≠ .error .absent := by
  intro h
  obtain ⟨parent, hparent, hgap⟩ := Site.none_mem_of_classify h
  have hhas := (u.mem_visits_iff v).mp hv
  obtain ⟨node, ancestors, i⟩ := v
  cases hhas with
  | outermost _ => cases hparent
  | child hparent' _ =>
      cases hparent
      exact hu.children _ ((u.mem_nodes_iff _).mpr ⟨_, _, hparent'⟩) hgap

/-- Without gaps the members that a node uses are found or there are none. -/
theorem CompilationUnit.NoGaps.members_ne_absent {n : Node} (hn : n ∈ u.nodes) :
    Use.members u n ≠ .error .absent := by
  have hlast : n.inner.getLast? ≠ some none := fun h => hu.children n hn (List.mem_of_getLast? h)
  rw [Use.members, ne_eq, Checked.map_eq_absent_iff, Use.operands]
  split
  · simp
  · simp
  · rw [Checked.map_eq_absent_iff, Use.branches]
    split <;> simp [Checked.breach]
  · split
    · rw [Checked.map_eq_absent_iff, Use.initializer]
      split <;> simp_all
    · simp
  · simp

/-- Looking at a node breaks down only at a field whose new type cannot be spelled. -/
theorem Finding.ofVisit_eq_absent_iff {v : Visit} (hv : v ∈ u.visits) :
    ofVisit settings exclusions u v = .error .absent ↔
      v.node.role = .field ∧ v.site.Unspellable settings exclusions := by
  rw [ofVisit]
  split
  · next hrole =>
      have hclassify : v.site.classify settings exclusions ≠ .error .absent :=
        hu.classify_ne_absent hv
      rw [and_iff_right hrole,
        ← or_iff_right (b := v.site.Unspellable settings exclusions) hclassify]
      exact ofField_eq_absent_iff
  · next hrole =>
      have hmembers := hu.members_ne_absent (List.mem_map_of_mem hv)
      rw [Checked.map_eq_absent_iff]
      exact iff_of_false hmembers fun h => hrole h.1

end

/-- What is done about a use needs nothing that can be missing. -/
theorem Use.outcome_ne_absent (settings : Settings) (accepted : Text → Option Node) (m : Node) :
    outcome settings accepted m ≠ .error .absent := by
  unfold outcome
  split
  · simp [Checked.breach]
  · split
    · simp
    · split
      · simp [Checked.breach]
      · split <;> simp

/-- What becomes of uses is known or there is a breach. -/
theorem Pass.useOutcomes_ne_absent (settings : Settings) (found : List Finding) :
    (useOutcomes settings found).2 ≠ .error .absent := by
  rw [useOutcomes, ne_eq, loggedSteps_eq_error_iff]
  rintro ⟨-, m, -, -, -, hm⟩
  exact Use.outcome_ne_absent _ _ m hm

/-- An analysis breaks down where looking at the nodes does. -/
theorem Pass.analyze_eq_absent_iff {u : CompilationUnit} (language : Language) :
    (analyze settings exclusions u language).2 = .error .absent ↔
      (findings settings exclusions u).2 = .error .absent := by
  unfold analyze
  split
  · next log e hfound => simp [hfound]
  · next log found hfound =>
      have huses := useOutcomes_ne_absent settings found
      split
      · next later e houtcomes =>
          rw [houtcomes] at huses
          simpa [hfound] using huses
      · simp [hfound]

/-- In a unit without gaps something is missing only when a field is looked at. -/
theorem Pass.run_eq_absent_iff {u : CompilationUnit} (hu : u.NoGaps) :
    (run settings exclusions u).2 = .error .absent ↔
      (∃ input, u.input = .ok input) ∧ (findings settings exclusions u).2 = .error .absent := by
  have hinput := hu.input_ne_absent
  unfold run
  cases hresult : u.input with
  | error e => cases e <;> simp_all [Failure.map]
  | ok input =>
      rw [and_iff_right ⟨input, rfl⟩, ← analyze_eq_absent_iff (Language.ofName input.language)]
      simp only
      cases (analyze settings exclusions u (Language.ofName input.language)).2 with
      | ok p => simp [Except.mapError]
      | error e => cases e <;> simp [Except.mapError, Failure.map]

/-- **Missing parts are reported.** Analyzing a unit without gaps ends with a pass, with the error
about the number of its input files, with a breach whose message says so, or it breaks down. It
breaks down if and only if the unit has one input file and the first node that the analysis cannot
deal with is a field that is accepted and whose new type cannot be spelled, because behind its
pointer there are pointers of which the last points to nothing. -/
theorem run_reports_unless_unspellable (settings : Settings) (exclusions : Exclusions)
    (u : CompilationUnit) (hu : u.NoGaps) :
    ((∃ p, (Pass.run settings exclusions u).2 = .ok p) ∨
      (∃ e, (Pass.run settings exclusions u).2 = .error (.cause (.inputCount e))) ∨
      (∃ b, (Pass.run settings exclusions u).2 = .error (.cause (.breach b)) ∧ b.IsReported) ∨
      (Pass.run settings exclusions u).2 = .error .absent) ∧
    ((Pass.run settings exclusions u).2 = .error .absent ↔
      (∃ input, u.input = .ok input) ∧ ∃ before v after, u.visits = before ++ v :: after ∧
        (∀ w ∈ before, ∃ f, Finding.ofVisit settings exclusions u w = .ok f) ∧
        v.node.role = .field ∧ v.site.Unspellable settings exclusions) := by
  constructor
  · cases hresult : (Pass.run settings exclusions u).2 with
    | ok p => exact Or.inl ⟨p, rfl⟩
    | error e =>
        cases e with
        | absent => exact Or.inr (Or.inr (Or.inr rfl))
        | cause c =>
            cases c with
            | inputCount e => exact Or.inr (Or.inl ⟨e, rfl⟩)
            | breach b => exact Or.inr (Or.inr (Or.inl ⟨b, rfl, b.isReported⟩))
  · rw [Pass.run_eq_absent_iff hu, Pass.findings, loggedSteps_eq_error_iff]
    refine and_congr_right fun _ => ?_
    constructor
    · rintro ⟨before, v, after, hvisits, hbefore, hv⟩
      have hmem : v ∈ u.visits := by simp [hvisits]
      exact ⟨before, v, after, hvisits, hbefore, (Finding.ofVisit_eq_absent_iff hu hmem).mp hv⟩
    · rintro ⟨before, v, after, hvisits, hbefore, hv⟩
      have hmem : v ∈ u.visits := by simp [hvisits]
      exact ⟨before, v, after, hvisits, hbefore, (Finding.ofVisit_eq_absent_iff hu hmem).mpr hv⟩

end

/-! ## A pointer behind a pointer -/

/-- A field that points to a pointer to nothing. -/
def danglingField : Node :=
  { kind := "FieldDecl", type := some { kind := "pointer", elem := some { kind := "pointer" } },
    begin := some { file := "a.h", offset := 10 }, loc := some { file := "a.h", offset := 16 },
    typeLoc := some { file := "a.h", offset := 10 } }

/-- A unit with one class that has some fields. -/
def classOf (fields : List Node) : CompilationUnit :=
  { inputs := some [some { file := "a.cc", language := "c++" }],
    inner := [some { kind := "CXXRecordDecl", inner := fields.map some }] }

/-- The class of this unit has a field without a type in front of the other. -/
def untypedThenDangling : CompilationUnit :=
  classOf [{ kind := "FieldDecl", name := "q" }, danglingField]

theorem noGaps_untypedThenDangling : untypedThenDangling.NoGaps where
  inputs := by decide
  inner := by simp [untypedThenDangling, classOf]
  children := by
    simp [untypedThenDangling, classOf, CompilationUnit.nodes, CompilationUnit.visits,
      Node.visitsOf, Node.visits, danglingField]

theorem noGaps_dangling : (classOf [danglingField]).NoGaps where
  inputs := by decide
  inner := by simp [classOf]
  children := by
    simp [classOf, CompilationUnit.nodes, CompilationUnit.visits, Node.visitsOf, Node.visits,
      danglingField]

/-- The field without a type comes first, so the pointer behind the other field is not reached and
the breach is reported. -/
theorem run_reports_unless_unspellable_second :
    untypedThenDangling.NoGaps ∧
      (∃ b, (Pass.run {} {} untypedThenDangling).2 = .error (.cause (.breach b)) ∧ b.IsReported) ∧
      ¬ ∃ before v after, untypedThenDangling.visits = before ++ v :: after ∧
        (∀ w ∈ before, ∃ f, Finding.ofVisit {} {} untypedThenDangling w = .ok f) ∧
        v.node.role = .field ∧ v.site.Unspellable {} {} := by
  have hrun : (Pass.run {} {} untypedThenDangling).2
      = .error (.cause (.breach (.lacks "FieldDecl q" .type))) := rfl
  obtain ⟨hends, hiff⟩ :=
    run_reports_unless_unspellable {} {} untypedThenDangling noGaps_untypedThenDangling
  rw [hrun] at hends hiff
  refine ⟨noGaps_untypedThenDangling, ?_, fun h => ?_⟩
  · rcases hends with ⟨p, hp⟩ | ⟨e, he⟩ | ⟨b, hb, hreported⟩ | habsent
    · cases hp
    · cases he
    · exact ⟨b, hrun.trans hb, hreported⟩
    · cases habsent
  · cases hiff.mpr ⟨⟨_, rfl⟩, h⟩

/-- A unit can be read in which the only thing missing is what the pointer behind a pointer points
to. Analyzing it breaks down without a report. -/
theorem missing_pointee_not_reported :
    ∃ data u, CompilationUnit.decode .json data = .ok u ∧ u.NoGaps ∧
      (Pass.run {} {} u).2 = .error .absent := by
  refine ⟨CompilationUnit.encode .json (classOf [danglingField]), classOf [danglingField], ?_,
    noGaps_dangling, rfl⟩
  have hwithin : (classOf [danglingField]).datum.Within (fun t => Text.isValidUtf8 t = true)
      fun _ => True :=
    CompilationUnit.within_datum CompilationUnit.allowsRecords_json (by decide +kernel)
      fun _ _ => trivial
  exact CompilationUnit.decode_encode_of_readDatum (by decide +kernel)
    (Json.read_write hwithin (by decide +kernel))

end PointerMigration
