/-
# The edits of a pass

Which edits a pass makes: the new declaration of each field that is migrated, and an accessor behind
each use of such a field that needs a raw pointer. The order in which fields and uses come does not
matter, and the edits are kept by file, each once.
-/
import PointerMigration.Migration.Session
import PointerMigration.Proofs.Uses
import Mathlib.Data.List.Nodup

namespace PointerMigration

/-! ## Edits by file -/

namespace FileEdits

/-- A replacement is listed with its file. -/
def Lists (es : List FileEdits) (r : Replacement) : Prop :=
  ∃ e ∈ es, e.name = r.file ∧ r ∈ e.replacements

instance (es : List FileEdits) (r : Replacement) : Decidable (Lists es r) :=
  inferInstanceAs (Decidable (∃ e ∈ es, e.name = r.file ∧ r ∈ e.replacements))

/-- Each file is listed once, with replacements of its own, of which there are some and none
twice. -/
structure Tidy (es : List FileEdits) : Prop where
  names_nodup : (es.map name).Nodup
  ne_nil : ∀ e ∈ es, e.replacements ≠ []
  nodup : ∀ e ∈ es, e.replacements.Nodup
  file_eq : ∀ e ∈ es, ∀ r ∈ e.replacements, r.file = e.name

theorem mem_insertNew {r s : Replacement} {rs : List Replacement} :
    s ∈ Replacement.insertNew r rs ↔ s = r ∨ s ∈ rs := by
  rw [Replacement.insertNew]
  split
  · next hmem =>
      constructor
      · exact Or.inr
      · rintro (rfl | hs)
        · exact hmem
        · exact hs
  · rw [List.mem_append, List.mem_singleton, or_comm]

theorem nodup_insertNew {r : Replacement} {rs : List Replacement} (h : rs.Nodup) :
    (Replacement.insertNew r rs).Nodup := by
  rw [Replacement.insertNew]
  split
  · exact h
  · next hnot =>
      rw [← List.concat_eq_append]
      exact List.Nodup.concat hnot h

/-- A file comes last if it was not there. -/
theorem names_add (r : Replacement) (es : List FileEdits) :
    (add r es).map name =
      if r.file ∈ es.map name then es.map name else es.map name ++ [r.file] := by
  induction es with
  | nil => rfl
  | cons e es ih =>
      rw [add]
      by_cases hname : e.name = r.file
      · simp [hname]
      · rw [if_neg hname, List.map_cons, ih]
        simp only [List.map_cons, List.mem_cons, Ne.symm hname, false_or]
        split <;> rfl

theorem lists_cons (e : FileEdits) (es : List FileEdits) (s : Replacement) :
    Lists (e :: es) s ↔ (e.name = s.file ∧ s ∈ e.replacements) ∨ Lists es s := by
  simp [Lists]

/-- What is added is listed, and what was listed stays. -/
theorem lists_add {r s : Replacement} {es : List FileEdits} :
    Lists (add r es) s ↔ s = r ∨ Lists es s := by
  induction es with
  | nil =>
      rw [add, lists_cons]
      constructor
      · rintro (⟨-, hs⟩ | hs)
        · exact Or.inl (List.mem_singleton.mp hs)
        · exact Or.inr hs
      · rintro (rfl | hs)
        · exact Or.inl ⟨rfl, List.mem_singleton_self s⟩
        · exact Or.inr hs
  | cons e es ih =>
      rw [add, lists_cons]
      by_cases hname : e.name = r.file
      · rw [if_pos hname, lists_cons, mem_insertNew]
        constructor
        · rintro (⟨hfile, rfl | hs⟩ | hs)
          · exact Or.inl rfl
          · exact Or.inr (Or.inl ⟨hfile, hs⟩)
          · exact Or.inr (Or.inr hs)
        · rintro (rfl | ⟨hfile, hs⟩ | hs)
          · exact Or.inl ⟨hname, Or.inl rfl⟩
          · exact Or.inl ⟨hfile, Or.inr hs⟩
          · exact Or.inr hs
      · rw [if_neg hname, lists_cons, ih, or_left_comm]

/-- What holds of all entries and of those that a replacement changes or makes holds afterwards. -/
theorem forall_mem_add {r : Replacement} {es : List FileEdits} {P : FileEdits → Prop}
    (hold : ∀ e ∈ es, P e) (hnew : P ⟨r.file, [r]⟩)
    (hchanged : ∀ e ∈ es, e.name = r.file → P ⟨e.name, Replacement.insertNew r e.replacements⟩) :
    ∀ e ∈ add r es, P e := by
  induction es with
  | nil => simpa [add] using hnew
  | cons e es ih =>
      rw [List.forall_mem_cons] at hold hchanged
      rw [add]
      split
      · next hname => exact List.forall_mem_cons.mpr ⟨hchanged.1 hname, hold.2⟩
      · exact List.forall_mem_cons.mpr ⟨hold.1, ih hold.2 hchanged.2⟩

/-- Adding a replacement keeps the edits tidy. -/
theorem Tidy.add {es : List FileEdits} (h : Tidy es) (r : Replacement) : Tidy (add r es) where
  names_nodup := by
    rw [names_add]
    split
    · exact h.names_nodup
    · next hnot =>
        rw [← List.concat_eq_append]
        exact List.Nodup.concat hnot h.names_nodup
  ne_nil := forall_mem_add h.ne_nil (by simp) fun e _ _ hnil => by
    have hmem : r ∈ Replacement.insertNew r e.replacements := mem_insertNew.mpr (Or.inl rfl)
    exact List.ne_nil_of_mem hmem hnil
  nodup := forall_mem_add h.nodup (List.nodup_singleton r) fun e he _ =>
    nodup_insertNew (h.nodup e he)
  file_eq := forall_mem_add h.file_eq (by simp) fun e he hname s hs => by
    rcases mem_insertNew.mp hs with rfl | hs
    · exact hname.symm
    · exact h.file_eq e he s hs

/-- **Edits by file.** Replacements kept by file are tidy, and they are all listed. -/
theorem ofReplacements_spec (rs : List Replacement) :
    Tidy (ofReplacements rs) ∧ ∀ r, Lists (ofReplacements rs) r ↔ r ∈ rs := by
  -- The fold keeps what was there before, so the start is any list.
  have hfold : ∀ es, Tidy es → Tidy (rs.foldl (fun es r => FileEdits.add r es) es) ∧
      ∀ r, Lists (rs.foldl (fun es r => FileEdits.add r es) es) r ↔ r ∈ rs ∨ Lists es r := by
    induction rs with
    | nil => exact fun es h => ⟨h, fun r => by simp⟩
    | cons s rs ih =>
        intro es h
        obtain ⟨htidy, hlists⟩ := ih (FileEdits.add s es) (h.add s)
        refine ⟨htidy, fun r => ?_⟩
        rw [List.foldl_cons, hlists, lists_add, List.mem_cons, or_left_comm, or_assoc]
  obtain ⟨htidy, hlists⟩ := hfold [] ⟨List.nodup_nil, by simp, by simp, by simp⟩
  refine ⟨htidy, fun r => ?_⟩
  rw [ofReplacements, hlists]
  simp [Lists]

end FileEdits

/-! ## Steps -/

section

variable {α β ε : Type} {step : α → Except ε β} {log : β → List LogEntry}

theorem loggedSteps_cons_eq_ok {a : α} {rest : List α} {results : List β}
    (h : (loggedSteps step log (a :: rest)).2 = .ok results) :
    ∃ b later, step a = .ok b ∧ (loggedSteps step log rest).2 = .ok later ∧
      results = b :: later := by
  rw [loggedSteps] at h
  cases hstep : step a with
  | error e =>
      rw [hstep] at h
      cases h
  | ok b =>
      rw [hstep] at h
      cases hrest : (loggedSteps step log rest).2 with
      | error e =>
          simp only [hrest] at h
          cases h
      | ok later =>
          simp only [hrest] at h
          exact ⟨b, later, rfl, rfl, (Except.ok.inj h).symm⟩

/-- If the steps succeed, then each of them does. -/
theorem exists_of_loggedSteps {as : List α} {results : List β}
    (h : (loggedSteps step log as).2 = .ok results) : ∀ a ∈ as, ∃ b, step a = .ok b := by
  induction as generalizing results with
  | nil => exact fun a ha => absurd ha List.not_mem_nil
  | cons a rest ih =>
      obtain ⟨b, later, hstep, hrest, -⟩ := loggedSteps_cons_eq_ok h
      exact List.forall_mem_cons.mpr ⟨⟨b, hstep⟩, ih hrest⟩

/-- The results are those of the single steps. -/
theorem mem_loggedSteps_iff {as : List α} {results : List β}
    (h : (loggedSteps step log as).2 = .ok results) (b : β) :
    b ∈ results ↔ ∃ a ∈ as, step a = .ok b := by
  induction as generalizing results with
  | nil =>
      cases Except.ok.inj h
      simp
  | cons a rest ih =>
      obtain ⟨first, later, hstep, hrest, rfl⟩ := loggedSteps_cons_eq_ok h
      rw [List.mem_cons, ih hrest, List.exists_mem_cons_iff, hstep, Except.ok.injEq, eq_comm]

end

/-! ## Findings -/

/-- A field of a unit that is migrated, with its new declaration. -/
def Migrates (settings : Settings) (exclusions : Exclusions) (u : CompilationUnit) (field : Node)
    (declaration : Replacement) : Prop :=
  ∃ ancestors index, u.Has ancestors index field ∧ field.kind = "FieldDecl" ∧
    Site.classify settings exclusions ⟨field, ancestors, some index⟩ = .ok .accepted ∧
    Declaration.replacement settings field = .ok (some declaration)

/-- A member expression of a unit that needs the accessor if its field is migrated. -/
def NeedsAccessor (u : CompilationUnit) (m : Node) : Prop :=
  ∃ n ∈ u.nodes, ∃ e, Use.NeedsPointer u n e ∧ Use.BehindCasts 2 e m

namespace Finding

variable {settings : Settings} {exclusions : Exclusions} {u : CompilationUnit}

/-- What can be found at a field. -/
theorem ofField_eq_ok_iff {s : Site} {f : Finding} :
    ofField settings exclusions s = .ok f ↔
      (∃ reason, s.classify settings exclusions = .ok (.rejected reason) ∧
        f = rejected s.field reason) ∨
      s.classify settings exclusions = .ok .accepted ∧
        (Declaration.replacement settings s.field = .ok none ∧ f = nameElsewhere s.field ∨
          ∃ r, Declaration.replacement settings s.field = .ok (some r) ∧
            f = accepted s.field r) := by
  unfold ofField
  cases hverdict : s.classify settings exclusions with
  | error e => simp [bind, Except.bind]
  | ok verdict =>
      cases verdict with
      | rejected reason => simp [bind, Except.bind, pure, Except.pure, eq_comm]
      | accepted =>
          cases hdeclaration : Declaration.replacement settings s.field with
          | error e => simp [bind, Except.bind]
          | ok declaration =>
              cases declaration with
              | none => simp [bind, Except.bind, pure, Except.pure, eq_comm]
              | some d => simp [bind, Except.bind, pure, Except.pure, eq_comm]

/-- The nodes at which a field to migrate is found. -/
theorem ofVisit_eq_accepted_iff {v : Visit} {field : Node} {r : Replacement} :
    ofVisit settings exclusions u v = .ok (accepted field r) ↔
      field = v.node ∧ v.node.kind = "FieldDecl" ∧
        Site.classify settings exclusions ⟨v.node, v.ancestors, some v.index⟩ = .ok .accepted ∧
        Declaration.replacement settings v.node = .ok (some r) := by
  rw [ofVisit]
  by_cases hrole : v.node.role = .field
  · rw [if_pos hrole, ofField_eq_ok_iff]
    have hkind := Node.role_eq_field_iff.mp hrole
    constructor
    · rintro (⟨reason, -, hf⟩ | ⟨hclassify, ⟨-, hf⟩ | ⟨r', hr', hf⟩⟩)
      · cases hf
      · cases hf
      · cases hf
        exact ⟨rfl, hkind, hclassify, hr'⟩
    · rintro ⟨rfl, -, hclassify, hr⟩
      exact Or.inr ⟨hclassify, Or.inr ⟨r, hr, rfl⟩⟩
  · rw [if_neg hrole]
    constructor
    · intro h
      cases hmembers : Use.members u v.node with
      | error e =>
          rw [hmembers] at h
          cases h
      | ok ms =>
          rw [hmembers] at h
          cases h
    · rintro ⟨-, hkind, -⟩
      exact absurd (Node.role_eq_field_iff.mpr hkind) hrole

/-- The nodes at which uses are found. -/
theorem ofVisit_eq_uses_iff {v : Visit} {ms : List Node} :
    ofVisit settings exclusions u v = .ok (uses ms) ↔
      v.node.kind ≠ "FieldDecl" ∧ Use.members u v.node = .ok ms := by
  rw [ofVisit]
  by_cases hrole : v.node.role = .field
  · rw [if_pos hrole, ofField_eq_ok_iff]
    constructor
    · rintro (⟨reason, -, hf⟩ | ⟨-, ⟨-, hf⟩ | ⟨r, -, hf⟩⟩) <;> cases hf
    · rintro ⟨hkind, -⟩
      exact absurd (Node.role_eq_field_iff.mp hrole) hkind
  · rw [if_neg hrole]
    have hkind := mt Node.role_eq_field_iff.mpr hrole
    cases hmembers : Use.members u v.node with
    | error e => simp [Except.map]
    | ok ms' => simp [Except.map, hkind]

section

variable {found : List Finding} (hfound : (Pass.findings settings exclusions u).2 = .ok found)

include hfound

/-- The fields to migrate that are found are those that there are. -/
theorem accepted_mem_iff {field : Node} {r : Replacement} :
    accepted field r ∈ found ↔ Migrates settings exclusions u field r := by
  rw [mem_loggedSteps_iff hfound]
  constructor
  · rintro ⟨v, hv, hfinding⟩
    obtain ⟨rfl, hkind, hclassify, hr⟩ := ofVisit_eq_accepted_iff.mp hfinding
    exact ⟨v.ancestors, v.index, (u.mem_visits_iff v).mp hv, hkind, hclassify, hr⟩
  · rintro ⟨ancestors, index, hhas, hkind, hclassify, hr⟩
    exact ⟨⟨field, ancestors, index⟩, u.mem_visits_of_has hhas,
      ofVisit_eq_accepted_iff.mpr ⟨rfl, hkind, hclassify, hr⟩⟩

/-- The uses that are found are those that there are. -/
theorem mem_uses_iff (hu : u.checked = .ok u) {m : Node} :
    m ∈ found.flatMap members ↔ NeedsAccessor u m := by
  rw [List.mem_flatMap]
  constructor
  · rintro ⟨f, hf, hm⟩
    cases f with
    | uses ms =>
        obtain ⟨v, hv, hfinding⟩ := (mem_loggedSteps_iff hfound _).mp hf
        obtain ⟨-, hms⟩ := ofVisit_eq_uses_iff.mp hfinding
        obtain ⟨e, hn, hbehind⟩ := (Use.mem_members_iff hu hms).mp hm
        exact ⟨v.node, List.mem_map_of_mem hv, e, hn, hbehind⟩
    | accepted | rejected | nameElsewhere => cases hm
  · rintro ⟨n, hn, e, hneeds, hbehind⟩
    obtain ⟨v, hv, rfl⟩ := List.mem_map.mp hn
    -- The node was visited and the visit did not fail, so its members were found.
    have hkind := hneeds.kind_ne
    obtain ⟨f, hf⟩ := exists_of_loggedSteps hfound v hv
    cases hmembers : Use.members u v.node with
    | error e =>
        rw [ofVisit, if_neg (mt Node.role_eq_field_iff.mp hkind), hmembers] at hf
        cases hf
    | ok ms =>
        exact ⟨uses ms, (mem_loggedSteps_iff hfound _).mpr
          ⟨v, hv, ofVisit_eq_uses_iff.mpr ⟨hkind, hmembers⟩⟩,
          (Use.mem_members_iff hu hmembers).mpr ⟨e, hneeds, hbehind⟩⟩

/-- The fields with the verdict that they are accepted are those that are migrated. -/
theorem accepted_verdict_mem_iff {field : Node} :
    (field, .accepted) ∈ found.filterMap verdict? ↔
      ∃ r, Migrates settings exclusions u field r := by
  simp only [← accepted_mem_iff hfound, List.mem_filterMap]
  constructor
  · rintro ⟨f, hf, hverdict⟩
    cases f with
    | accepted field' r =>
        cases hverdict
        exact ⟨r, hf⟩
    | rejected | nameElsewhere | uses => cases hverdict
  · rintro ⟨r, hr⟩
    exact ⟨_, hr, rfl⟩

/-- The accepted field that is found by an id is the one with this id. -/
theorem acceptedField?_eq_some_iff (hu : u.checked = .ok u) {id : Text} (hid : id ≠ [])
    {field : Node} :
    Pass.acceptedField? (found.filterMap verdict?) id = some field ↔
      field.id = id ∧ ∃ r, Migrates settings exclusions u field r := by
  have hnodes : ∀ n, (n, .accepted) ∈ found.filterMap verdict? → n ∈ u.nodes := by
    intro n hn
    obtain ⟨r, ancestors, index, hhas, -⟩ := (accepted_verdict_mem_iff hfound).mp hn
    exact (u.mem_nodes_iff n).mpr ⟨ancestors, index, hhas⟩
  have hholds : ∀ entry : Node × Verdict, (entry.1.id = id && entry.2.isAccepted) = true ↔
      entry.1.id = id ∧ entry.2 = .accepted := by
    simp [Verdict.isAccepted]
  have hfind : ∀ entry : Node × Verdict,
      (found.filterMap verdict?).find? (fun entry => entry.1.id = id && entry.2.isAccepted)
          = some entry ↔
        entry ∈ found.filterMap verdict? ∧ (entry.1.id = id && entry.2.isAccepted) = true := by
    -- Two accepted fields with this id are one node, because the id is not empty.
    refine find?_eq_some_iff_of_unique ?_
    rintro ⟨n, v⟩ hn ⟨m, w⟩ hm hnv hmw
    obtain ⟨hnid, rfl⟩ := (hholds (n, v)).mp hnv
    obtain ⟨hmid, rfl⟩ := (hholds (m, w)).mp hmw
    rw [CompilationUnit.eq_of_id_eq hu (hnodes n hn) (hnodes m hm) (hnid.trans hmid.symm)
      (hnid.trans_ne hid)]
  rw [Pass.acceptedField?, Option.map_eq_some_iff, ← accepted_verdict_mem_iff hfound]
  constructor
  · rintro ⟨⟨n, v⟩, hentry, rfl⟩
    obtain ⟨hmem, hnv⟩ := (hfind _).mp hentry
    obtain ⟨hnid, rfl⟩ := (hholds (n, v)).mp hnv
    exact ⟨hnid, hmem⟩
  · rintro ⟨hfid, hmem⟩
    exact ⟨(field, .accepted), (hfind _).mpr ⟨hmem, (hholds _).mpr ⟨hfid, rfl⟩⟩, rfl⟩

end

end Finding

/-! ## The edits -/

/-- What a unit asks for: the new declarations of the fields that are migrated, and an accessor
behind each use of such a field that needs one and does not stand in a macro. -/
inductive Asked (settings : Settings) (exclusions : Exclusions) (u : CompilationUnit) :
    Replacement → Prop where
  | declaration {field : Node} {r : Replacement} (h : Migrates settings exclusions u field r) :
      Asked settings exclusions u r
  | accessor {field m : Node} {d : Replacement} {place : Location}
      (hfield : Migrates settings exclusions u field d) (hm : NeedsAccessor u m)
      (href : m.ref = field.id) (hloc : m.loc = some place) (hplain : place.isPlain = true) :
      Asked settings exclusions u (Use.accessorAt settings place field)

section

variable {settings : Settings} {exclusions : Exclusions} {u : CompilationUnit} {p : Pass}

/-- What an analysis that does not fail is made of. -/
theorem Pass.analyze_eq_ok {language : Language}
    (h : (analyze settings exclusions u language).2 = .ok p) :
    ∃ found outcomes, (findings settings exclusions u).2 = .ok found ∧
      (useOutcomes settings found).2 = .ok outcomes ∧
      p = ofFindings u.name language found outcomes := by
  unfold analyze at h
  split at h
  · cases h
  · next log found hfound =>
      split at h
      · cases h
      · next later outcomes houtcomes =>
          exact ⟨found, outcomes, by rw [hfound], by rw [houtcomes], (Except.ok.inj h).symm⟩

theorem Pass.run_eq_ok (h : (run settings exclusions u).2 = .ok p) :
    ∃ language, (analyze settings exclusions u language).2 = .ok p := by
  unfold run at h
  split at h
  · cases h
  · next input hinput =>
      refine ⟨Language.ofName input.language, ?_⟩
      cases hresult : (analyze settings exclusions u (Language.ofName input.language)).2 with
      | error e =>
          simp only [hresult] at h
          cases h
      | ok p' =>
          simp only [hresult] at h
          exact congrArg Except.ok (Except.ok.inj h)

/-- **Edits.** The edits of a pass over a unit that has passed the check of its ids are listed by
file, each file with some replacements and each replacement once. A replacement is listed with its
file if and only if the unit asks for it. -/
theorem run_edits_eq_asked (hu : u.checked = .ok u)
    (hrun : (Pass.run settings exclusions u).2 = .ok p) :
    FileEdits.Tidy p.edits ∧
      ∀ r, FileEdits.Lists p.edits r ↔ Asked settings exclusions u r := by
  obtain ⟨language, hanalyze⟩ := Pass.run_eq_ok hrun
  obtain ⟨found, outcomes, hfound, houtcomes, rfl⟩ := Pass.analyze_eq_ok hanalyze
  obtain ⟨htidy, hlists⟩ := FileEdits.ofReplacements_spec
    (found.filterMap Finding.declaration? ++ outcomes.filterMap Use.Outcome.replacement?)
  refine ⟨htidy, fun r => ?_⟩
  rw [Pass.ofFindings, hlists, List.mem_append, List.mem_filterMap, List.mem_filterMap]
  constructor
  · rintro (⟨f, hf, hr⟩ | ⟨o, ho, hr⟩)
    · cases f with
      | accepted field d =>
          cases hr
          exact .declaration ((Finding.accepted_mem_iff hfound).mp hf)
      | rejected | nameElsewhere | uses => cases hr
    · cases o with
      | insertion d =>
          cases hr
          obtain ⟨m, hm, houtcome⟩ := (mem_loggedSteps_iff houtcomes _).mp ho
          obtain ⟨href, field, place, hfield, hloc, hplain, rfl⟩ :=
            Use.outcome_eq_insertion_iff.mp houtcome
          obtain ⟨hid, d, hd⟩ := (Finding.acceptedField?_eq_some_iff hfound hu href).mp hfield
          exact .accessor hd ((Finding.mem_uses_iff hfound hu).mp hm) hid.symm hloc hplain
      | untouched | inMacro => cases hr
  · rintro (hr | ⟨hd, hm, href, hloc, hplain⟩)
    · exact Or.inl ⟨_, (Finding.accepted_mem_iff hfound).mpr hr, rfl⟩
    · have hm' := (Finding.mem_uses_iff hfound hu).mpr hm
      -- The pass would have failed at a use without a declaration.
      obtain ⟨o, ho⟩ := exists_of_loggedSteps houtcomes _ hm'
      have hne := Use.ref_ne_nil_of_outcome ho
      refine Or.inr ⟨.insertion _, (mem_loggedSteps_iff houtcomes _).mpr ⟨_, hm', ?_⟩, rfl⟩
      rw [Use.outcome_eq_insertion_iff]
      exact ⟨hne, _, _, (Finding.acceptedField?_eq_some_iff hfound hu hne).mpr
        ⟨href.symm, _, hd⟩, hloc, hplain, rfl⟩

end

/-- A pointer field of a class that is declared behind its use, a deduced pointer
initialized in braces. -/
def deducedBeforeField : CompilationUnit :=
  let intType : CType := { kind := "builtin", name := "int" }
  let member : Node :=
    { kind := "MemberExpr", ref := "f", loc := some { file := "a.cc", offset := 40 } }
  let cast : Node := { kind := "ImplicitCastExpr", inner := [some member] }
  let braces : Node := { kind := "InitListExpr", inner := [some cast] }
  let deduced : Node :=
    { kind := "VarDecl", type := some { kind := "pointer", elem := some { kind := "auto" } },
      inner := [some braces] }
  let field : Node :=
    { id := "f", kind := "FieldDecl", name := "ptr",
      type := some { kind := "pointer", elem := some intType },
      begin := some { file := "a.h", offset := 10 }, loc := some { file := "a.h", offset := 15 },
      typeLoc := some { file := "a.h", offset := 10 } }
  { inputs := some [some { file := "a.cc", language := "c++" }],
    inner := [some deduced, some { kind := "CXXRecordDecl", inner := [some field] }] }

/-- The pass over this unit makes an edit of each kind. -/
theorem run_edits_eq_asked_deduced :
    ∃ p, deducedBeforeField.checked = .ok deducedBeforeField ∧
      (Pass.run {} {} deducedBeforeField).2 = .ok p ∧ FileEdits.Tidy p.edits ∧
      Asked {} {} deducedBeforeField ⟨"a.h", 10, 5, "CheckedPtr<int> ", true⟩ ∧
      Asked {} {} deducedBeforeField ⟨"a.cc", 43, 0, ".get()", false⟩ ∧
      ¬ Asked {} {} deducedBeforeField ⟨"a.cc", 40, 0, ".get()", false⟩ := by
  have hchecked : deducedBeforeField.checked = .ok deducedBeforeField := rfl
  obtain ⟨p, hrun, hedits⟩ : ∃ p, (Pass.run {} {} deducedBeforeField).2 = .ok p ∧
      p.edits = [⟨"a.h", [⟨"a.h", 10, 5, "CheckedPtr<int> ", true⟩]⟩,
        ⟨"a.cc", [⟨"a.cc", 43, 0, ".get()", false⟩]⟩] := ⟨_, rfl, rfl⟩
  obtain ⟨htidy, hasked⟩ := run_edits_eq_asked hchecked hrun
  refine ⟨p, hchecked, hrun, htidy, ?_⟩
  rw [← hasked, ← hasked, ← hasked, hedits]
  exact ⟨by decide, by decide, by decide⟩

end PointerMigration
