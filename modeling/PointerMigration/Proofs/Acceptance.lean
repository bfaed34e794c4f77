/-
# Which fields are accepted

A field is accepted if its type is a pointer that the wrapper can replace, if no other field of the
class shares its type specifier, and if nothing about the place where it is declared speaks against
it. Each condition is said here without the order in which it is asked, and for types without the
loop that looks behind aliases.
-/
import PointerMigration.Proofs.UnitData
import PointerMigration.Proofs.Verdicts

namespace PointerMigration

/-! ## Types -/

namespace CType

/-- A type has a form if it has the name of the form as its kind. -/
theorem form_eq_iff {t : CType} (name : Text) {f : Form} (h : (name, f) ∈ formNames) :
    t.form = f ↔ t.kind = name := by
  have hother : ∀ entry ∈ formNames, entry.2 ≠ .other := by decide
  have hforms : ∀ a ∈ formNames, ∀ b ∈ formNames, a.2 = b.2 → a = b := by decide
  have hentry : t.form = f ↔ (t.kind, f) ∈ formNames := getD_find?_eq_iff (by decide) (hother _ h)
  rw [hentry]
  constructor
  · intro hkind
    exact congrArg Prod.fst (hforms _ hkind _ h rfl)
  · rintro rfl
    exact h

theorem form_eq_pointer_iff {t : CType} : t.form = .pointer ↔ t.kind = "pointer" :=
  form_eq_iff "pointer" (by decide)

/-- A type is an alias: it has a name of its own and stands for another type. -/
def IsAlias (t : CType) : Prop := t.kind = "typedef" ∨ t.kind = "elaborated"

instance (t : CType) : Decidable t.IsAlias := inferInstanceAs (Decidable (_ ∨ _))

theorem isAlias_iff {t : CType} : t.IsAlias ↔ t.form = .typedef ∨ t.form = .elaborated :=
  or_congr (form_eq_iff _ (by decide)).symm (form_eq_iff _ (by decide)).symm

/-- A type stands for another behind any number of aliases. -/
inductive StandsFor : CType → CType → Prop where
  | itself {t : CType} (h : ¬ t.IsAlias) : StandsFor t t
  | behind {t e u : CType} (halias : t.IsAlias) (helem : t.elem = some e) (h : StandsFor e u) :
      StandsFor t u

/-- A type that is no alias stands for itself, and an alias for what the type behind it stands
for. -/
theorem standsFor_iff {t u : CType} :
    t.StandsFor u ↔ (¬ t.IsAlias ∧ t = u) ∨ (t.IsAlias ∧ ∃ e, t.elem = some e ∧ e.StandsFor u) := by
  constructor
  · rintro (h | ⟨halias, helem, h⟩)
    · exact Or.inl ⟨h, rfl⟩
    · exact Or.inr ⟨halias, _, helem, h⟩
  · rintro (⟨h, rfl⟩ | ⟨halias, e, helem, h⟩)
    · exact .itself h
    · exact .behind halias helem h

/-- What is found behind aliases is the type that they stand for. -/
theorem desugar_eq_some_iff {t u : CType} : t.desugar = some u ↔ t.StandsFor u := by
  induction t using CType.induction with
  | h t ih =>
      have halias := t.isAlias_iff
      rw [standsFor_iff, desugar.eq_def]
      obtain ⟨kind, name, isConst, isVolatile, elem, tag⟩ := t
      simp only
      split
      · next h =>
          rw [Bool.or_eq_true, decide_eq_true_eq, decide_eq_true_eq, ← halias] at h
          cases elem with
          | none => simp [h]
          | some e => simp [h, ih e rfl]
      · next h =>
          rw [Bool.or_eq_true, decide_eq_true_eq, decide_eq_true_eq, ← halias] at h
          simp [h]

/-- The wrapper can point to a type. -/
structure Wrappable (t : CType) : Prop where
  not_function : t.kind ≠ "function"
  not_memberPointer : t.kind ≠ "memberPointer"
  not_array : t.kind ≠ "array"
  not_char : ¬ (t.kind = "builtin" ∧ t.name ∈ charNames)
  not_tagged : t.kind = "record" ∨ t.kind = "enum" →
    ∀ tag, t.tag = some tag → tag.isInline = false ∧ tag.deletedNew = false

end CType

namespace Site

/-- A pointee is supported if and only if it can be wrapped. -/
theorem isUnsupported_eq_false_iff {t : CType} : isUnsupported t = false ↔ t.Wrappable := by
  have htag : (t.tag.any fun tag => tag.isInline || tag.deletedNew) = false ↔
      ∀ tag, t.tag = some tag → tag.isInline = false ∧ tag.deletedNew = false := by
    cases t.tag <;> simp
  have hchar : t.isChar = false ↔ ¬ (t.kind = "builtin" ∧ t.name ∈ CType.charNames) := by
    rw [CType.isChar, ← Bool.not_eq_true, Bool.and_eq_true, decide_eq_true_eq,
      List.contains_iff_mem, CType.form_eq_iff "builtin" (by decide)]
  have hforms : t.Wrappable ↔ t.form ≠ .function ∧ t.form ≠ .memberPointer ∧ t.form ≠ .array ∧
      t.isChar = false ∧ (t.form = .record ∨ t.form = .enumeration →
        (t.tag.any fun tag => tag.isInline || tag.deletedNew) = false) := by
    rw [hchar, htag, ne_eq, ne_eq, ne_eq, CType.form_eq_iff "function" (by decide),
      CType.form_eq_iff "memberPointer" (by decide), CType.form_eq_iff "array" (by decide),
      CType.form_eq_iff "record" (by decide), CType.form_eq_iff "enum" (by decide)]
    exact ⟨fun ⟨h1, h2, h3, h4, h5⟩ => ⟨h1, h2, h3, h4, h5⟩,
      fun ⟨h1, h2, h3, h4, h5⟩ => ⟨h1, h2, h3, h4, h5⟩⟩
  -- Of the conditions on forms only one is about the form that the type has.
  rw [hforms, isUnsupported]
  cases hform : t.form <;> simp [CType.isChar, hform]

/-- A type is accepted if it is a pointer to a type for which the wrapper can be used. -/
theorem classifyType_eq_accepted_iff {t : CType} :
    classifyType (some t) = .ok .accepted ↔
      t.kind = "pointer" ∧ ∃ e u, t.elem = some e ∧ e.StandsFor u ∧ u.Wrappable := by
  simp only [classifyType, CType.isPointer, ← CType.form_eq_pointer_iff,
    ← CType.desugar_eq_some_iff, ← isUnsupported_eq_false_iff]
  by_cases hform : t.form = .pointer
  · cases helem : t.elem with
    | none => simp [hform, Checked.breach]
    | some e =>
        cases hdesugar : e.desugar with
        | none => simp [hform, hdesugar, Checked.breach]
        | some u => cases hunsupported : isUnsupported u <;> simp [hform, hdesugar, hunsupported]
  · simp [hform]

/-- A type has a verdict if it is no pointer or the type pointed to stands for one. -/
theorem exists_classifyType {t : CType}
    (h : t.kind = "pointer" → ∃ e u, t.elem = some e ∧ e.StandsFor u) :
    ∃ v, classifyType (some t) = .ok v := by
  simp only [← CType.form_eq_pointer_iff, ← CType.desugar_eq_some_iff] at h
  simp only [classifyType, CType.isPointer]
  by_cases hform : t.form = .pointer
  · obtain ⟨e, u, helem, hdesugar⟩ := h hform
    exact ⟨_, by simp only [hform, helem, hdesugar]; rfl⟩
  · exact ⟨.rejected .notPointer, by simp [hform]⟩

/-! ## Other fields of the class -/

theorem sameStart_iff {a b : Location} :
    sameStart a b = true ↔ a.file = b.file ∧ a.offset = b.offset ∧ a.isMacro = b.isMacro := by
  simp [sameStart, and_assoc]

/-- Among children without gaps, each field with the start of its type, it is found whether one of
the fields starts its type at a place. -/
theorem isUniqueStart_of_complete (start : Location) {children : List (Option Node)}
    (hgap : none ∉ children)
    (hstarts : ∀ n, some n ∈ children → n.role = .field → n.typeLoc ≠ none) :
    ∃ unique, isUniqueStart start children = .ok unique ∧
      (unique = true ↔ ∀ n l, some n ∈ children → n.role = .field → n.typeLoc = some l →
        ¬ sameStart l start = true) := by
  induction children with
  | nil => exact ⟨true, rfl, by simp⟩
  | cons child rest ih =>
      rw [List.mem_cons, not_or] at hgap
      obtain ⟨unique, hrest, hiff⟩ := ih hgap.2 fun n hn => hstarts n (List.mem_cons_of_mem _ hn)
      cases child with
      | none => exact absurd rfl hgap.1
      | some n =>
          have hcons : (∀ m l, some m ∈ some n :: rest → m.role = .field → m.typeLoc = some l →
              ¬ sameStart l start = true) ↔
              (n.role = .field → ∀ l, n.typeLoc = some l → ¬ sameStart l start = true) ∧
                unique = true := by
            rw [hiff]
            constructor
            · intro h
              exact ⟨fun hrole l => h n l (by simp) hrole,
                fun m l hm => h m l (List.mem_cons_of_mem _ hm)⟩
            · rintro ⟨hfirst, hlater⟩ m l hm hrole
              rcases List.mem_cons.mp hm with hm | hm
              · cases hm
                exact hfirst hrole l
              · exact hlater m l hm hrole
          rw [isUniqueStart, hcons]
          by_cases hrole : n.role = .field
          · obtain ⟨l, hl⟩ := Option.ne_none_iff_exists'.mp (hstarts n (by simp) hrole)
            by_cases hsame : sameStart l start = true
            · exact ⟨false, by simp [hrole, hl, hsame], by simp [hrole, hl, hsame]⟩
            · exact ⟨unique, by simpa [hrole, hl, hsame] using hrest, by simp [hl, hsame]⟩
          · exact ⟨unique, by simpa [hrole] using hrest, by simp [hrole]⟩

/-- The other children are those at other places than that of the field. -/
theorem mem_siblings_iff {s : Site} {parent : Node} {outer : List Node}
    {children : List (Option Node)} (hancestors : s.ancestors = parent :: outer)
    (h : s.siblings = some children) {c : Option Node} :
    c ∈ children ↔ ∃ j, s.index ≠ some j ∧ parent.inner[j]? = some c := by
  rw [siblings, hancestors] at h
  cases h
  cases s.index with
  | none => simp [List.mem_iff_getElem?]
  | some i => simp [List.mem_eraseIdx_iff_getElem?, eq_comm]

end Site

/-! ## Paths -/

/-- A text contains its infixes. -/
theorem Text.contains_iff_isInfix {part t : Text} : contains part t = true ↔ part <:+: t := by
  induction t with
  | nil => simp [contains]
  | cons b t ih =>
      rw [contains, Bool.or_eq_true, ih, List.isPrefixOf_iff_prefix, List.infix_cons_iff]

/-- A path has a part that is not empty. -/
def ThirdPartyRule.Mentions (path part : Text) : Prop := part ≠ [] ∧ part <:+: path

/-- A path mentions the texts that it contains, other than the empty one. -/
theorem ThirdPartyRule.mentions_iff {path part : Text} :
    mentions path part = true ↔ Mentions path part := by
  rw [mentions, Bool.and_eq_true, Text.contains_iff_isInfix, Mentions]
  simp

/-- Code that is not left alone: no entry for code of others is in its path, and either one for own
code is, or the marker is not. -/
theorem ThirdPartyRule.covers_eq_false_iff {rule : ThirdPartyRule} {path : Text} :
    rule.covers path = false ↔
      (∀ part ∈ rule.always, ¬ Mentions (Text.replaceByte Text.backslash Text.slash path) part) ∧
        ((∃ part ∈ rule.firstParty,
          Mentions (Text.replaceByte Text.backslash Text.slash path) part) ∨
          ¬ Mentions (Text.replaceByte Text.backslash Text.slash path) rule.marker) := by
  simp only [← mentions_iff, covers]
  by_cases halways :
    rule.always.any (mentions (Text.replaceByte Text.backslash Text.slash path)) = true
  · rw [if_pos halways]
    obtain ⟨part, hpart, hmentions⟩ := List.any_eq_true.mp halways
    simp only [Bool.true_eq_false, false_iff]
    exact fun h => h.1 part hpart hmentions
  · rw [if_neg halways]
    simp only [List.any_eq_true, not_exists, not_and] at halways
    rw [and_iff_right halways]
    by_cases hfirst :
      rule.firstParty.any (mentions (Text.replaceByte Text.backslash Text.slash path)) = true
    · rw [if_pos hfirst]
      exact iff_of_true rfl (Or.inl (List.any_eq_true.mp hfirst))
    · rw [if_neg hfirst, ← List.any_eq_true, or_iff_right hfirst, Bool.not_eq_true]

/-! ## Places -/

namespace Site

/-- The innermost linkage block around a field, if there is one, is not for C. -/
def HasOwnLinkage (s : Site) : Prop :=
  ∀ (inside outside : List Node) (l : Node), s.ancestors = inside ++ l :: outside →
    l.kind = "LinkageSpecDecl" → (∀ n ∈ inside, n.kind ≠ "LinkageSpecDecl") → l.language ≠ "C"

theorem role_eq_linkage_iff {n : Node} : n.role = .linkage ↔ n.kind = "LinkageSpecDecl" := by
  rw [Node.role_eq_iff (by decide)]
  simp [Node.roles, Node.fieldKind, Node.specializationKind]

/-- A field is outside of blocks for C if the innermost linkage block around it is for another
language, or there is none. -/
theorem inExternC_eq_false_iff {s : Site} : s.inExternC = false ↔ s.HasOwnLinkage := by
  have hfind : ∀ l : Node, s.ancestors.find? (fun n => n.role = .linkage) = some l ↔
      ∃ inside outside : List Node, s.ancestors = inside ++ l :: outside ∧
        l.kind = "LinkageSpecDecl" ∧
        ∀ n ∈ inside, n.kind ≠ "LinkageSpecDecl" := by
    intro l
    rw [List.find?_eq_some_iff_append]
    simp only [decide_eq_true_eq, Bool.not_eq_true', decide_eq_false_iff_not, role_eq_linkage_iff]
    constructor
    · rintro ⟨hl, inside, outside, happend, hinside⟩
      exact ⟨inside, outside, happend, hl, hinside⟩
    · rintro ⟨inside, outside, happend, hl, hinside⟩
      exact ⟨hl, inside, outside, happend, hinside⟩
  have hall : s.inExternC = false ↔
      ∀ l, s.ancestors.find? (fun n => n.role = .linkage) = some l → l.isExternC = false := by
    rw [inExternC]
    cases s.ancestors.find? (fun n => n.role = .linkage) <;> simp
  rw [hall]
  constructor
  · intro h inside outside l happend hl hinside
    have hl' := h l ((hfind l).mpr ⟨inside, outside, happend, hl, hinside⟩)
    simpa [Node.isExternC, role_eq_linkage_iff.mpr hl] using hl'
  · intro h l hl
    obtain ⟨inside, outside, happend, hkind, hinside⟩ := (hfind l).mp hl
    simp [Node.isExternC, h inside outside l happend hkind hinside]

/-- A specialization is not implicit if it is explicit, or is none. -/
theorem isImplicitSpecialization_iff {n : Node} :
    ¬ n.isImplicitSpecialization = true ↔
      (n.kind = "ClassTemplateSpecializationDecl" → n.specialization = "explicit") := by
  rw [Node.isImplicitSpecialization, Bool.and_eq_true, decide_eq_true_iff, bne_iff_ne,
    not_and, not_ne_iff]
  rfl

/-- A field is not implicit if neither it nor a class around it is made by the compiler. -/
theorem isImplicit_eq_false_iff {s : Site} {parent : Node} {outer : List Node}
    (hancestors : s.ancestors = parent :: outer) :
    s.isImplicit = false ↔ s.field.isImplicit = false ∧ parent.isLambda = false ∧
      ∀ n ∈ s.ancestors, n.kind = "ClassTemplateSpecializationDecl" →
        n.specialization = "explicit" := by
  have hhead : s.ancestors.head? = some parent := by rw [hancestors]; rfl
  rw [isImplicit, hhead, Bool.or_eq_false_iff, Bool.or_eq_false_iff, and_assoc, List.any_eq_false]
  simp only [isImplicitSpecialization_iff, Option.any_some]

/-- No other field of the class starts its type at the same place. -/
def IsAlone (s : Site) (parent : Node) (typeStart : Location) : Prop :=
  ∀ (j : Nat) (n : Node) (l : Location), s.index ≠ some j → parent.inner[j]? = some (some n) →
    n.kind = "FieldDecl" → n.typeLoc = some l →
    ¬ (l.file = typeStart.file ∧ l.offset = typeStart.offset ∧ l.isMacro = typeStart.isMacro)

/-- All that is asked of a field of a class before it is accepted, where its type, the start of its
declaration and the start of its type are known. -/
structure Qualifies (settings : Settings) (exclusions : Exclusions) (s : Site) (parent : Node)
    (type : CType) (start typeStart : Location) : Prop where
  /-- The type itself is a pointer, and not an alias of one. -/
  pointer : type.kind = "pointer"
  pointee : ∃ e u, type.elem = some e ∧ e.StandsFor u ∧ u.Wrappable
  alone : s.IsAlone parent typeStart
  not_expanded : start.isMacro = false
  not_always : ∀ part ∈ settings.thirdParty.always,
    ¬ ThirdPartyRule.Mentions (Text.replaceByte Text.backslash Text.slash start.file) part
  own : (∃ part ∈ settings.thirdParty.firstParty,
      ThirdPartyRule.Mentions (Text.replaceByte Text.backslash Text.slash start.file) part) ∨
    ¬ ThirdPartyRule.Mentions (Text.replaceByte Text.backslash Text.slash start.file)
      settings.thirdParty.marker
  linkage : s.HasOwnLinkage
  not_implicit : s.field.isImplicit = false
  not_lambda : parent.isLambda = false
  not_instance : ∀ n ∈ s.ancestors, n.kind = "ClassTemplateSpecializationDecl" →
    n.specialization = "explicit"
  /-- The qualified name is not listed, or the plain one if there is no qualified name. -/
  not_excluded : (if s.field.qualName = [] then s.field.name else s.field.qualName)
    ∉ exclusions.names

section

variable {settings : Settings} {exclusions : Exclusions} {s : Site} {p : Places}
variable {parent : Node} {outer : List Node}

/-- The place of a field always has a verdict. -/
theorem exists_inScope (hplaces : places s.field = .ok p) :
    ∃ v, s.inScope settings exclusions = .ok v := by
  unfold inScope
  rw [hplaces]
  exact ⟨_, rfl⟩

/-- Outside of macros the file in which a field begins is the one that is asked about. -/
theorem file_of_not_expanded {l : Location} (h : l.isMacro = false) :
    (if l.isPlain then l.file else []) = l.file := by
  cases hfile : l.file <;> simp [Location.isPlain, h, hfile]

/-- A field in scope: it stands in no macro, third-party code, linkage block or implicit class, and
is not on the exclusion list. -/
theorem inScope_eq_accepted_iff (hplaces : places s.field = .ok p)
    (hancestors : s.ancestors = parent :: outer) :
    s.inScope settings exclusions = .ok .accepted ↔
      p.begin.isMacro = false ∧ settings.thirdParty.covers p.begin.file = false ∧ s.HasOwnLinkage ∧
        (s.field.isImplicit = false ∧ parent.isLambda = false ∧
          ∀ n ∈ s.ancestors, n.kind = "ClassTemplateSpecializationDecl" →
            n.specialization = "explicit") ∧
        (if s.field.qualName = [] then s.field.name else s.field.qualName) ∉ exclusions.names := by
  have hname : exclusions.contains s.field.knownName = false ↔
      (if s.field.qualName = [] then s.field.name else s.field.qualName) ∉ exclusions.names := by
    simp [Exclusions.contains, Node.knownName]
  rw [← isImplicit_eq_false_iff hancestors, ← inExternC_eq_false_iff, ← hname]
  unfold inScope
  rw [hplaces]
  simp only [bind, Except.bind, pure, Except.pure, Except.ok.injEq]
  by_cases hexpanded : p.begin.isMacro = false
  · rw [file_of_not_expanded hexpanded]
    by_cases hcovers : settings.thirdParty.covers p.begin.file = true
    · simp [hcovers]
    by_cases hextern : s.inExternC = true
    · simp [hcovers, hexpanded, hextern]
    by_cases himplicit : s.isImplicit = true
    · simp [hcovers, hexpanded, hextern, himplicit]
    by_cases hexcluded : exclusions.contains s.field.knownName = true
    · simp [hcovers, hexpanded, hextern, himplicit, hexcluded]
    · simp [hcovers, hexpanded, hextern, himplicit, hexcluded]
  · rw [Bool.not_eq_false] at hexpanded
    simp only [hexpanded, if_true, Bool.true_eq_false, false_and, ite_eq_iff, reduceCtorEq,
      and_false, or_self]

/-- In a complete class a field with a type that has a verdict has a verdict, which depends on its
type and on the other fields. -/
theorem eligible_of_complete (hplaces : places s.field = .ok p)
    (hancestors : s.ancestors = parent :: outer) (hgap : none ∉ parent.inner)
    (hstarts : ∀ n, some n ∈ parent.inner → n.kind = "FieldDecl" → n.typeLoc ≠ none)
    (htype : ∃ v, classifyType (some p.type) = .ok v) :
    (∃ v, s.eligible = .ok v) ∧
      (s.eligible = .ok .accepted ↔
        classifyType (some p.type) = .ok .accepted ∧ s.IsAlone parent p.typeStart) := by
  obtain ⟨children, hchildren⟩ : ∃ children, s.siblings = some children := by
    rw [siblings, hancestors]
    exact ⟨_, rfl⟩
  have hsub : ∀ c ∈ children, c ∈ parent.inner := by
    intro c hc
    obtain ⟨j, -, hj⟩ := (mem_siblings_iff hancestors hchildren).mp hc
    exact List.mem_of_getElem? hj
  obtain ⟨unique, hunique, hiff⟩ := isUniqueStart_of_complete p.typeStart
    (fun h => hgap (hsub none h)) fun n hn hrole => hstarts n (hsub _ hn)
    (Node.role_eq_field_iff.mp hrole)
  have halone : unique = true ↔ s.IsAlone parent p.typeStart := by
    simp only [hiff, mem_siblings_iff hancestors hchildren, Node.role_eq_field_iff, sameStart_iff]
    constructor
    · intro h j n l hj hn
      exact h n l ⟨j, hj, hn⟩
    · rintro h n l ⟨j, hj, hn⟩
      exact h j n l hj hn
  obtain ⟨v, hv⟩ := htype
  rw [← halone]
  simp only [eligible_eq_ok_iff, hplaces, Except.ok.injEq, exists_eq_left', hv, hchildren,
    Option.some.injEq]
  cases v with
  | rejected r => simp
  | accepted => cases unique <;> simp [hunique]

end

end Site

/-- **Acceptance.** Let a field with a type and the three locations stand in a class without gaps,
each field of which has the start of its type, and let the type that it points to, if it is a
pointer, stand for a type behind its aliases. Then the field has a verdict, and it is accepted if
and only if it qualifies. -/
theorem classify_accepted_iff_qualifies (settings : Settings) (exclusions : Exclusions) (s : Site)
    (parent : Node) (outer : List Node) (type : CType) (start name typeStart : Location)
    (hancestors : s.ancestors = parent :: outer) (hrecord : parent.isRecord = true)
    (hkind : s.field.kind = "FieldDecl") (htype : s.field.type = some type)
    (hstart : s.field.begin = some start) (hname : s.field.loc = some name)
    (htypeStart : s.field.typeLoc = some typeStart) (hgap : none ∉ parent.inner)
    (hstarts : ∀ n, some n ∈ parent.inner → n.kind = "FieldDecl" → n.typeLoc ≠ none)
    (hpointee : type.kind = "pointer" → ∃ e u, type.elem = some e ∧ e.StandsFor u) :
    (∃ v, s.classify settings exclusions = .ok v) ∧
      (s.classify settings exclusions = .ok .accepted ↔
        s.Qualifies settings exclusions parent type start typeStart) := by
  have hplaces : Site.places s.field = .ok ⟨type, start, name, typeStart⟩ :=
    Site.places_eq_ok_iff.mpr ⟨Node.role_eq_field_iff.mpr hkind, htype, hstart, hname, htypeStart⟩
  have hhead : s.ancestors.head?.any Node.isRecord = true := by
    rw [hancestors]
    exact hrecord
  obtain ⟨⟨v, hv⟩, haccepted⟩ :=
    Site.eligible_of_complete hplaces hancestors hgap hstarts (Site.exists_classifyType hpointee)
  simp only [Site.classify_eq_ok_iff, hhead, true_and]
  constructor
  · cases v with
    | rejected r => exact ⟨_, Or.inl ⟨r, hv, rfl⟩⟩
    | accepted =>
        obtain ⟨w, hw⟩ := Site.exists_inScope hplaces
        exact ⟨w, Or.inr ⟨hv, hw⟩⟩
  · rw [haccepted, Site.inScope_eq_accepted_iff hplaces hancestors,
      Site.classifyType_eq_accepted_iff, ThirdPartyRule.covers_eq_false_iff]
    constructor
    · rintro (⟨r, -, hr⟩ | ⟨⟨⟨hpointer, hpointee⟩, halone⟩, hexpanded, ⟨halways, hown⟩, hlinkage,
        ⟨himplicit, hlambda, hinstance⟩, hexcluded⟩)
      · cases hr
      · exact ⟨hpointer, hpointee, halone, hexpanded, halways, hown, hlinkage, himplicit,
          hlambda, hinstance, hexcluded⟩
    · rintro ⟨hpointer, hpointee, halone, hexpanded, halways, hown, hlinkage, himplicit,
        hlambda, hinstance, hexcluded⟩
      exact Or.inr ⟨⟨⟨hpointer, hpointee⟩, halone⟩, hexpanded, ⟨halways, hown⟩, hlinkage,
        ⟨himplicit, hlambda, hinstance⟩, hexcluded⟩

/-- A field that points to a class behind two aliases, next to a field with a type of its own. The
class is in a block with linkage of its own inside one for C, and in code that counts as own code
though the path has the marker. -/
def aliasedSite : Site :=
  let record : CType := { kind := "record", name := "ns::Pointee", tag := some {} }
  let aliased : CType :=
    { kind := "elaborated", elem := some { kind := "typedef", elem := some record } }
  let place (offset : Int64) : Location := { file := "third_party\\blink\\s.h", offset }
  let field : Node :=
    { kind := "FieldDecl", name := "ptr", type := some { kind := "pointer", elem := some aliased },
      begin := some (place 10), loc := some (place 20), typeLoc := some (place 10) }
  let other : Node := { kind := "FieldDecl", name := "n", typeLoc := some (place 30) }
  let parent : Node := { kind := "CXXRecordDecl", inner := [some field, some other] }
  { field, index := some 0,
    ancestors := [parent, { kind := "LinkageSpecDecl", language := "C++" },
      { kind := "LinkageSpecDecl", language := "C" }] }

/-- A pointer behind an alias is accepted although a name that ends like that of its field is
excluded. -/
theorem classify_accepted_iff_qualifies_aliased :
    ∃ parent type start typeStart, aliasedSite.classify {} { names := ["S::ptr"] } = .ok .accepted ∧
      aliasedSite.Qualifies {} { names := ["S::ptr"] } parent type start typeStart ∧
      ¬ aliasedSite.Qualifies {} { names := ["ptr"] } parent type start typeStart := by
  have hpointee : ∃ e u, (aliasedSite.field.type.get rfl).elem = some e ∧ e.StandsFor u :=
    ⟨_, _, rfl, .behind (Or.inr rfl) rfl (.behind (Or.inl rfl) rfl (.itself (by decide)))⟩
  have hiff :=
    fun exclusions => (classify_accepted_iff_qualifies {} exclusions aliasedSite _ _ _ _ _ _ rfl
    (by decide) (by decide) rfl rfl rfl rfl (by simp) (by simp) fun _ => hpointee).2
  refine ⟨_, _, _, _, rfl, (hiff _).mp rfl, fun h => ?_⟩
  have hexcluded := (hiff _).mpr h
  cases hexcluded

end PointerMigration
