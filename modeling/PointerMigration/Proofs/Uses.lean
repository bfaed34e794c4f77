/-
# Uses that need a raw pointer

Which member expressions are uses that the accessor is for, said in terms of the kinds of nodes: the
places of expressions that need a raw pointer, and the implicit conversions between such a place and
the member expression. What is found at a node are exactly these members.
-/
import PointerMigration.Migration.Use
import PointerMigration.Proofs.Tree

namespace PointerMigration

/-! ## Roles -/

/-- The role of a kind is the one in the table of roles, which has each kind once. -/
theorem Node.role_eq_iff {n : Node} {r : Role} (h : r ≠ .other) :
    n.role = r ↔ (n.kind, r) ∈ roles :=
  getD_find?_eq_iff (by decide) h

theorem Node.role_of_kind {n : Node} {kind : Text} {r : Role} (hkind : n.kind = kind)
    (hmem : (kind, r) ∈ roles) : n.role = r := by
  have hnot : ∀ entry ∈ roles, entry.2 ≠ .other := by decide
  exact (role_eq_iff (hnot _ hmem)).mpr (hkind ▸ hmem)

theorem Node.role_eq_field_iff {n : Node} : n.role = .field ↔ n.kind = "FieldDecl" := by
  rw [role_eq_iff (by decide)]
  simp [roles, fieldKind]

theorem Node.role_eq_member_iff {n : Node} : n.role = .member ↔ n.kind = "MemberExpr" := by
  rw [role_eq_iff (by decide)]
  simp [roles]

theorem Node.role_eq_implicitCast_iff {n : Node} :
    n.role = .implicitCast ↔ n.kind = "ImplicitCastExpr" := by
  rw [role_eq_iff (by decide)]
  simp [roles]

namespace Use

/-! ## Implicit conversions -/

/-- A member expression behind at most `casts` implicit conversions, each of a single expression. -/
inductive BehindCasts : Nat → Node → Node → Prop where
  | member {casts : Nat} {m : Node} (hkind : m.kind = "MemberExpr") : BehindCasts casts m m
  | cast {casts : Nat} {c e m : Node} (hkind : c.kind = "ImplicitCastExpr")
      (hinner : c.inner = [some e]) (h : BehindCasts casts e m) : BehindCasts (casts + 1) c m

/-- A member is found behind the conversions exactly if it is there. -/
theorem memberBehind_eq_some_iff {casts : Nat} {e m : Node} :
    memberBehind casts (some e) = some m ↔ BehindCasts casts e m := by
  constructor
  · intro h
    -- Every conversion uses up one of those that are allowed.
    induction casts generalizing e with
    | zero =>
        rw [memberBehind.eq_def] at h
        simp only at h
        split at h
        · next hrole =>
            cases h
            exact .member (Node.role_eq_member_iff.mp hrole)
        · cases h
        · cases h
    | succ casts ih =>
        rw [memberBehind.eq_def] at h
        simp only at h
        split at h
        · next hrole =>
            cases h
            exact .member (Node.role_eq_member_iff.mp hrole)
        · next hrole =>
            split at h
            · next inner hcasts hinner =>
                cases hcasts
                cases inner with
                | none => simp [memberBehind] at h
                | some inner =>
                    exact .cast (Node.role_eq_implicitCast_iff.mp hrole) hinner (ih h)
            · cases h
        · cases h
  · intro h
    induction h with
    | member hkind =>
        rw [memberBehind.eq_def]
        simp only [Node.role_eq_member_iff.mpr hkind]
    | cast hkind hinner _ ih =>
        rw [memberBehind.eq_def]
        simp only [Node.role_eq_implicitCast_iff.mpr hkind, hinner]
        exact ih

/-! ## Places of expressions -/

/-- A call to a function with an ellipsis: the call is marked as one, or it refers to a node that
is. -/
def IsVariadic (u : CompilationUnit) (call : Node) : Prop :=
  call.isVariadic = true ∨ call.ref ≠ [] ∧ ∃ f ∈ u.nodes, f.id = call.ref ∧ f.isVariadic = true

/-- An expression in a node of a unit where a raw pointer is needed. -/
inductive NeedsPointer (u : CompilationUnit) : Node → Node → Prop where
  | argument {n e : Node} (hkind : n.kind = "CallExpr" ∨ n.kind = "CXXMemberCallExpr")
      (hvariadic : IsVariadic u n) (he : some e ∈ n.inner.tail) : NeedsPointer u n e
  | castOperand {n e : Node}
      (hkind : n.kind = "CXXConstCastExpr" ∨ n.kind = "CXXReinterpretCastExpr")
      (he : n.inner.head? = some (some e)) : NeedsPointer u n e
  | branch {n e : Node} {condition yes no : Option Node} (hkind : n.kind = "ConditionalOperator")
      (hinner : n.inner = [condition, yes, no]) (he : yes = some e ∨ no = some e) :
      NeedsPointer u n e
  | initializer {n e : Node} {type pointee : CType} (hkind : n.kind = "VarDecl")
      (htype : n.type = some type) (hpointee : type.pointee? = some pointee)
      (hauto : pointee.form = .auto) (he : n.inner.getLast? = some (some e)) : NeedsPointer u n e
  | bracedInitializer {n list e : Node} {type pointee : CType} (hkind : n.kind = "VarDecl")
      (htype : n.type = some type) (hpointee : type.pointee? = some pointee)
      (hauto : pointee.form = .auto) (hlist : n.inner.getLast? = some (some list))
      (hlistKind : list.kind = "InitListExpr") (he : list.inner.head? = some (some e)) :
      NeedsPointer u n e

/-- An expression that needs a raw pointer is not in a field. -/
theorem NeedsPointer.kind_ne {u : CompilationUnit} {n e : Node} (h : NeedsPointer u n e) :
    n.kind ≠ "FieldDecl" := by
  intro hfield
  cases h with
  | argument hkind _ _ => rcases hkind with hkind | hkind <;> rw [hfield] at hkind <;> cases hkind
  | castOperand hkind _ => rcases hkind with hkind | hkind <;> rw [hfield] at hkind <;> cases hkind
  | branch hkind _ _ =>
      rw [hfield] at hkind
      cases hkind
  | initializer hkind _ _ _ _ =>
      rw [hfield] at hkind
      cases hkind
  | bracedInitializer hkind _ _ _ _ _ _ =>
      rw [hfield] at hkind
      cases hkind

/-- A call is found to be variadic if and only if the function that it calls is. -/
theorem isVariadicCall_iff {u : CompilationUnit} (hu : u.checked = .ok u) {call : Node} :
    isVariadicCall u call = true ↔ IsVariadic u call := by
  rw [isVariadicCall, Bool.or_eq_true, Option.any_eq_true, IsVariadic]
  refine or_congr_right ?_
  constructor
  · rintro ⟨f, hf, hvariadic⟩
    obtain ⟨hne, hmem, hid⟩ := (CompilationUnit.lookup_eq_some_iff hu).mp hf
    exact ⟨hne, f, hmem, hid, hvariadic⟩
  · rintro ⟨hne, f, hmem, hid, hvariadic⟩
    exact ⟨f, (CompilationUnit.lookup_eq_some_iff hu).mpr ⟨hne, hmem, hid⟩, hvariadic⟩

/-- A deduced pointer points to a type that is deduced. -/
theorem isDeducedPointer_iff {type : Option CType} :
    isDeducedPointer type = true ↔
      ∃ t pointee, type = some t ∧ t.pointee? = some pointee ∧ pointee.form = .auto := by
  rw [isDeducedPointer, Option.any_eq_true]
  constructor
  · rintro ⟨pointee, hpointee, hauto⟩
    obtain ⟨t, rfl, ht⟩ := Option.bind_eq_some_iff.mp hpointee
    exact ⟨t, pointee, rfl, ht, of_decide_eq_true hauto⟩
  · rintro ⟨t, pointee, rfl, ht, hauto⟩
    exact ⟨pointee, ht, decide_eq_true hauto⟩

/-- What can be the initializer of a variable. -/
theorem initializer_eq_ok {v e : Node} (h : initializer v = .ok (some e)) :
    v.inner.getLast? = some (some e) ∨ ∃ list, v.inner.getLast? = some (some list) ∧
      list.kind = "InitListExpr" ∧ list.inner.head? = some (some e) := by
  unfold initializer at h
  split at h
  · cases h
  · cases h
  · next last hlast =>
      have hresult := Except.ok.inj h
      split at hresult
      · next hrole =>
          have hkind := (Node.role_eq_iff (by decide)).mp hrole
          exact Or.inr ⟨last, hlast, by simpa [Node.roles] using hkind,
            Option.join_eq_some_iff.mp hresult⟩
      · exact Or.inl (hresult ▸ hlast)

/-- Only expressions that need a raw pointer are operands. -/
theorem needsPointer_of_mem_operands {u : CompilationUnit} (hu : u.checked = .ok u) {n e : Node}
    {es : List (Option Node)} (h : operands u n = .ok es) (he : some e ∈ es) :
    NeedsPointer u n e := by
  unfold operands at h
  split at h
  · next hrole =>
      have hkind := (Node.role_eq_iff (by decide)).mp hrole
      rw [← Except.ok.inj h] at he
      split at he
      · next hvariadic =>
          exact .argument (by simpa [Node.roles] using hkind)
            ((isVariadicCall_iff hu).mp hvariadic) he
      · cases he
  · next hrole =>
      have hkind := (Node.role_eq_iff (by decide)).mp hrole
      rw [← Except.ok.inj h] at he
      refine .castOperand (by simpa [Node.roles] using hkind) ?_
      cases hinner : n.inner with
      | nil => simp [hinner] at he
      | cons first rest => simpa [hinner, eq_comm] using he
  · next hrole =>
      have hkind := (Node.role_eq_iff (by decide)).mp hrole
      unfold branches at h
      split at h
      · next condition yes no hinner =>
          rw [← Except.ok.inj h] at he
          exact .branch (by simpa [Node.roles] using hkind) hinner (by simpa [eq_comm] using he)
      · cases h
  · next hrole =>
      have hkind := (Node.role_eq_iff (by decide)).mp hrole
      split at h
      · next hdeduced =>
          obtain ⟨t, pointee, htype, hpointee, hauto⟩ := isDeducedPointer_iff.mp hdeduced
          cases hinit : initializer n with
          | error failure =>
              rw [hinit] at h
              cases h
          | ok init =>
              rw [hinit] at h
              rw [← Except.ok.inj h, List.mem_singleton] at he
              rw [← he] at hinit
              rcases initializer_eq_ok hinit with hlast | ⟨list, hlist, hlistKind, hfirst⟩
              · exact .initializer (by simpa [Node.roles] using hkind) htype hpointee hauto hlast
              · exact .bracedInitializer (by simpa [Node.roles] using hkind) htype
                  hpointee hauto hlist
                  hlistKind hfirst
      · rw [← Except.ok.inj h] at he
        cases he
  · rw [← Except.ok.inj h] at he
    cases he

/-- A member stands behind no other expressions than members and implicit conversions. -/
theorem BehindCasts.kind_eq {casts : Nat} {e m : Node} (h : BehindCasts casts e m) :
    e.kind = "MemberExpr" ∨ e.kind = "ImplicitCastExpr" := by
  cases h with
  | member hkind => exact Or.inl hkind
  | cast hkind _ _ => exact Or.inr hkind

/-- What is a member behind conversions is no list of initializers. -/
theorem BehindCasts.role_ne_initList {casts : Nat} {e m : Node} (h : BehindCasts casts e m) :
    e.role ≠ .initList := by
  rcases h.kind_eq with hkind | hkind
  · rw [Node.role_of_kind (r := .member) hkind (by decide)]
    decide
  · rw [Node.role_of_kind (r := .implicitCast) hkind (by decide)]
    decide

/-- The operands of a variable of a deduced pointer type. -/
theorem operands_variable {u : CompilationUnit} {n : Node} {type pointee : CType}
    (hkind : n.kind = "VarDecl") (htype : n.type = some type)
    (hpointee : type.pointee? = some pointee) (hauto : pointee.form = .auto) :
    operands u n = (initializer n).map fun e => [e] := by
  rw [operands, Node.role_of_kind (r := .variable) hkind (by decide)]
  exact if_pos (isDeducedPointer_iff.mpr ⟨type, pointee, htype, hpointee, hauto⟩)

/-- Every expression that needs a raw pointer is an operand, if a member stands behind it. -/
theorem mem_operands_of_needsPointer {u : CompilationUnit} (hu : u.checked = .ok u) {n e m : Node}
    {es : List (Option Node)} {casts : Nat} (h : operands u n = .ok es) (hn : NeedsPointer u n e)
    (hm : BehindCasts casts e m) : some e ∈ es := by
  cases hn with
  | argument hkind hvariadic he =>
      have hrole : n.role = .call :=
        hkind.elim (Node.role_of_kind · (by decide)) (Node.role_of_kind · (by decide))
      rw [operands, hrole] at h
      rw [← Except.ok.inj h, if_pos ((isVariadicCall_iff hu).mpr hvariadic)]
      exact he
  | castOperand hkind he =>
      have hrole : n.role = .pointerCast :=
        hkind.elim (Node.role_of_kind · (by decide)) (Node.role_of_kind · (by decide))
      rw [operands, hrole] at h
      rw [← Except.ok.inj h]
      cases hinner : n.inner with
      | nil => simp [hinner] at he
      | cons first rest => simpa [hinner, eq_comm] using he
  | branch hkind hinner he =>
      rw [operands, Node.role_of_kind (r := .conditional) hkind (by decide)] at h
      simp only [branches, hinner] at h
      rw [← Except.ok.inj h]
      simpa [eq_comm] using he
  | initializer hkind htype hpointee hauto he =>
      -- A list in braces is never such an expression, since no member stands behind it.
      rw [operands_variable hkind htype hpointee hauto, initializer, he] at h
      simp only [hm.role_ne_initList, if_false] at h
      rw [← Except.ok.inj h]
      exact List.mem_singleton_self _
  | bracedInitializer hkind htype hpointee hauto hlist hlistKind he =>
      have hrole := Node.role_of_kind (r := .initList) hlistKind (by decide)
      rw [operands_variable hkind htype hpointee hauto, initializer, hlist] at h
      simp only [hrole, if_true, he] at h
      rw [← Except.ok.inj h]
      exact List.mem_singleton_self _

/-- **Uses.** The members that are found at a node are those behind at most two implicit conversions
of an expression that needs a raw pointer. -/
theorem mem_members_iff {u : CompilationUnit} (hu : u.checked = .ok u) {n m : Node}
    {ms : List Node} (h : members u n = .ok ms) :
    m ∈ ms ↔ ∃ e, NeedsPointer u n e ∧ BehindCasts 2 e m := by
  rw [members] at h
  cases hoperands : operands u n with
  | error failure =>
      rw [hoperands] at h
      cases h
  | ok es =>
      rw [hoperands] at h
      rw [← Except.ok.inj h, List.mem_filterMap]
      constructor
      · rintro ⟨e, he, hm⟩
        cases e with
        | none => simp [member?, memberBehind] at hm
        | some e =>
            exact ⟨e, needsPointer_of_mem_operands hu hoperands he, memberBehind_eq_some_iff.mp hm⟩
      · rintro ⟨e, hn, hm⟩
        exact ⟨some e, mem_operands_of_needsPointer hu hoperands hn hm,
          memberBehind_eq_some_iff.mpr hm⟩

/-! ## What is done about a use -/

/-- An accessor behind the name of a field at a place. -/
def accessorAt (settings : Settings) (place : Location) (field : Node) : Replacement :=
  { file := place.file, offset := place.offset + Int64.ofNat field.name.length, length := 0,
    text := settings.accessor, needsHeader := false }

/-- What is done about a use if no step fails. -/
theorem outcome_eq_insertion_iff {settings : Settings} {accepted : Text → Option Node} {m : Node}
    {r : Replacement} :
    outcome settings accepted m = .ok (.insertion r) ↔
      m.ref ≠ [] ∧ ∃ field place, accepted m.ref = some field ∧ m.loc = some place ∧
        place.isPlain = true ∧ r = accessorAt settings place field := by
  unfold outcome
  by_cases href : m.ref = []
  · simp [href, Checked.breach]
  rw [if_neg (by simpa using href)]
  cases hfield : accepted m.ref with
  | none => simp
  | some field =>
      cases hloc : m.loc with
      | none => simp [Checked.breach]
      | some place =>
          by_cases hplain : place.isPlain = true
          · simp only [hplain, Bool.not_true, Bool.false_eq_true, if_false]
            constructor
            · rintro ⟨⟩
              exact ⟨href, field, place, rfl, rfl, hplain, rfl⟩
            · rintro ⟨-, _, _, ⟨⟩, ⟨⟩, -, rfl⟩
              rfl
          · simp [hplain]

/-- A use that has an outcome refers to a declaration. -/
theorem ref_ne_nil_of_outcome {settings : Settings} {accepted : Text → Option Node} {m : Node}
    {o : Outcome} (h : outcome settings accepted m = .ok o) : m.ref ≠ [] := by
  intro href
  simp [outcome, href, Checked.breach] at h

end Use

end PointerMigration
