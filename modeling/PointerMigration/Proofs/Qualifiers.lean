/-
# Qualifiers in the new declaration

The qualifiers of a pointer stand behind its mark, those of a named type in front of the name, and
those of the field's own pointer in front of the wrapper. Nothing is lost on the way: what is
written can be taken apart again, at the marks and behind the words.
-/
import PointerMigration.Migration.Use
import Mathlib.Data.List.Basic

namespace PointerMigration

/-! ## Layers -/

namespace CType

/-- The qualifiers of a type: whether it is constant and whether it is volatile. -/
def flags (t : CType) : Bool × Bool := (t.isConst, t.isVolatile)

/-- The name of a type as it is spelled. -/
def printedName (t : CType) : Text := if t.form = .builtin then t.name else unscoped t.name

/-- A type with a name that cannot be taken for qualifiers or pointer marks. -/
structure IsNamed (t : CType) : Prop where
  form : t.form ∈ [.builtin, .record, .enumeration, .typedef, .elaborated]
  star_notMem : 42 ∉ t.printedName
  not_const : ¬ Text.ofString "const " <+: t.printedName
  not_volatile : ¬ Text.ofString "volatile " <+: t.printedName

/-- A type consists of pointers, the outermost first, over a type with a name. -/
inductive Layers : CType → List CType → CType → Prop where
  | base {b : CType} (h : b.IsNamed) : Layers b [] b
  | pointer {p e b : CType} {ps : List CType} (hform : p.form = .pointer) (helem : p.elem = some e)
      (h : Layers e ps b) : Layers p (p :: ps) b

/-- Below the pointers stands a type with a name. -/
theorem Layers.isNamed {t b : CType} {ps : List CType} (h : t.Layers ps b) : b.IsNamed := by
  induction h with
  | base h => exact h
  | pointer _ _ _ ih => exact ih

/-! ## Spelling -/

/-- A pointer is spelled behind what it points to. -/
theorem spell_pointer {p e : CType} (hform : p.form = .pointer) (helem : p.elem = some e) :
    p.spell = e.spell.map fun inner => inner ++ "*" ++ p.trailing := by
  obtain ⟨kind, name, isConst, isVolatile, elem, tag⟩ := p
  cases helem
  rw [spell, hform]

/-- A type with a name is spelled as its qualifiers and its name. -/
theorem IsNamed.spell {b : CType} (h : b.IsNamed) :
    b.spell = some (b.leading ++ b.printedName) := by
  have hform := h.form
  simp only [List.mem_cons, List.not_mem_nil, or_false] at hform
  rw [spell.eq_def, printedName]
  obtain ⟨kind, name, isConst, isVolatile, elem, tag⟩ := b
  rcases hform with hform | hform | hform | hform | hform <;> simp [hform]

/-- The parts of a spelling between the pointer marks. -/
def parts (ps : List CType) (b : CType) : List Text :=
  (b.leading ++ b.printedName) :: (ps.map trailing).reverse

/-- A part that comes last is joined by one more mark. -/
theorem join_concat {sep : Text} {xs : List Text} (hxs : xs ≠ []) (y : Text) :
    Text.join sep (xs ++ [y]) = Text.join sep xs ++ sep ++ y := by
  unfold Text.join
  induction xs with
  | nil => exact absurd rfl hxs
  | cons x xs ih =>
      cases xs with
      | nil => simp [List.intercalate_cons_cons]
      | cons x' xs =>
          rw [List.cons_append, List.intercalate_cons_of_ne_nil (by simp), ih (by simp),
            List.intercalate_cons_cons]
          simp

/-- The spelling of a type has a part for each layer, with stars between them. -/
theorem Layers.spell {t b : CType} {ps : List CType} (h : t.Layers ps b) :
    t.spell = some (Text.join "*" (parts ps b)) := by
  induction h with
  | base h => simpa [parts, Text.join] using h.spell
  | pointer hform helem _ ih =>
      rw [spell_pointer hform helem, ih, Option.map_some, ← join_concat (by simp [parts])]
      simp [parts]

theorem star_notMem_leading (t : CType) : 42 ∉ t.leading := by
  unfold leading qualifiers
  cases t.isConst <;> cases t.isVolatile <;> decide

theorem star_notMem_trailing (t : CType) : 42 ∉ t.trailing := by
  unfold trailing qualifiers
  cases t.isConst <;> cases t.isVolatile <;> decide

/-! ## Taking a spelling apart -/

/-- What stands behind a star says which qualifiers the pointer has. -/
theorem trailing_eq_iff {t t' : CType} : t.trailing = t'.trailing ↔ t.flags = t'.flags := by
  unfold trailing qualifiers flags
  cases t.isConst <;> cases t.isVolatile <;> cases t'.isConst <;> cases t'.isVolatile <;> decide

theorem map_trailing_eq_iff {ps ps' : List CType} :
    ps.map trailing = ps'.map trailing ↔ ps.map flags = ps'.map flags := by
  induction ps generalizing ps' with
  | nil => simp
  | cons p ps ih =>
      cases ps' with
      | nil => simp
      | cons p' ps' => simp [trailing_eq_iff, ih]

/-- A word that is written in front or not can be told from what follows, if that does not begin
with it. -/
theorem word_append_inj {word x x' : Text} {c c' : Bool} (hx : ¬ word <+: x) (hx' : ¬ word <+: x') :
    (if c then word else []) ++ x = (if c' then word else []) ++ x' ↔ c = c' ∧ x = x' := by
  cases c with
  | false =>
      cases c' with
      | false => simp
      | true =>
          refine iff_of_false ?_ (by simp)
          rintro rfl
          exact hx (List.prefix_append _ _)
  | true =>
      cases c' with
      | false =>
          refine iff_of_false ?_ (by simp)
          rintro rfl
          exact hx' (List.prefix_append _ _)
      | true => simp

theorem leading_eq (t : CType) :
    t.leading = (if t.isConst then Text.ofString "const " else []) ++
      if t.isVolatile then Text.ofString "volatile " else [] := by
  unfold leading qualifiers
  cases t.isConst <;> cases t.isVolatile <;> rfl

/-- The qualifiers of a type with a name can be told from the name. -/
theorem IsNamed.leading_append_eq_iff {b b' : CType} (h : b.IsNamed) (h' : b'.IsNamed) :
    b.leading ++ b.printedName = b'.leading ++ b'.printedName ↔
      b.flags = b'.flags ∧ b.printedName = b'.printedName := by
  have hconst : ∀ {b : CType}, b.IsNamed →
      ¬ Text.ofString "const " <+: (if b.isVolatile then Text.ofString "volatile " else []) ++
        b.printedName := by
    intro b hb
    cases b.isVolatile with
    | false => exact hb.not_const
    | true =>
        rintro ⟨rest, hrest⟩
        exact absurd (List.head_eq_of_cons_eq hrest) (by decide)
  rw [leading_eq, leading_eq, List.append_assoc, List.append_assoc,
    word_append_inj (hconst h) (hconst h'), word_append_inj h.not_volatile h'.not_volatile, flags,
    flags, Prod.mk.injEq, and_assoc]

/-- Two spellings are the same only if the qualifiers of all layers and the printed names are. -/
theorem join_parts_eq_iff {ps ps' : List CType} {b b' : CType} (h : b.IsNamed) (h' : b'.IsNamed) :
    Text.join "*" (parts ps b) = Text.join "*" (parts ps' b') ↔
      ps.map flags = ps'.map flags ∧ b.flags = b'.flags ∧ b.printedName = b'.printedName := by
  -- Divided at the marks the spelling gives back its parts.
  have hsplit : ∀ (ps : List CType) {b : CType}, b.IsNamed →
      (Text.join "*" (parts ps b)).splitOn 42 = parts ps b := by
    intro ps b hb
    refine List.splitOn_intercalate 42 ?_ (by simp [parts])
    simp [parts, star_notMem_leading, star_notMem_trailing, hb.star_notMem]
  have hparts : Text.join "*" (parts ps b) = Text.join "*" (parts ps' b') ↔
      parts ps b = parts ps' b' := by
    constructor
    · intro hjoin
      rw [← hsplit ps h, hjoin, hsplit ps' h']
    · exact congrArg _
  rw [hparts, parts, parts, List.cons.injEq, h.leading_append_eq_iff h', List.reverse_inj,
    map_trailing_eq_iff, and_comm]

end CType

/-! ## The wrapper -/

namespace Declaration

/-- What stands in front of the wrapper. -/
def front (field : Node) (p : CType) : Text :=
  (if field.isMutable then Text.ofString "mutable " else []) ++ p.leading

/-- No template arguments begin before the wrapper. -/
theorem bracket_notMem_front (field : Node) (p : CType) : 60 ∉ front field p := by
  unfold front CType.leading CType.qualifiers
  cases field.isMutable <;> cases p.isConst <;> cases p.isVolatile <;> decide

/-- What stands before the wrapper says whether the field is mutable and which qualifiers it has. -/
theorem front_eq_iff {field field' : Node} {p p' : CType} :
    front field p = front field' p' ↔ field.isMutable = field'.isMutable ∧ p.flags = p'.flags := by
  unfold front CType.leading CType.qualifiers CType.flags
  cases field.isMutable <;> cases field'.isMutable <;> cases p.isConst <;> cases p'.isConst <;>
    cases p.isVolatile <;> cases p'.isVolatile <;> decide

/-- A word that does not have the byte `b` cannot be moved in front of it: else it would have to
come again and again up to the byte. -/
theorem append_cons_ne {q : Text} {b : UInt8} (hq : q ≠ []) (hb : b ∉ q) (w s s' : Text) :
    q ++ (w ++ b :: s) ≠ w ++ b :: s' := by
  induction hlength : w.length using Nat.strongRecOn generalizing w with
  | ind n ih =>
    intro heq
    rcases List.append_eq_append_iff.mp heq with ⟨rest, rfl, hrest⟩ | ⟨rest, rfl, hrest⟩
    · -- The word stands at the front of `w`, and what follows it there is in the same situation.
      have hpos := List.length_pos_iff.mpr hq
      rw [List.length_append] at hlength
      rw [List.append_assoc] at hrest
      exact ih rest.length (by omega) rest rfl hrest
    · cases rest with
      | nil =>
          rw [List.append_nil] at hq hb
          obtain ⟨c, w, rfl⟩ := List.exists_cons_of_ne_nil hq
          cases hrest
          exact hb List.mem_cons_self
      | cons c rest =>
          cases hrest
          exact hb (List.mem_append_right w List.mem_cons_self)

/-- What stands in front of a wrapper and its bracket can be told from them, whatever the wrapper
is. -/
theorem append_wrapper_eq_iff {p p' : Text} {b : UInt8} (hp : b ∉ p) (hp' : b ∉ p')
    (w s s' : Text) :
    p ++ (w ++ b :: s) = p' ++ (w ++ b :: s') ↔ p = p' ∧ s = s' := by
  constructor
  · intro heq
    rcases List.append_eq_append_iff.mp heq with ⟨q, rfl, hq⟩ | ⟨q, rfl, hq⟩
    · by_cases hnil : q = []
      · subst hnil
        simpa using hq
      · exact absurd hq.symm (append_cons_ne hnil (fun h => hp' (List.mem_append_right p h)) w s' s)
    · by_cases hnil : q = []
      · subst hnil
        simpa [eq_comm] using hq
      · exact absurd hq.symm (append_cons_ne hnil (fun h => hp (List.mem_append_right p' h)) w s s')
  · rintro ⟨rfl, rfl⟩
    rfl

/-- The text of a declaration: what stands before the wrapper, the wrapper, and the spelling of the
pointee between brackets. -/
theorem text_of_layers {settings : Settings} {field : Node} {p b : CType} {ps : List CType}
    (htype : field.type = some p) (h : p.Layers (p :: ps) b) :
    text settings field = some (front field p ++
      (settings.wrapper ++ 60 :: (Text.join "*" (CType.parts ps b) ++ Text.ofString "> "))) := by
  cases h with
  | pointer hform helem h =>
      have hpointee : p.pointee? = p.elem := by simp [CType.pointee?, CType.isPointer, hform]
      have hbracket : Text.ofString "<" = [60] := rfl
      rw [text, htype]
      simp only [hpointee, helem, CType.spell?, h.spell, Option.map_some, front, hbracket]
      simp

/-- **Qualifiers.** Two fields that are pointers over types with names have a new
declaration each, and these are the same if and only if the fields agree on all that is
written: whether they are mutable, the qualifiers of each pointer, and the qualifiers and
the name of the type at the bottom. -/
theorem text_eq_iff_agree (settings : Settings) (field field' : Node) {p p' b b' : CType}
    {ps ps' : List CType} (htype : field.type = some p) (h : p.Layers (p :: ps) b)
    (htype' : field'.type = some p') (h' : p'.Layers (p' :: ps') b') :
    (∃ t, text settings field = some t) ∧ (∃ t, text settings field' = some t) ∧
    (text settings field = text settings field' ↔
      field.isMutable = field'.isMutable ∧ (p :: ps).map CType.flags = (p' :: ps').map CType.flags ∧
        b.flags = b'.flags ∧ b.printedName = b'.printedName) := by
  rw [text_of_layers htype h, text_of_layers htype' h']
  refine ⟨⟨_, rfl⟩, ⟨_, rfl⟩, ?_⟩
  rw [Option.some.injEq,
    append_wrapper_eq_iff (bracket_notMem_front field p) (bracket_notMem_front field' p'),
    front_eq_iff, List.append_cancel_right_eq, CType.join_parts_eq_iff h.isNamed h'.isNamed,
    List.map_cons, List.map_cons, List.cons.injEq]
  simp only [and_assoc]

/-- A constant handle, in one of two scopes. -/
def handle (kind name : Text) : CType := { kind, name, isConst := true }

/-- A volatile pointer to a type. -/
def volatileTo (b : CType) : CType := { kind := "pointer", isVolatile := true, elem := some b }

/-- A field that is a pointer to a volatile pointer to a type. -/
def fieldTo (isConst : Bool) (b : CType) : Node :=
  { kind := "FieldDecl", isMutable := true,
    type := some { kind := "pointer", isConst, elem := some (volatileTo b) } }

/-- A scope is not written, so the two handles are alike; what makes the pointer itself constant is,
though the wrapper begins with the same word. -/
theorem text_eq_iff_agree_scopes :
    text { wrapper := "const P" } (fieldTo true (handle "typedef" "a::Handle"))
        = text { wrapper := "const P" } (fieldTo true (handle "record" "b::Handle")) ∧
      text { wrapper := "const P" } (fieldTo true (handle "typedef" "a::Handle"))
        ≠ text { wrapper := "const P" } (fieldTo false (handle "record" "b::Handle")) := by
  have hnamed : (handle "typedef" "a::Handle").IsNamed ∧ (handle "record" "b::Handle").IsNamed :=
    ⟨⟨by decide, by decide, by decide, by decide⟩, ⟨by decide, by decide, by decide, by decide⟩⟩
  have hiff :=
    fun isConst =>
      (text_eq_iff_agree { wrapper := "const P" } (fieldTo true (handle "typedef" "a::Handle"))
    (fieldTo isConst (handle "record" "b::Handle"))
      rfl (.pointer rfl rfl (.pointer rfl rfl (.base hnamed.1))) rfl
    (.pointer rfl rfl (.pointer rfl rfl (.base hnamed.2)))).2.2
  exact ⟨(hiff true).mpr ⟨rfl, rfl, rfl, rfl⟩,
    fun htext => absurd ((hiff false).mp htext).2.1 (by decide)⟩

end Declaration

end PointerMigration
