/-
# Names without their scopes

A scope mark counts only outside template arguments, where as many brackets have been opened as
closed. What is left of a name follows the last mark that counts, and has none that counts from its
own start. Since the count starts anew behind a mark, a scope in front of a name makes no difference
to what is left of it.
-/
import PointerMigration.Proofs.Qualifiers

namespace PointerMigration.CType

/-! ## Depth -/

/-- How many more brackets a text opens than it closes. -/
def depth (t : Text) : Int := t.count 60 - t.count 62

theorem depth_nil : depth [] = 0 := rfl

theorem depth_cons (b : UInt8) (t : Text) : depth (b :: t) = bracket b + depth t := by
  unfold depth bracket
  rw [List.count_cons, List.count_cons]
  by_cases hopen : b = 60
  · subst hopen
    simp
    omega
  · by_cases hclose : b = 62
    · subst hclose
      simp
      omega
    · simp [hopen, hclose]

theorem depth_append (s t : Text) : depth (s ++ t) = depth s + depth t := by
  unfold depth
  rw [List.count_append, List.count_append]
  omega

/-! ## Marks -/

/-- A text has a scope mark outside template arguments, where `d` brackets are open before the
text. -/
def HasMark (d : Int) (t : Text) : Prop :=
  ∃ before after, t = before ++ "::" ++ after ∧ d + depth before = 0

theorem depth_mark : depth "::" = 0 := rfl

theorem append_mark (before after : Text) :
    before ++ "::" ++ after = before ++ 58 :: 58 :: after := by
  rw [List.append_assoc]
  rfl

theorem not_hasMark_of_length {d : Int} {t : Text} (h : t.length < 2) : ¬ HasMark d t := by
  rintro ⟨before, after, rfl, -⟩
  rw [append_mark] at h
  simp at h
  omega

/-- A mark is at the front of a text or behind its first byte. -/
theorem hasMark_cons_iff {d : Int} {b : UInt8} {t : Text} :
    HasMark d (b :: t) ↔ (b = 58 ∧ t.head? = some 58 ∧ d = 0) ∨ HasMark (d + bracket b) t := by
  constructor
  · rintro ⟨before, after, ht, hdepth⟩
    rw [append_mark] at ht
    cases before with
    | nil =>
        obtain ⟨rfl, rfl⟩ := List.cons.inj ht
        exact Or.inl ⟨rfl, rfl, by simpa [depth_nil] using hdepth⟩
    | cons a before =>
        obtain ⟨rfl, rfl⟩ := List.cons.inj ht
        rw [depth_cons] at hdepth
        exact Or.inr ⟨before, after, (append_mark _ _).symm, by omega⟩
  · rintro (⟨rfl, hhead, rfl⟩ | ⟨before, after, rfl, hdepth⟩)
    · obtain ⟨after, rfl⟩ := List.head?_eq_some_iff.mp hhead
      exact ⟨[], after, rfl, rfl⟩
    · refine ⟨b :: before, after, rfl, ?_⟩
      rw [depth_cons]
      omega

/-! ## What follows the last mark -/

/-- A scan ends behind the last mark, or keeps what it was given if there is none. -/
theorem unscopedFrom_cases (d : Int) (best t : Text) :
    (unscopedFrom d best t = best ∧ ¬ HasMark d t) ∨
      ∃ scope, t = scope ++ "::" ++ unscopedFrom d best t ∧ d + depth scope = 0 ∧
        ¬ HasMark 0 (unscopedFrom d best t) := by
  fun_induction unscopedFrom d best t with
  | case1 d best b c t hmark ih =>
      simp only [Bool.and_eq_true, decide_eq_true_eq] at hmark
      obtain ⟨⟨rfl, rfl⟩, rfl⟩ := hmark
      rcases ih with ⟨hbest, hnone⟩ | ⟨scope, ht, hdepth, hnone⟩
      · refine Or.inr ⟨[], ?_, rfl, ?_⟩
        · rw [hbest]
          rfl
        · rwa [hbest]
      · refine Or.inr ⟨"::" ++ scope, ?_, ?_, hnone⟩
        · rw [List.append_assoc, List.append_assoc, ← List.append_assoc scope, ← ht]
          rfl
        · rw [depth_append, depth_mark, Int.zero_add]
          exact hdepth
  | case2 d best b c t hmark ih =>
      simp only [Bool.and_eq_true, decide_eq_true_eq] at hmark
      rcases ih with ⟨hbest, hnone⟩ | ⟨scope, ht, hdepth, hnone⟩
      · refine Or.inl ⟨hbest, ?_⟩
        rw [hasMark_cons_iff]
        rintro (⟨hb, hc, hd⟩ | hlater)
        · exact hmark ⟨⟨hb, Option.some.inj hc⟩, hd⟩
        · exact hnone hlater
      · refine Or.inr ⟨b :: scope, ?_, ?_, hnone⟩
        · rw [List.cons_append, List.cons_append, ← ht]
        · rw [depth_cons]
          omega
  | case3 t d best hshort =>
      refine Or.inl ⟨rfl, not_hasMark_of_length ?_⟩
      match t with
      | [] => simp
      | [b] => simp
      | b :: c :: t => exact absurd rfl (hshort b c t)

/-- What is left of a name is an end of it. -/
theorem unscoped_suffix (name : Text) : unscoped name <:+ name := by
  rcases unscopedFrom_cases 0 name name with ⟨hself, -⟩ | ⟨scope, hname, -⟩
  · exact ⟨[], hself⟩
  · exact ⟨scope ++ "::", hname.symm⟩

/-- A name is left as it is if and only if it has no mark. -/
theorem unscoped_eq_self_iff {name : Text} : unscoped name = name ↔ ¬ HasMark 0 name := by
  rcases unscopedFrom_cases 0 name name with ⟨hself, hnone⟩ | ⟨scope, hname, hdepth, -⟩
  · exact iff_of_true hself hnone
  · refine iff_of_false (fun hself => ?_) (not_not_intro ⟨scope, _, hname, hdepth⟩)
    -- The mark takes up room in the name.
    have hlength := congrArg List.length hname
    rw [unscoped] at hself
    rw [hself, append_mark] at hlength
    simp at hlength
    omega

/-- What is left of a name has no scope mark outside template arguments. -/
theorem not_hasMark_unscoped (name : Text) : ¬ HasMark 0 (unscoped name) := by
  rcases unscopedFrom_cases 0 name name with ⟨hself, hnone⟩ | ⟨scope, -, -, hnone⟩
  · rwa [unscoped, hself]
  · exact hnone

theorem unscopedFrom_mark (best t : Text) : unscopedFrom 0 best (58 :: 58 :: t) = unscoped t := rfl

/-- A byte that begins no mark outside template arguments is passed. -/
theorem unscopedFrom_cons {d : Int} {b : UInt8} {t : Text}
    (h : ¬ (b = 58 ∧ t.head? = some 58 ∧ d = 0)) (best : Text) :
    unscopedFrom d best (b :: t) = unscopedFrom (d + bracket b) best t := by
  cases t with
  | nil => rfl
  | cons c t =>
      rw [unscopedFrom, if_neg]
      simp only [Bool.and_eq_true, decide_eq_true_eq]
      rintro ⟨⟨rfl, rfl⟩, rfl⟩
      exact h ⟨rfl, rfl, rfl⟩

/-- The scan starts anew behind a scope. -/
theorem unscopedFrom_append_mark {d : Int} {scope : Text} (hdepth : d + depth scope = 0)
    (hlast : scope.getLast? ≠ some Text.colon) (best name : Text) :
    unscopedFrom d best (scope ++ "::" ++ name) = unscoped name := by
  have hrest : ∀ {b : UInt8} {t : Text}, (b :: t).getLast? ≠ some Text.colon →
      t.getLast? ≠ some Text.colon := by
    intro b t hlast htail
    exact hlast (by rw [List.getLast?_cons, htail]; rfl)
  rw [append_mark]
  -- The induction is on the length, as a mark in the scope takes two bytes.
  induction hlength : scope.length using Nat.strongRecOn generalizing d best scope with
  | ind n ih =>
    cases scope with
    | nil =>
        obtain rfl : d = 0 := by simpa [depth_nil] using hdepth
        exact unscopedFrom_mark best name
    | cons b scope =>
        rw [depth_cons] at hdepth
        rw [List.length_cons] at hlength
        by_cases hmark : b = 58 ∧ (scope ++ 58 :: 58 :: name).head? = some 58 ∧ d = 0
        · obtain ⟨rfl, hhead, rfl⟩ := hmark
          cases scope with
          | nil => exact absurd rfl hlast
          | cons c scope =>
              obtain rfl : c = 58 := by simpa using hhead
              have hcolon : bracket 58 = 0 := rfl
              rw [depth_cons] at hdepth
              rw [List.length_cons] at hlength
              exact ih scope.length (by omega) (by omega) (hrest (hrest hlast)) _ rfl
        · rw [List.cons_append, unscopedFrom_cons hmark]
          exact ih scope.length (by omega) (by omega) (hrest hlast) _ rfl

/-- A scope in front of a name makes no difference, if its brackets are balanced. -/
theorem unscoped_append_mark {scope : Text} (hdepth : depth scope = 0)
    (hlast : scope.getLast? ≠ some Text.colon) (name : Text) :
    unscoped (scope ++ "::" ++ name) = unscoped name :=
  unscopedFrom_append_mark (by rw [hdepth]; rfl) hlast _ name

/-! ## Template arguments -/

/-- A name with template arguments, in which no more brackets are closed than opened, has no
mark outside of them. -/
theorem not_hasMark_template {ident args : Text} (hident : ∀ b ∈ ident, b ∉ ("<:>" : Text))
    (hargs : ∀ before, before <+: args → 0 ≤ depth before) :
    ¬ HasMark 0 (ident ++ "<" ++ args ++ ">") := by
  have hsplit : ident ++ Text.ofString "<" ++ args ++ Text.ofString ">"
      = ident ++ 60 :: (args ++ [62]) := by
    rw [List.append_assoc, List.append_assoc]
    rfl
  rw [hsplit]
  clear hsplit
  induction ident with
  | nil =>
      rw [List.nil_append, hasMark_cons_iff]
      rintro (⟨hcolon, -⟩ | ⟨before, after, heq, hdepth⟩)
      · cases hcolon
      · -- The mark would stand in the arguments, where a bracket is open.
        have hbracket : bracket 60 = 1 := rfl
        have hlength : before.length ≤ args.length := by
          have hlengths := congrArg List.length heq
          rw [append_mark] at hlengths
          simp at hlengths
          omega
        have hbefore : before <+: args ++ [62] := ⟨58 :: 58 :: after, by rw [heq, append_mark]⟩
        have hopen :=
          hargs before (List.prefix_of_prefix_length_le hbefore (List.prefix_append _ _) hlength)
        omega
  | cons b ident ih =>
      rw [List.forall_mem_cons] at hident
      have hmarks : Text.ofString "<:>" = [60, 58, 62] := rfl
      obtain ⟨hopen, hcolon, hclose⟩ : b ≠ 60 ∧ b ≠ 58 ∧ b ≠ 62 := by simpa [hmarks] using hident.1
      have hbracket : bracket b = 0 := by simp [bracket, hopen, hclose]
      rw [List.cons_append, hasMark_cons_iff, hbracket]
      rintro (⟨hb, -⟩ | hlater)
      · exact hcolon hb
      · exact ih hident.2 hlater

/-! ## Spelling -/

/-- The second type differs from the first by a scope in front of the name that it is spelled
with. -/
inductive InScope (scope : Text) : CType → CType → Prop where
  | named {t : CType} (hform : t.form ≠ .builtin) :
      InScope scope t { t with name := scope ++ "::" ++ t.name }
  | pointer {p e e' : CType} (hform : p.form = .pointer) (helem : p.elem = some e)
      (h : InScope scope e e') :
      InScope scope p { p with elem := some e' }

/-- A scope is not spelled. -/
theorem InScope.spell_eq {scope : Text} {t t' : CType} (h : InScope scope t t')
    (hdepth : depth scope = 0) (hlast : scope.getLast? ≠ some Text.colon) : t'.spell = t.spell := by
  induction h with
  | @named t hform =>
      have hname := unscoped_append_mark hdepth hlast t.name
      have hsame : form { t with name := scope ++ "::" ++ t.name } = t.form := rfl
      obtain ⟨kind, name, isConst, isVolatile, elem, tag⟩ := t
      rw [spell.eq_def, spell.eq_def ⟨kind, name, isConst, isVolatile, elem, tag⟩]
      simp only at hname ⊢
      rw [hsame]
      split
      · cases elem with
        | none => rfl
        | some e => rfl
      · rfl
      · next hbuiltin => exact absurd hbuiltin hform
      · rw [hname]
        rfl
  | @pointer p e e' hform helem h ih =>
      have hsame : form { p with elem := some e' } = .pointer := hform
      rw [spell_pointer hsame rfl, spell_pointer hform helem, ih]
      rfl

/-- **Scope suppression.** What is left of a name is the whole name, or follows a mark with as
many brackets opened as closed in front of it. It has no such mark itself, counted from its own
start, so that nothing more is taken away from it. A scope in front of a name, in which as many
brackets are opened as closed and which does not run into the mark behind it, makes no difference:
what is left is the same, with its template arguments as they are written, and so is the spelling
of a type with the name. -/
theorem unscoped_suppresses_scopes (name : Text) :
    (unscoped name = name ∨ ∃ scope, name = scope ++ "::" ++ unscoped name ∧ depth scope = 0) ∧
    (∀ before after, unscoped name = before ++ "::" ++ after → depth before ≠ 0) ∧
    unscoped (unscoped name) = unscoped name ∧
    ∀ scope : Text, depth scope = 0 → scope.getLast? ≠ some Text.colon →
      unscoped (scope ++ "::" ++ name) = unscoped name ∧
      (∀ ident args : Text, (∀ b ∈ ident, b ∉ ("<:>" : Text)) →
        (∀ before, before <+: args → 0 ≤ depth before) →
        unscoped (scope ++ "::" ++ (ident ++ "<" ++ args ++ ">")) = ident ++ "<" ++ args ++ ">") ∧
      ∀ t t', InScope scope t t' → t'.spell = t.spell := by
  have hnone := not_hasMark_unscoped name
  refine ⟨?_, ?_, unscoped_eq_self_iff.mpr hnone, ?_⟩
  · rcases unscopedFrom_cases 0 name name with ⟨hself, -⟩ | ⟨scope, hname, hdepth, -⟩
    · exact Or.inl hself
    · exact Or.inr ⟨scope, hname, by simpa using hdepth⟩
  · intro before after hsplit hdepth
    exact hnone ⟨before, after, hsplit, by rw [hdepth]; rfl⟩
  · intro scope hdepth hlast
    refine ⟨unscoped_append_mark hdepth hlast name, ?_, fun t t' h => h.spell_eq hdepth hlast⟩
    intro ident args hident hargs
    rw [unscoped_append_mark hdepth hlast]
    exact unscoped_eq_self_iff.mpr (not_hasMark_template hident hargs)

/-- A third colon belongs to what follows the mark, and a mark inside template
arguments does not count. -/
theorem unscoped_suppresses_scopes_colons :
    unscoped "a<b::c>:::d" = ":d" ∧ unscoped "a<b::c>::d<e::f>" = "d<e::f>" ∧
      spell { kind := "pointer", elem := some { kind := "record", name := "a<b::c>::d<e::f>" } }
        = spell { kind := "pointer", elem := some { kind := "record", name := "d<e::f>" } } := by
  obtain ⟨-, -, -, hscope⟩ := unscoped_suppresses_scopes ":d"
  obtain ⟨hthird, hverbatim, hspell⟩ := hscope "a<b::c>" rfl (by decide)
  have hident : ∀ b ∈ ("d" : Text), b ∉ ("<:>" : Text) := by
    intro b hb
    obtain rfl : b = 100 := List.mem_singleton.mp hb
    decide
  have hargs : ∀ before, before <+: ("e::f" : Text) → 0 ≤ depth before := by
    intro before hbefore
    have hclosed : before.count 62 = 0 :=
      List.count_eq_zero.mpr fun hmem => absurd (hbefore.subset hmem) (by decide)
    unfold depth
    omega
  exact ⟨hthird, hverbatim "d" "e::f" hident hargs,
    hspell _ _ (.pointer rfl rfl (.named (by decide)))⟩

end PointerMigration.CType
