/-
# Units read back from data

A record is written as those of its entries that say something, and read into the empty record entry
by entry. An entry that was left out is one that the empty record has already, so the record comes
back. This goes through locations, types, nodes and units, in every dialect: keys are written as
they are known, so that neither the case of a key nor an unknown one ever matters.
-/
import PointerMigration.Proofs.Data
import PointerMigration.Proofs.Tree
import Mathlib.Data.List.Nodup

namespace PointerMigration

namespace Record

variable {σ τ φ : Type} {d : Dialect}

/-! ## Entries -/

/-- Every key of a list without repeated ones names its own entry. -/
theorem entry?_of_mem {keys : List (Text × φ)} (hkeys : (keys.map Prod.fst).Nodup)
    {key : Text} {f : φ} (h : (key, f) ∈ keys) : entry? d keys key = some f := by
  unfold entry?
  rw [(find?_eq_some_iff_of_unique _ (key, f)).mpr ⟨h, decide_eq_true rfl⟩]
  intro a ha b hb hkeya hkeyb
  have hab : a.1 = b.1 := (of_decide_eq_true hkeya).trans (of_decide_eq_true hkeyb).symm
  exact List.inj_on_of_nodup_map hkeys ha hb hab

/-- Reading a value that is there leads from one state to another; a value that is
absent changes nothing. -/
def Takes (set : Datum → Reading σ) (s : σ) (value : Option Datum) (next : σ) : Prop :=
  value.elim (next = s) fun v => set v = .ok next

/-- Values are read one after another into the entries they belong to. -/
inductive Fills (set : σ → φ → Datum → Reading σ) : σ → List (φ × Option Datum) → σ → Prop where
  | nil {s : σ} : Fills set s [] s
  | cons {s r : σ} {f : φ} {value : Option Datum} {rest : List (φ × Option Datum)} (next : σ)
      (hfirst : Takes (set s f) s value next)
      (hrest : Fills set next rest r) : Fills set s ((f, value) :: rest) r

/-- A record that is written with its keys in order is read by putting its values into
the entries in order. -/
theorem readRecord_ofPresent {empty s r : σ} {keys : List (Text × φ)}
    {set : σ → φ → Datum → Reading σ} (hkeys : (keys.map Prod.fst).Nodup)
    {values : List (Option Datum)} (h : Fills set s ((keys.map Prod.snd).zip values) r) :
    readRecord d empty keys set s (.ofPresent ((keys.map Prod.fst).zip values)) = .ok r := by
  -- All keys stay known while those that are still to come become fewer.
  have hlater : ∀ (later : List (Text × φ)) (values : List (Option Datum)) (s : σ), later ⊆ keys →
      Fills set s ((later.map Prod.snd).zip values) r →
      readRecord d empty keys set s (.ofPresent ((later.map Prod.fst).zip values)) = .ok r := by
    intro later
    induction later with
    | nil =>
        intro values s _ h
        cases h
        rfl
    | cons e later ih =>
        intro values s hsub h
        obtain ⟨key, f⟩ := e
        cases values with
        | nil =>
            cases h
            rfl
        | cons value values =>
            cases h with
            | cons next hfirst hrest =>
                have hnext := ih values next (List.cons_subset.mp hsub).2 hrest
                cases value with
                | none =>
                    obtain rfl : next = s := hfirst
                    exact hnext
                | some v =>
                    have hset : set s f v = .ok next := hfirst
                    have hentry : entry? d keys key = some f :=
                      entry?_of_mem hkeys (List.cons_subset.mp hsub).1
                    rw [← hnext]
                    simp only [List.map_cons, List.zip_cons_cons, Datum.ofPresent,
                      List.filterMap_cons, Option.map_some, readRecord, readEntries, hentry, hset]
                    rfl
  exact hlater keys values s (List.Subset.refl keys) h

/-! ## Values -/

theorem takes_text {old t : Text} {p : Text → σ} {s : σ} :
    Takes (fun v => (readText d old v).map p) s (some (.text t)) (p t) := rfl

/-- A text that is left out when it is empty is taken, or stays empty. -/
theorem takes_unlessEmpty {old t : Text} {p : Text → σ} {s : σ} (hs : p [] = s) :
    Takes (fun v => (readText d old v).map p) s (Datum.unlessEmpty t) (p t) := by
  cases t with
  | nil => exact hs
  | cons b t => rfl

/-- A truth value that is left out when it is false is taken, or stays false. -/
theorem takes_ifTrue {old b : Bool} {p : Bool → σ} {s : σ} (hs : p false = s) :
    Takes (fun v => (readBool d old v).map p) s (Datum.ifTrue b) (p b) := by
  cases b with
  | false => exact hs
  | true => rfl

/-- A number that is left out when it is zero is taken, or stays zero. -/
theorem takes_int {old w : Int64} {p : Int64 → σ} {s : σ} (hs : p 0 = s) :
    Takes (fun v => (readInt d old v).map p) s (if w = 0 then none else some (.int w)) (p w) := by
  by_cases hw : w = 0
  · rw [if_pos hw, hw]
    exact hs
  · rw [if_neg hw]
    rfl

/-- What data were written from is read back from them, and they are not null. -/
def ReadsBack (empty : τ) (read : τ → Datum → Reading τ) (datum : τ → Datum) (x : τ) : Prop :=
  datum x ≠ .null ∧ read empty (datum x) = .ok x

/-- A part that was not there before is read from its datum. -/
theorem ReadsBack.readOptional_eq {empty : τ} {read : τ → Datum → Reading τ}
    {datum : τ → Datum} {x : τ} (h : ReadsBack empty read datum x) :
    readOptional empty read none (datum x) = .ok (some x) := by
  obtain ⟨hnull, hread⟩ := h
  cases hdatum : datum x with
  | null => exact absurd hdatum hnull
  | _ =>
      rw [hdatum] at hread
      simp only [readOptional, Option.getD_none, hread]
      rfl

/-- A part that may be missing is taken, or stays missing. -/
theorem takes_map {empty : τ} {read : τ → Datum → Reading τ} {datum : τ → Datum}
    {p : Option τ → σ} {s : σ} {x : Option τ} (h : ∀ y, x = some y → ReadsBack empty read datum y)
    (hs : p none = s) :
    Takes (fun v => (readOptional empty read none v).map p) s (x.map datum) (p x) := by
  cases x with
  | none => exact hs
  | some y =>
      show (readOptional empty read none (datum y)).map p = .ok (p (some y))
      rw [(h y rfl).readOptional_eq]
      rfl

/-- The data of a value, or null if there is none. -/
def orNull (datum : τ → Datum) (x : Option τ) : Datum := (x.map datum).getD .null

/-- A list with gaps is read from the data of its items, with null for a gap. -/
theorem readList_orNull {empty : τ} {read : τ → Datum → Reading τ} {datum : τ → Datum}
    {items : List (Option τ)} (h : ∀ x, some x ∈ items → ReadsBack empty read datum x)
    {old : Option (List (Option τ))} (hold : old.getD [] = []) :
    readList empty read old (.list (items.map (orNull datum))) = .ok (some items) := by
  have hitems : readItems empty read [] (items.map (orNull datum)) = .ok items := by
    induction items with
    | nil => rfl
    | cons x items ih =>
        have hrest := ih fun y hy => h y (List.mem_cons_of_mem x hy)
        have hx : readOptional empty read none (orNull datum x) = .ok x := by
          cases x with
          | none => rfl
          | some y => exact (h y (by simp)).readOptional_eq
        rw [List.map_cons, readItems]
        simp only [List.head?_nil, Option.join_none, List.tail_nil, hx, hrest]
        rfl
  rw [readList, hold, hitems]
  rfl

/-- A list that is left out when it is empty is taken, or stays empty. -/
theorem takes_unlessNil {empty : τ} {read : τ → Datum → Reading τ} {datum : τ → Datum}
    {p : Option (List (Option τ)) → σ} {s : σ} {items : List (Option τ)}
    (h : ∀ x, some x ∈ items → ReadsBack empty read datum x) (hs : p (some []) = s) :
    Takes (fun v => (readList empty read (some []) v).map p) s
      (if items.isEmpty then none else some (.list (items.map (orNull datum))))
      (p (some items)) := by
  cases items with
  | nil => exact hs
  | cons x items =>
      show (readList empty read (some []) (.list ((x :: items).map (orNull datum)))).map p = _
      rw [readList_orNull h rfl]
      rfl

end Record

open Record

/-- No record has a key twice. -/
theorem nodup_keys :
    (Location.keys.map Prod.fst).Nodup ∧ (Input.keys.map Prod.fst).Nodup ∧
      (Tag.keys.map Prod.fst).Nodup ∧
      (CType.keys.map Prod.fst).Nodup ∧ (Node.keys.map Prod.fst).Nodup ∧
      (CompilationUnit.keys.map Prod.fst).Nodup := by
  decide +kernel

variable (d : Dialect)

/-! ## Locations and inputs -/

theorem Location.datum_eq (l : Location) :
    l.datum = .ofPresent ((keys.map Prod.fst).zip
      [Datum.unlessEmpty l.file, if l.offset = 0 then none else some (.int l.offset),
        Datum.unlessEmpty l.address, Datum.ifTrue l.isMacro]) := rfl

theorem Location.readsBack (l : Location) : ReadsBack {} (Location.read d) Location.datum l := by
  have hkeys : (keys.map Prod.fst).Nodup := nodup_keys.1
  refine ⟨nofun, ?_⟩
  obtain ⟨file, offset, address, isMacro⟩ := l
  rw [datum_eq]
  refine readRecord_ofPresent hkeys ?_
  refine .cons { file } (takes_unlessEmpty rfl) ?_
  refine .cons { file, offset } (takes_int rfl) ?_
  refine .cons { file, offset, address } (takes_unlessEmpty rfl) ?_
  exact .cons { file, offset, address, isMacro } (takes_ifTrue rfl) .nil

theorem Input.datum_eq (i : Input) :
    i.datum = .ofPresent ((keys.map Prod.fst).zip [some (.text i.file), some (.text i.language)]) :=
  rfl

theorem Input.readsBack (i : Input) : ReadsBack {} (Input.read d) Input.datum i := by
  have hkeys : (keys.map Prod.fst).Nodup := nodup_keys.2.1
  refine ⟨nofun, ?_⟩
  obtain ⟨file, language⟩ := i
  rw [datum_eq]
  refine readRecord_ofPresent hkeys ?_
  refine .cons { file } takes_text ?_
  exact .cons { file, language } takes_text .nil

/-! ## Types -/

theorem Tag.datum_eq (t : Tag) : t.datum = .ofPresent ((keys.map Prod.fst).zip
    [Datum.ifTrue t.isInline, Datum.ifTrue t.deletedNew]) := rfl

theorem Tag.readsBack (t : Tag) : ReadsBack {} (Tag.read d) Tag.datum t := by
  have hkeys : (keys.map Prod.fst).Nodup := nodup_keys.2.2.1
  refine ⟨nofun, ?_⟩
  obtain ⟨isInline, deletedNew⟩ := t
  rw [datum_eq]
  refine readRecord_ofPresent hkeys ?_
  refine .cons { isInline } (takes_ifTrue rfl) ?_
  exact .cons { isInline, deletedNew } (takes_ifTrue rfl) .nil

/-- A property that passes from the element of a type to the type holds of every type. -/
theorem CType.induction {P : CType → Prop} (h : ∀ t : CType, (∀ e, t.elem = some e → P e) → P t) :
    ∀ t, P t
  | { elem := none, .. } => h _ nofun
  | { elem := some e, .. } => h _ fun _ he => Option.some.inj he ▸ CType.induction h e

theorem CType.datum_eq (t : CType) : t.datum = .ofPresent ((keys.map Prod.fst).zip
    [some (.text t.kind), Datum.unlessEmpty t.name, Datum.ifTrue t.isConst,
    Datum.ifTrue t.isVolatile,
      t.elem.map datum, t.tag.map Tag.datum]) := by
  obtain ⟨kind, name, isConst, isVolatile, elem, tag⟩ := t
  cases elem <;> rfl

/-- A type is read back if the reader goes as deep as its datum does. -/
theorem CType.readsBack_readUpTo (t : CType) :
    ∀ k, t.datum.depth ≤ k → ReadsBack {} (readUpTo d k) CType.datum t := by
  have hkeys : (keys.map Prod.fst).Nodup := nodup_keys.2.2.2.1
  induction t using CType.induction with
  | h t ih =>
      intro k hk
      have hpos := t.datum.depth_pos
      obtain ⟨k, rfl⟩ : ∃ m, k = m + 1 := ⟨k - 1, by omega⟩
      -- The element has fewer levels, so it is read with what is left of them.
      have helem : ∀ e, t.elem = some e → ReadsBack {} (readUpTo d k) CType.datum e := by
        intro e he
        refine ih e he k ?_
        have hdepth : e.datum.depth < t.datum.depth := by
          rw [datum_eq t, he]
          exact Datum.depth_lt_ofPresent (List.mem_of_getElem? (i := 4) rfl)
        omega
      refine ⟨by rw [datum_eq]; exact nofun, ?_⟩
      obtain ⟨kind, name, isConst, isVolatile, elem, tag⟩ := t
      rw [datum_eq]
      refine readRecord_ofPresent hkeys ?_
      refine .cons { kind } takes_text ?_
      refine .cons { kind, name } (takes_unlessEmpty rfl) ?_
      refine .cons { kind, name, isConst } (takes_ifTrue rfl) ?_
      refine .cons { kind, name, isConst, isVolatile } (takes_ifTrue rfl) ?_
      refine .cons { kind, name, isConst, isVolatile, elem } (takes_map helem rfl) ?_
      exact .cons { kind, name, isConst, isVolatile, elem, tag }
        (takes_map (fun t _ => t.readsBack d) rfl) .nil

/-- A type is read back from its datum. -/
theorem CType.readsBack (t : CType) : ReadsBack {} (CType.read d) CType.datum t :=
  t.readsBack_readUpTo d t.datum.depth (Nat.le_refl _)

/-! ## Nodes -/

mutual

/-- A property that passes from the children of a node to the node holds of every node. -/
theorem Node.induction {P : Node → Prop}
    (h : ∀ n : Node, (∀ c, some c ∈ n.inner → P c) → P n) : ∀ n, P n
  | { inner, .. } => h _ (Node.inductionOf h inner)

theorem Node.inductionOf {P : Node → Prop} (h : ∀ n : Node, (∀ c, some c ∈ n.inner → P c) → P n) :
    ∀ (children : List (Option Node)) (c : Node), some c ∈ children → P c
  | [], _, hc => absurd hc List.not_mem_nil
  | none :: rest, c, hc => Node.inductionOf h rest c (by simpa using hc)
  | some n :: rest, c, hc => by
      rcases List.mem_cons.mp hc with hc | hc
      · exact Option.some.inj hc ▸ Node.induction h n
      · exact Node.inductionOf h rest c hc

end

/-- The data of children are those of each child, with null for a gap. -/
theorem Node.data_eq_map (children : List (Option Node)) :
    data children = children.map (orNull datum) := by
  induction children with
  | nil => rfl
  | cons child children ih =>
      cases child with
      | none => rw [data, ih]; rfl
      | some n => rw [data, ih]; rfl

theorem Node.datum_eq (n : Node) : n.datum = .ofPresent ((keys.map Prod.fst).zip
    [Datum.unlessEmpty n.id, some (.text n.kind), Datum.unlessEmpty n.name,
    Datum.unlessEmpty n.qualName,
      n.type.map CType.datum, n.begin.map Location.datum, n.loc.map Location.datum,
      n.typeLoc.map Location.datum, Datum.ifTrue n.isMutable, Datum.ifTrue n.isImplicit,
      Datum.ifTrue n.isVariadic, Datum.ifTrue n.isLambda, Datum.unlessEmpty n.specialization,
      Datum.unlessEmpty n.language, Datum.unlessEmpty n.ref,
      if n.inner.isEmpty then none else some (.list (n.inner.map (orNull datum)))]) := by
  obtain ⟨id, kind, name, qualName, type, begin, loc, typeLoc, isMutable, isImplicit,
      isVariadic, isLambda,
    specialization, language, ref, inner⟩ := n
  rw [← data_eq_map]
  rfl

/-- The data of a child have fewer levels than those of the node. -/
theorem Node.depth_lt_of_mem_inner {n c : Node} (h : some c ∈ n.inner) :
    c.datum.depth < n.datum.depth := by
  have hlist : c.datum.depth < (Datum.list (n.inner.map (orNull datum))).depth :=
    Datum.depth_lt_of_mem_items (List.mem_map.mpr ⟨some c, h, rfl⟩)
  have hinner : n.inner.isEmpty = false := by
    rw [List.isEmpty_eq_false_iff]
    exact List.ne_nil_of_mem h
  have hentry : (Datum.list (n.inner.map (orNull datum))).depth < n.datum.depth := by
    rw [datum_eq n, hinner]
    exact Datum.depth_lt_ofPresent (List.mem_of_getElem? (i := 15) rfl)
  omega

/-- A node is read back if the reader goes as deep as its datum does. -/
theorem Node.readsBack_readUpTo (n : Node) :
    ∀ k, n.datum.depth ≤ k → ReadsBack {} (readUpTo d k) Node.datum n := by
  have hkeys : (keys.map Prod.fst).Nodup := nodup_keys.2.2.2.2.1
  induction n using Node.induction with
  | h n ih =>
      intro k hk
      have hpos := n.datum.depth_pos
      obtain ⟨k, rfl⟩ : ∃ m, k = m + 1 := ⟨k - 1, by omega⟩
      have hinner : ∀ c, some c ∈ n.inner → ReadsBack {} (readUpTo d k) Node.datum c := by
        intro c hc
        have hdepth := depth_lt_of_mem_inner hc
        exact ih c hc k (by omega)
      refine ⟨by rw [datum_eq]; exact nofun, ?_⟩
      obtain ⟨id, kind, name, qualName, type, begin, loc, typeLoc, isMutable, isImplicit,
          isVariadic, isLambda,
        specialization, language, ref, inner⟩ := n
      rw [datum_eq]
      refine readRecord_ofPresent hkeys ?_
      -- Each value is read into a node that has what comes before it and is empty otherwise.
      refine .cons { id } (takes_unlessEmpty rfl) ?_
      refine .cons { id, kind } takes_text ?_
      refine .cons { id, kind, name } (takes_unlessEmpty rfl) ?_
      refine .cons { id, kind, name, qualName } (takes_unlessEmpty rfl) ?_
      refine .cons { id, kind, name, qualName, type } (takes_map (fun t _ => t.readsBack d) rfl) ?_
      refine .cons { id, kind, name, qualName, type, begin }
        (takes_map (fun l _ => l.readsBack d) rfl) ?_
      refine .cons { id, kind, name, qualName, type, begin, loc }
        (takes_map (fun l _ => l.readsBack d) rfl) ?_
      refine .cons { id, kind, name, qualName, type, begin, loc, typeLoc }
        (takes_map (fun l _ => l.readsBack d) rfl) ?_
      refine .cons { id, kind, name, qualName, type, begin, loc, typeLoc, isMutable }
        (takes_ifTrue rfl) ?_
      refine .cons { id, kind, name, qualName, type, begin, loc, typeLoc, isMutable, isImplicit }
        (takes_ifTrue rfl) ?_
      refine .cons
        { id, kind, name, qualName, type, begin, loc, typeLoc, isMutable, isImplicit, isVariadic }
        (takes_ifTrue rfl) ?_
      refine .cons
        { id, kind, name, qualName, type, begin, loc, typeLoc, isMutable, isImplicit,
          isVariadic, isLambda }
        (takes_ifTrue rfl) ?_
      refine .cons
        { id, kind, name, qualName, type, begin, loc, typeLoc, isMutable, isImplicit,
          isVariadic, isLambda, specialization } (takes_unlessEmpty rfl) ?_
      refine .cons
        { id, kind, name, qualName, type, begin, loc, typeLoc, isMutable, isImplicit,
          isVariadic, isLambda, specialization, language } (takes_unlessEmpty rfl) ?_
      refine .cons
        { id, kind, name, qualName, type, begin, loc, typeLoc, isMutable, isImplicit,
          isVariadic, isLambda, specialization, language, ref } (takes_unlessEmpty rfl) ?_
      exact .cons
        { id, kind, name, qualName, type, begin, loc, typeLoc, isMutable, isImplicit,
          isVariadic, isLambda, specialization, language, ref,
          inner } (takes_unlessNil hinner rfl) .nil

/-- A node is read back from its datum, with all its children. -/
theorem Node.readsBack (n : Node) : ReadsBack {} (Node.read d) Node.datum n :=
  n.readsBack_readUpTo d n.datum.depth (Nat.le_refl _)

/-! ## Units -/

/-- The files given to the compiler as data. -/
def CompilationUnit.inputsDatum (u : CompilationUnit) : Datum :=
  u.inputs.elim .null fun inputs => .list (inputs.map (orNull Input.datum))

theorem CompilationUnit.datum_eq (u : CompilationUnit) :
    u.datum = .ofPresent ((keys.map Prod.fst).zip
    [Datum.unlessEmpty u.directory, some u.inputsDatum,
      if u.inner.isEmpty then none else some (.list (u.inner.map (orNull Node.datum)))]) := by
  obtain ⟨directory, inputs, inner, name⟩ := u
  rw [← Node.data_eq_map]
  cases inputs <;> rfl

/-- A unit is read back from its data, but for the name of the file. -/
theorem CompilationUnit.read_datum (u : CompilationUnit) :
    read d u.datum = .ok { u with name := [] } := by
  have hkeys : (keys.map Prod.fst).Nodup := nodup_keys.2.2.2.2.2
  have hinputs : readList {} (Input.read d) none u.inputsDatum = .ok u.inputs := by
    rw [inputsDatum]
    cases u.inputs with
    | none => rfl
    | some inputs => exact readList_orNull (fun i _ => i.readsBack d) rfl
  rw [datum_eq]
  obtain ⟨directory, inputs, inner, name⟩ := u
  refine readRecord_ofPresent hkeys ?_
  refine .cons { directory } (takes_unlessEmpty rfl) ?_
  refine .cons { directory, inputs } (congrArg (Except.map _) hinputs) ?_
  exact .cons { directory, inputs, inner } (takes_unlessNil (fun n _ => n.readsBack d) rfl) .nil

end PointerMigration
