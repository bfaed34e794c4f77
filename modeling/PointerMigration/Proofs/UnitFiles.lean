/-
# Units read back from files

A unit that is written to a file and read again comes back without the name of the file it was
loaded from. Both formats give the same unit, so a node is found by its id in either of them.
JSON asks that the texts are valid and that the levels are not too many, MessagePack that
lengths fit into four bytes.
-/
import PointerMigration.Proofs.JsonText
import PointerMigration.Proofs.MessagePackText
import PointerMigration.Proofs.UnitData

namespace PointerMigration

/-! ## The texts of a unit -/

/-- The texts of a location. -/
def Location.texts (l : Location) : List Text := [l.file, l.address]

/-- The texts of a type and of the types in it. -/
def CType.texts : CType → List Text
  | { kind, name, elem, .. } =>
    kind :: name ::
      match elem with
      | some e => e.texts
      | none => []

theorem CType.texts_eq (t : CType) : t.texts = t.kind :: t.name :: t.elem.toList.flatMap texts := by
  obtain ⟨kind, name, isConst, isVolatile, elem, tag⟩ := t
  cases elem with
  | none => rfl
  | some e => simp [texts]

/-- The texts of a node, without those of its children. -/
def Node.texts (n : Node) : List Text :=
  [n.id, n.kind, n.name, n.qualName, n.specialization, n.language, n.ref] ++
    n.type.toList.flatMap CType.texts ++
    (n.begin.toList ++ n.loc.toList ++ n.typeLoc.toList).flatMap Location.texts

/-- The texts of an input. -/
def Input.texts (i : Input) : List Text := [i.file, i.language]

namespace CompilationUnit

/-- The texts of a unit and of everything in it. -/
def texts (u : CompilationUnit) : List Text :=
  u.directory :: (u.inputs.getD []).flatMap (fun i => i.toList.flatMap Input.texts) ++
    u.nodes.flatMap Node.texts

/-- The lengths of the lists in a unit. -/
def lengths (u : CompilationUnit) : List Nat :=
  (u.inputs.getD []).length :: u.inner.length :: u.nodes.map fun n => n.inner.length

/-- The roots of the trees of a unit are nodes of it. -/
theorem mem_nodes_of_mem {u : CompilationUnit} {n : Node} (h : some n ∈ u.inner) : n ∈ u.nodes := by
  obtain ⟨i, hi⟩ := List.getElem?_of_mem h
  exact (u.mem_nodes_iff n).mpr ⟨[], i, .outermost hi⟩

/-- The children of a node of a unit are nodes of it. -/
theorem mem_nodes_of_mem_inner {u : CompilationUnit} {n c : Node} (hn : n ∈ u.nodes)
    (h : some c ∈ n.inner) :
    c ∈ u.nodes := by
  obtain ⟨ancestors, i, hhas⟩ := (u.mem_nodes_iff n).mp hn
  obtain ⟨j, hj⟩ := List.getElem?_of_mem h
  exact (u.mem_nodes_iff c).mpr ⟨n :: ancestors, j, .child hhas hj⟩

end CompilationUnit

/-! ## Data of units -/

/-- The keys of everything in a unit. -/
def unitKeys : List Text :=
  Location.keys.map Prod.fst ++ Tag.keys.map Prod.fst ++ CType.keys.map Prod.fst ++
    Node.keys.map Prod.fst ++
    Input.keys.map Prod.fst ++ CompilationUnit.keys.map Prod.fst

/-- The keys of all records of a unit are on one list. -/
theorem keys_subset_unitKeys :
    Location.keys.map Prod.fst ⊆ unitKeys ∧ Tag.keys.map Prod.fst ⊆ unitKeys ∧
      CType.keys.map Prod.fst ⊆ unitKeys ∧
      Node.keys.map Prod.fst ⊆ unitKeys ∧ Input.keys.map Prod.fst ⊆ unitKeys ∧
      CompilationUnit.keys.map Prod.fst ⊆ unitKeys := by
  refine ⟨?_, ?_, ?_, ?_, ?_, ?_⟩ <;> intro key hkey <;>
    simp only [unitKeys, List.mem_append, hkey, true_or, or_true]

/-- The keys have a property of texts, and the numbers of entries one of lengths. -/
structure AllowsRecords (text : Text → Prop) (size : Nat → Prop) : Prop where
  key : ∀ key ∈ unitKeys, text key
  entries : ∀ n ≤ 16, size n

section

variable {text : Text → Prop} {size : Nat → Prop}

namespace Datum

/-- The value of an entry, if it is there, is within bounds. -/
def EntryWithin (text : Text → Prop) (size : Nat → Prop) (value : Option Datum) : Prop :=
  ∀ d ∈ value, d.Within text size

/-- A record is within bounds if its entries are, since its keys are and it has few of them. -/
theorem within_ofPresent (hr : AllowsRecords text size) {keys : List Text}
    {values : List (Option Datum)} (hkeys : keys ⊆ unitKeys) (hsize : values.length ≤ 16)
    (h : ∀ value ∈ values, EntryWithin text size value) :
    (ofPresent (keys.zip values)).Within text size := by
  rw [ofPresent_eq]
  refine .record ?_ ?_ ?_
  · have hfilter :=
      List.length_filterMap_le (fun f : Text × Option Datum => f.2.map fun d => (some f.1, d))
      (keys.zip values)
    have hzip : (keys.zip values).length ≤ values.length := by
      rw [List.length_zip]
      omega
    exact hr.entries _ (by omega)
  · intro e he
    obtain ⟨key, hkey, hmem⟩ := mem_present.mp he
    exact ⟨key, hkey, hr.key key (hkeys (List.of_mem_zip hmem).1)⟩
  · intro e he
    obtain ⟨key, -, hmem⟩ := mem_present.mp he
    exact h (some e.2) (List.of_mem_zip hmem).2 e.2 rfl

theorem entryWithin_text {t : Text} (h : text t) : EntryWithin text size (some (.text t)) := by
  rintro _ ⟨⟩
  exact .text h

theorem entryWithin_unlessEmpty {t : Text} (h : text t) :
    EntryWithin text size (unlessEmpty t) := by
  intro d hd
  rw [unlessEmpty] at hd
  split at hd
  · cases hd
  · cases hd
    exact .text h

theorem entryWithin_ifTrue (b : Bool) : EntryWithin text size (ifTrue b) := by
  intro d hd
  rw [ifTrue] at hd
  split at hd
  · cases hd
    exact .bool true
  · cases hd

theorem entryWithin_int (w : Int64) :
    EntryWithin text size (if w = 0 then none else some (.int w)) := by
  intro d hd
  split at hd
  · cases hd
  · cases hd
    exact .int w

/-- An entry that may be missing is within bounds if its datum is. -/
theorem entryWithin_map {τ : Type} {datum : τ → Datum} {x : Option τ}
    (h : ∀ y ∈ x, (datum y).Within text size) : EntryWithin text size (x.map datum) := by
  intro d hd
  obtain ⟨y, hy, rfl⟩ := Option.map_eq_some_iff.mp hd
  exact h y hy

/-- A list with gaps is within bounds if its length and the data of its items are. -/
theorem within_list_orNull {τ : Type} {datum : τ → Datum} {items : List (Option τ)}
    (hsize : size items.length) (h : ∀ x, some x ∈ items → (datum x).Within text size) :
    (list (items.map (Record.orNull datum))).Within text size := by
  refine .list (by rwa [List.length_map]) ?_
  intro d hd
  obtain ⟨x, hx, rfl⟩ := List.mem_map.mp hd
  cases x with
  | none => exact .null
  | some y => exact h y hx

/-- An entry for a list is within bounds if the list is, or is left out. -/
theorem entryWithin_unlessNil {τ : Type} {datum : τ → Datum} {items : List (Option τ)}
    (hsize : size items.length) (h : ∀ x, some x ∈ items → (datum x).Within text size) :
    EntryWithin text size
      (if items.isEmpty then none else some (list (items.map (Record.orNull datum)))) := by
  intro d hd
  split at hd
  · cases hd
  · cases hd
    exact within_list_orNull hsize h

end Datum

open Datum

variable (hr : AllowsRecords text size)
include hr

theorem Location.within_datum {l : Location} (h : ∀ t ∈ l.texts, text t) :
    l.datum.Within text size := by
  rw [datum_eq]
  refine within_ofPresent hr keys_subset_unitKeys.1 (by simp) ?_
  simp only [List.forall_mem_cons]
  exact ⟨entryWithin_unlessEmpty (h _ (by simp [texts])), entryWithin_int _,
    entryWithin_unlessEmpty (h _ (by simp [texts])), entryWithin_ifTrue _, List.forall_mem_nil _⟩

theorem Input.within_datum {i : Input} (h : ∀ t ∈ i.texts, text t) : i.datum.Within text size := by
  rw [datum_eq]
  refine within_ofPresent hr keys_subset_unitKeys.2.2.2.2.1 (by simp) ?_
  simp only [List.forall_mem_cons]
  exact ⟨entryWithin_text (h _ (by simp [texts])), entryWithin_text (h _ (by simp [texts])),
    List.forall_mem_nil _⟩

theorem Tag.within_datum (t : Tag) : t.datum.Within text size := by
  rw [datum_eq]
  refine within_ofPresent hr keys_subset_unitKeys.2.1 (by simp) ?_
  simp only [List.forall_mem_cons]
  exact ⟨entryWithin_ifTrue _, entryWithin_ifTrue _, List.forall_mem_nil _⟩

/-- The datum of a type is within bounds if its texts are. -/
theorem CType.within_datum (t : CType) (h : ∀ s ∈ t.texts, text s) : t.datum.Within text size := by
  induction t using CType.induction with
  | h t ih =>
      rw [texts_eq, List.forall_mem_cons, List.forall_mem_cons] at h
      obtain ⟨hkind, hname, hlater⟩ := h
      have helem : ∀ e ∈ t.elem, e.datum.Within text size := by
        intro e he
        refine ih e he fun s hs => hlater s ?_
        exact List.mem_flatMap.mpr ⟨e, Option.mem_toList.mpr he, hs⟩
      rw [datum_eq]
      refine within_ofPresent hr keys_subset_unitKeys.2.2.1 (by simp) ?_
      simp only [List.forall_mem_cons]
      exact ⟨entryWithin_text hkind, entryWithin_unlessEmpty hname, entryWithin_ifTrue _,
        entryWithin_ifTrue _, entryWithin_map helem, entryWithin_map fun t _ => t.within_datum hr,
        List.forall_mem_nil _⟩

/-- The datum of a node is within bounds if the texts and lengths of its unit are. -/
theorem Node.within_datum {u : CompilationUnit} (htexts : ∀ t ∈ u.texts, text t)
    (hlengths : ∀ n ∈ u.lengths, size n) (n : Node) (hn : n ∈ u.nodes) :
    n.datum.Within text size := by
  induction n using Node.induction with
  | h n ih =>
      -- What is known is known of the unit, so every node brings along that it stands in it.
      have hown : ∀ t ∈ n.texts, text t := by
        intro t ht
        exact htexts t (List.mem_append_right _ (List.mem_flatMap.mpr ⟨n, hn, ht⟩))
      have htype : ∀ t ∈ n.type, t.datum.Within text size := by
        intro t ht
        refine t.within_datum hr fun s hs => hown s ?_
        simp only [texts, List.mem_append, List.mem_flatMap, Option.mem_toList]
        exact Or.inl (Or.inr ⟨t, ht, hs⟩)
      have hplace : ∀ l, (l ∈ n.begin ∨ l ∈ n.loc) ∨ l ∈ n.typeLoc → l.datum.Within text size := by
        intro l hl
        refine Location.within_datum hr fun s hs => hown s ?_
        simp only [texts, List.mem_append, List.mem_flatMap, Option.mem_toList]
        exact Or.inr ⟨l, hl, hs⟩
      have hinner : ∀ c, some c ∈ n.inner → c.datum.Within text size := by
        intro c hc
        exact ih c hc (CompilationUnit.mem_nodes_of_mem_inner hn hc)
      have hlength : size n.inner.length := by
        refine hlengths _ (List.mem_cons_of_mem _ (List.mem_cons_of_mem _ ?_))
        exact List.mem_map.mpr ⟨n, hn, rfl⟩
      rw [datum_eq]
      refine within_ofPresent hr keys_subset_unitKeys.2.2.2.1 (by simp) ?_
      simp only [List.forall_mem_cons]
      exact ⟨entryWithin_unlessEmpty (hown _ (by simp [texts])),
        entryWithin_text (hown _ (by simp [texts])),
        entryWithin_unlessEmpty (hown _ (by simp [texts])),
        entryWithin_unlessEmpty (hown _ (by simp [texts])), entryWithin_map htype,
        entryWithin_map fun l hl => hplace l (Or.inl (Or.inl hl)), entryWithin_map fun l hl =>
          hplace l (Or.inl (Or.inr hl)), entryWithin_map fun l hl => hplace l (Or.inr hl),
        entryWithin_ifTrue _, entryWithin_ifTrue _, entryWithin_ifTrue _, entryWithin_ifTrue _,
        entryWithin_unlessEmpty (hown _ (by simp [texts])),
        entryWithin_unlessEmpty (hown _ (by simp [texts])),
        entryWithin_unlessEmpty (hown _ (by simp [texts])), entryWithin_unlessNil hlength hinner,
        List.forall_mem_nil _⟩

/-- The data of a unit are within bounds if its texts and lists are. -/
theorem CompilationUnit.within_datum {u : CompilationUnit} (htexts : ∀ t ∈ u.texts, text t)
    (hlengths : ∀ n ∈ u.lengths, size n) : u.datum.Within text size := by
  have hinputs : u.inputsDatum.Within text size := by
    have hlength : size (u.inputs.getD []).length := hlengths _ List.mem_cons_self
    have hinput : ∀ i, some i ∈ u.inputs.getD [] → i.datum.Within text size := by
      intro i hi
      refine Input.within_datum hr fun t ht =>
        htexts t (List.mem_append_left _ (List.mem_cons_of_mem _ ?_))
      exact List.mem_flatMap.mpr ⟨some i, hi, by simpa using ht⟩
    rw [inputsDatum]
    cases hlist : u.inputs with
    | none => exact .null
    | some inputs =>
        rw [hlist] at hlength hinput
        exact within_list_orNull hlength hinput
  have hinner : ∀ n, some n ∈ u.inner → n.datum.Within text size := by
    intro n hn
    exact n.within_datum hr htexts hlengths (mem_nodes_of_mem hn)
  rw [datum_eq]
  refine within_ofPresent hr keys_subset_unitKeys.2.2.2.2.2 (by simp) ?_
  simp only [List.forall_mem_cons]
  refine ⟨entryWithin_unlessEmpty (htexts _ (by simp [texts])), ?_, entryWithin_unlessNil ?_ hinner,
    List.forall_mem_nil _⟩
  · rintro _ ⟨⟩
    exact hinputs
  · exact hlengths _ (by simp [lengths])

end

/-! ## Files -/

namespace CompilationUnit

/-- A unit whose data are read back is decoded, if no id is that of two nodes. -/
theorem decode_encode_of_readDatum {f : UnitFormat} {u : CompilationUnit}
    (hids : (u.nodes.map Node.id).Pairwise fun a b => a ≠ [] → a ≠ b)
    (hdatum : f.readDatum (f.writeDatum u.datum) = some u.datum) :
    decode f (encode f u) = .ok { u with name := [] } := by
  -- The nodes do not change with the name, so the check of the ids is that of the unit itself.
  have hchecked : ({ u with name := [] } : CompilationUnit).checked = .ok { u with name := [] } :=
    checked_eq_ok_iff.mpr ⟨rfl, hids⟩
  rw [decode, encode, hdatum]
  show ofDatum f u.datum = _
  rw [ofDatum, read_datum]
  exact hchecked

/-- The keys of records are valid texts, and JSON has no bound on lengths. -/
theorem allowsRecords_json : AllowsRecords (fun t => Text.isValidUtf8 t = true) (fun _ => True) :=
  ⟨by decide +kernel, fun _ _ => trivial⟩

/-- The keys of records and their number fit into four bytes. -/
theorem allowsRecords_messagePack :
    AllowsRecords (fun t => t.length < MessagePack.span 4) (fun n => n < MessagePack.span 4) := by
  have hspan : MessagePack.span 4 = 0x100000000 := rfl
  refine ⟨by decide +kernel, ?_⟩
  intro n hn
  show n < MessagePack.span 4
  omega

/-- **Reading back what was written.** A unit in which no id is that of two nodes is read back from
JSON if its texts are valid and it has no more levels than the reader allows, and from MessagePack
if lengths fit into four bytes. Only the name of the file is lost: nodes are found by their ids as
before, in either format. The premise on lengths is needed, since a longer text is cut
(`MessagePack.read_write_text_of_le`). -/
theorem decode_encode {u : CompilationUnit}
    (hids : (u.nodes.map Node.id).Pairwise fun a b => a ≠ [] → a ≠ b)
    (htexts : ∀ t ∈ u.texts, Text.isValidUtf8 t = true)
    (hlevels : u.datum.nesting ≤ Json.maxDepth) :
    ∃ v : CompilationUnit, decode .json (encode .json u) = .ok v ∧
      ((∀ n ∈ u.texts.map List.length ++ u.lengths, n < 2 ^ 32) →
        decode .messagePack (encode .messagePack u) = .ok v) ∧
      v = { u with name := [] } ∧ ∀ id, v.lookup id = u.lookup id := by
  refine ⟨{ u with name := [] }, ?_, ?_, rfl, fun _ => rfl⟩
  · have hwithin : u.datum.Within (fun t => Text.isValidUtf8 t = true) fun _ => True :=
      within_datum allowsRecords_json htexts fun _ _ => trivial
    exact decode_encode_of_readDatum hids (Json.read_write hwithin hlevels)
  · intro hlengths
    refine decode_encode_of_readDatum hids (MessagePack.read_write ?_)
    refine within_datum allowsRecords_messagePack (fun t ht => hlengths _ ?_)
      (fun n hn => hlengths n ?_)
    · exact List.mem_append_left _ (List.mem_map_of_mem ht)
    · exact List.mem_append_right _ hn

/-- A unit with gaps, with texts that are escaped, and with a location and a tag that say
nothing. -/
def mixedUnit : CompilationUnit :=
  { directory := "/src"
    inputs := some [some { file := "a \"b\".cc", language := "c++" }, none]
    inner :=
      [none,
       some
         { id := "0x1"
           kind := "CXXRecordDecl"
           name := "Café<T>"
           loc := some {}
           inner :=
             [some
                { id := "0x2"
                  kind := "FieldDecl"
                  type := some { kind := "pointer", isConst := true,
                                 elem := some { tag := some {} } }
                  begin := some { file := "a.h", offset := -300, isMacro := true } },
              none] },
       some {}]
    name := "unit.json" }

/-- The mixed unit is read back from both formats, and its field is found by its id. -/
theorem decode_encode_mixedUnit :
    ∃ v : CompilationUnit, decode .json (encode .json mixedUnit) = .ok v ∧
      decode .messagePack (encode .messagePack mixedUnit) = .ok v ∧
        v = { mixedUnit with name := [] } ∧
      (v.lookup "0x2").map Node.kind = some Node.fieldKind := by
  obtain ⟨v, hjson, hmessagePack, hv, hlookup⟩ :=
    decode_encode (u := mixedUnit) (by decide +kernel) (by decide +kernel) (by decide +kernel)
  refine ⟨v, hjson, hmessagePack (by decide +kernel), hv, ?_⟩
  rw [hlookup]
  decide +kernel

end CompilationUnit

end PointerMigration
