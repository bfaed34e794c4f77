/-
# Units as data

How units, nodes, types and locations stand in a unit file. Each is a record with known keys, given
here once for reading and for writing. An entry with nothing to say is left out. Reading goes over
what was read before: a record that comes twice is read into the same value.
-/
import PointerMigration.Datum
import PointerMigration.Source.CompilationUnit

namespace PointerMigration

/-- How a format reads records. -/
structure Dialect where
  /-- Whether the case of keys does not matter. -/
  ignoresCase : Bool
  /-- Whether unknown keys are passed over. -/
  skipsUnknown : Bool
  /-- Whether a list of all entries in order can stand for a record. -/
  positional : Bool
  /-- Whether null stands for the empty value, and not for no value. -/
  nullClears : Bool
  deriving DecidableEq, Repr

/-- Why data cannot be read. -/
inductive RecordError where
  /-- It does not have the form it should have. -/
  | malformed
  /-- It has a key that is not known. -/
  | unknownKey (key : Text)
  deriving DecidableEq, Repr

namespace Record

/-- The result of reading a part of a unit. -/
abbrev Reading (σ : Type) := Except RecordError σ

/-! ## Values -/

/-- Reads a text. -/
def readText (d : Dialect) (old : Text) : Datum → Reading Text
  | .text t => .ok t
  | .null => .ok (if d.nullClears then [] else old)
  | _ => .error .malformed

/-- Reads a truth value. -/
def readBool (d : Dialect) (old : Bool) : Datum → Reading Bool
  | .bool b => .ok b
  | .null => .ok (if d.nullClears then false else old)
  | _ => .error .malformed

/-- Reads a word. -/
def readInt (d : Dialect) (old : Int64) : Datum → Reading Int64
  | .int n => .ok n
  | .null => .ok (if d.nullClears then 0 else old)
  | _ => .error .malformed

/-- Reads a value that may be null. -/
def readOptional {σ : Type} (empty : σ) (read : σ → Datum → Reading σ) (old : Option σ) :
    Datum → Reading (Option σ)
  | .null => .ok none
  | v => (read (old.getD empty) v).map some

/-- Reads the values of a list, the first ones over those that are there already. -/
def readItems {σ : Type} (empty : σ) (read : σ → Datum → Reading σ) :
    List (Option σ) → List Datum → Reading (List (Option σ))
  | _, [] => .ok []
  | old, v :: rest => do
    let item ← readOptional empty read old.head?.join v
    let items ← readItems empty read old.tail rest
    return item :: items

/-- Reads a list that may be null. -/
def readList {σ : Type} (empty : σ) (read : σ → Datum → Reading σ)
    (old : Option (List (Option σ))) :
    Datum → Reading (Option (List (Option σ)))
  | .null => .ok none
  | .list items => (readItems empty read (old.getD []) items).map some
  | _ => .error .malformed

/-! ## Records -/

/-- The entry that a key names. -/
def entry? {φ : Type} (d : Dialect) (keys : List (Text × φ)) (key : Text) : Option φ :=
  match keys.find? fun (known, _) => known = key with
  | some (_, f) => some f
  | none =>
    if d.ignoresCase then
      (keys.find? fun (known, _) => Text.fold known = Text.fold key).map Prod.snd
    else none

/-- Reads the entries of a record one after another. -/
def readEntries {σ φ : Type} (d : Dialect) (keys : List (Text × φ))
    (set : σ → φ → Datum → Reading σ) :
    σ → List (Option Text × Datum) → Reading σ
  | s, [] => .ok s
  | _, (none, _) :: _ => .error .malformed
  | s, (some key, v) :: rest =>
    match entry? d keys key with
    | some f => do
      let s ← set s f v
      readEntries d keys set s rest
    | none =>
      if d.skipsUnknown then readEntries d keys set s rest else .error (.unknownKey key)

/-- Reads the entries of a record from a list of them in order. -/
def readInOrder {σ φ : Type} (set : σ → φ → Datum → Reading σ) :
    σ → List (Text × φ) → List Datum → Reading σ
  | s, [], [] => .ok s
  | s, (_, f) :: keys, v :: rest => do
    let s ← set s f v
    readInOrder set s keys rest
  | _, _, _ => .error .malformed

/-- Reads a record over what is there already. -/
def readRecord {σ φ : Type} (d : Dialect) (empty : σ) (keys : List (Text × φ))
    (set : σ → φ → Datum → Reading σ) (old : σ) : Datum → Reading σ
  | .record entries => readEntries d keys set old entries
  | .list items =>
    if !d.positional then .error .malformed
    else if items.isEmpty then .ok empty
    else readInOrder set old keys items
  | .null => .ok (if d.nullClears then empty else old)
  | _ => .error .malformed

end Record

open Record

/-! ## Locations -/

namespace Location

/-- The entries of a location. -/
inductive Entry where
  | file
  | offset
  | address
  | isMacro

/-- The keys of a location. -/
def keys : List (Text × Entry) :=
  [("file", .file), ("offset", .offset), ("addr", .address), ("macro", .isMacro)]

/-- Reads a location. -/
def read (d : Dialect) : Location → Datum → Reading Location :=
  readRecord d {} keys fun l e v =>
    match e with
    | .file => (readText d l.file v).map fun file => { l with file }
    | .offset => (readInt d l.offset v).map fun offset => { l with offset }
    | .address => (readText d l.address v).map fun address => { l with address }
    | .isMacro => (readBool d l.isMacro v).map fun isMacro => { l with isMacro }

/-- A location as data. -/
def datum (l : Location) : Datum :=
  .ofPresent
    [("file", Datum.unlessEmpty l.file),
     ("offset", if l.offset = 0 then none else some (.int l.offset)),
     ("addr", Datum.unlessEmpty l.address),
     ("macro", Datum.ifTrue l.isMacro)]

end Location

/-! ## Types -/

namespace Tag

/-- The entries of a tag. -/
inductive Entry where
  | isInline
  | deletedNew

/-- The keys of a tag. -/
def keys : List (Text × Entry) := [("inline", .isInline), ("deletedNew", .deletedNew)]

/-- Reads a tag. -/
def read (d : Dialect) : Tag → Datum → Reading Tag :=
  readRecord d {} keys fun t e v =>
    match e with
    | .isInline => (readBool d t.isInline v).map fun isInline => { t with isInline }
    | .deletedNew => (readBool d t.deletedNew v).map fun deletedNew => { t with deletedNew }

/-- A tag as data. -/
def datum (t : Tag) : Datum :=
  .ofPresent [("inline", Datum.ifTrue t.isInline), ("deletedNew", Datum.ifTrue t.deletedNew)]

end Tag

namespace CType

/-- The entries of a type. -/
inductive Entry where
  | kind
  | name
  | isConst
  | isVolatile
  | elem
  | tag

/-- The keys of a type. -/
def keys : List (Text × Entry) :=
  [("kind", .kind), ("name", .name), ("const", .isConst), ("volatile", .isVolatile),
   ("elem", .elem), ("tag", .tag)]

/-- Reads a type of at most `depth` levels. -/
def readUpTo (d : Dialect) : Nat → CType → Datum → Reading CType
  | 0, _, _ => .error .malformed
  | depth + 1, old, v =>
    readRecord d {} keys
      (fun t e v =>
        match e with
        | .kind => (readText d t.kind v).map fun kind => { t with kind }
        | .name => (readText d t.name v).map fun name => { t with name }
        | .isConst => (readBool d t.isConst v).map fun isConst => { t with isConst }
        | .isVolatile => (readBool d t.isVolatile v).map fun isVolatile => { t with isVolatile }
        | .elem => (readOptional {} (readUpTo d depth) t.elem v).map fun elem => { t with elem }
        | .tag => (readOptional {} (Tag.read d) t.tag v).map fun tag => { t with tag })
      old v

/-- Reads a type. -/
def read (d : Dialect) (old : CType) (v : Datum) : Reading CType := readUpTo d v.depth old v

/-- A type as data. -/
def datum : CType → Datum
  | { kind, name, isConst, isVolatile, elem, tag } =>
    .ofPresent
      [("kind", some (.text kind)),
       ("name", Datum.unlessEmpty name),
       ("const", Datum.ifTrue isConst),
       ("volatile", Datum.ifTrue isVolatile),
       ("elem",
        match elem with
        | some e => some e.datum
        | none => none),
       ("tag", tag.map Tag.datum)]

end CType

/-! ## Nodes -/

namespace Node

/-- The entries of a node. -/
inductive Entry where
  | id
  | kind
  | name
  | qualName
  | type
  | begin
  | loc
  | typeLoc
  | isMutable
  | isImplicit
  | isVariadic
  | isLambda
  | specialization
  | language
  | ref
  | inner

/-- The keys of a node. -/
def keys : List (Text × Entry) :=
  [("id", .id), ("kind", .kind), ("name", .name), ("qualName", .qualName), ("type", .type),
   ("begin", .begin), ("loc", .loc), ("typeLoc", .typeLoc), ("mutable", .isMutable),
   ("implicit", .isImplicit), ("variadic", .isVariadic), ("lambda", .isLambda),
   ("specialization", .specialization), ("language", .language), ("ref", .ref), ("inner", .inner)]

/-- Reads a node of at most `depth` levels. -/
def readUpTo (d : Dialect) : Nat → Node → Datum → Reading Node
  | 0, _, _ => .error .malformed
  | depth + 1, old, v =>
    readRecord d {} keys
      (fun n e v =>
        match e with
        | .id => (readText d n.id v).map fun id => { n with id }
        | .kind => (readText d n.kind v).map fun kind => { n with kind }
        | .name => (readText d n.name v).map fun name => { n with name }
        | .qualName => (readText d n.qualName v).map fun qualName => { n with qualName }
        | .type => (readOptional {} (CType.read d) n.type v).map fun type => { n with type }
        | .begin => (readOptional {} (Location.read d) n.begin v).map fun begin => { n with begin }
        | .loc => (readOptional {} (Location.read d) n.loc v).map fun loc => { n with loc }
        | .typeLoc =>
          (readOptional {} (Location.read d) n.typeLoc v).map fun typeLoc => { n with typeLoc }
        | .isMutable => (readBool d n.isMutable v).map fun isMutable => { n with isMutable }
        | .isImplicit => (readBool d n.isImplicit v).map fun isImplicit => { n with isImplicit }
        | .isVariadic => (readBool d n.isVariadic v).map fun isVariadic => { n with isVariadic }
        | .isLambda => (readBool d n.isLambda v).map fun isLambda => { n with isLambda }
        | .specialization =>
          (readText d n.specialization v).map fun specialization => { n with specialization }
        | .language => (readText d n.language v).map fun language => { n with language }
        | .ref => (readText d n.ref v).map fun ref => { n with ref }
        | .inner =>
          (readList {} (readUpTo d depth) (some n.inner) v).map fun inner =>
            { n with inner := inner.getD [] })
      old v

/-- Reads a node. -/
def read (d : Dialect) (old : Node) (v : Datum) : Reading Node := readUpTo d v.depth old v

mutual

/-- A node as data. -/
def datum : Node → Datum
  | { id, kind, name, qualName, type, begin, loc, typeLoc, isMutable, isImplicit, isVariadic,
      isLambda, specialization, language, ref, inner } =>
    .ofPresent
      [("id", Datum.unlessEmpty id),
       ("kind", some (.text kind)),
       ("name", Datum.unlessEmpty name),
       ("qualName", Datum.unlessEmpty qualName),
       ("type", type.map CType.datum),
       ("begin", begin.map Location.datum),
       ("loc", loc.map Location.datum),
       ("typeLoc", typeLoc.map Location.datum),
       ("mutable", Datum.ifTrue isMutable),
       ("implicit", Datum.ifTrue isImplicit),
       ("variadic", Datum.ifTrue isVariadic),
       ("lambda", Datum.ifTrue isLambda),
       ("specialization", Datum.unlessEmpty specialization),
       ("language", Datum.unlessEmpty language),
       ("ref", Datum.unlessEmpty ref),
       ("inner", if inner.isEmpty then none else some (.list (data inner)))]

/-- Nodes as data, the gaps among them as null. -/
def data : List (Option Node) → List Datum
  | [] => []
  | none :: rest => .null :: data rest
  | some n :: rest => n.datum :: data rest

end

end Node

/-! ## Units -/

namespace Input

/-- The entries of an input. -/
inductive Entry where
  | file
  | language

/-- The keys of an input. -/
def keys : List (Text × Entry) := [("file", .file), ("language", .language)]

/-- Reads an input. -/
def read (d : Dialect) : Input → Datum → Reading Input :=
  readRecord d {} keys fun i e v =>
    match e with
    | .file => (readText d i.file v).map fun file => { i with file }
    | .language => (readText d i.language v).map fun language => { i with language }

/-- An input as data. -/
def datum (i : Input) : Datum :=
  .ofPresent [("file", some (.text i.file)), ("language", some (.text i.language))]

end Input

namespace CompilationUnit

/-- The entries of a unit. -/
inductive Entry where
  | directory
  | inputs
  | inner

/-- The keys of a unit. -/
def keys : List (Text × Entry) :=
  [("directory", .directory), ("inputs", .inputs), ("inner", .inner)]

/-- Reads a unit. -/
def read (d : Dialect) : Datum → Reading CompilationUnit :=
  readRecord d {} keys
    (fun u e v =>
      match e with
      | .directory => (readText d u.directory v).map fun directory => { u with directory }
      | .inputs => (readList {} (Input.read d) u.inputs v).map fun inputs => { u with inputs }
      | .inner =>
        (readList {} (Node.read d) (some u.inner) v).map fun inner =>
          { u with inner := inner.getD [] })
    {}

/-- A unit as data. -/
def datum (u : CompilationUnit) : Datum :=
  .ofPresent
    [("directory", Datum.unlessEmpty u.directory),
     ("inputs",
      some (match u.inputs with
        | none => .null
        | some inputs => .list (inputs.map fun i => (i.map Input.datum).getD .null))),
     ("inner", if u.inner.isEmpty then none else some (.list (Node.data u.inner)))]

end CompilationUnit

end PointerMigration
