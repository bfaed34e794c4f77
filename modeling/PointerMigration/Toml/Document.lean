/-
# TOML documents

The tables that statements build. A table that was only mentioned on the way to another, or in a key
with dots, is implicit: it may still be given once. What was an array may be given again, and the
last counts. A key in an array of tables belongs to the last table of it.
-/
import PointerMigration.Toml.Value

namespace PointerMigration.Toml

/-- What a key stands for. -/
inductive Item where
  | text (t : Text)
  | scalar
  | array (items : List Item)
  | table (entries : List (Text × Item))
  | tables (elements : List (List (Text × Item)))
  deriving Repr

/-- The entries of a table. -/
abbrev Entries := List (Text × Item)

namespace Entries

/-- The item of a name. -/
def get? (es : Entries) (name : Text) : Option Item :=
  (es.find? fun (n, _) => n = name).map Prod.snd

/-- Gives a name an item, in the place of the one it has. -/
def set (es : Entries) (name : Text) (item : Item) : Entries :=
  if es.any fun (n, _) => n = name then es.map fun (n, old) => (n, if n = name then item else old)
  else es ++ [(name, item)]

/-- Changes the table that a key leads to. There is no result if the key does not lead to one. -/
def update (f : Entries → Option Entries) : Key → Entries → Option Entries
  | [], es => f es
  | name :: key, es =>
    match es.get? name with
    | some (.table sub) => (update f key sub).map fun sub => es.set name (.table sub)
    | some (.tables elements) =>
      match elements.getLast? with
      | some last =>
        (update f key last).map fun last => es.set name (.tables (elements.dropLast ++ [last]))
      | none => none
    | _ => none

end Entries

/-- A document in the making. -/
structure Document where
  root : Entries := []
  /-- The keys of the tables that may still be given. -/
  implicit : List Key := []
  /-- The keys that are arrays. -/
  arrays : List Key := []
  /-- The keys that were given, in order. -/
  given : List Key := []

namespace Document

/-- Notes that a key is implicit. -/
def addImplicit (d : Document) (key : Key) : Document :=
  { d with implicit := if d.implicit.contains key then d.implicit else key :: d.implicit }

/-- Notes that a key is not implicit any more. -/
def removeImplicit (d : Document) (key : Key) : Document :=
  { d with implicit := d.implicit.filter (· != key) }

/-- Notes whether a name in a table is an array. The empty name stands for the table itself. -/
def setArray (d : Document) (context : Key) (name : Text) (isArray : Bool) : Document :=
  let key := if name.isEmpty then context else context ++ [name]
  let key := if key.isEmpty then [[]] else key
  let others := d.arrays.filter (· != key)
  { d with arrays := if isArray then key :: others else others }

/-- Gives a name in a table an item. An implicit table stays as it is. -/
def setValue (d : Document) (context : Key) (name : Text) (item : Item) : Option Document :=
  let key := context ++ [name]
  let overwrites := d.arrays.contains key
  let keeps := d.implicit.contains key
  let place (es : Entries) : Option Entries :=
    match es.get? name with
    | none => some (es.set name item)
    | some _ => if overwrites then some (es.set name item) else if keeps then some es else none
  let existed (es : Entries) : Option Entries := if (es.get? name).isSome then some es else none
  (Entries.update place context d.root).map fun root =>
    let d' := { d with root }
    if (Entries.update existed context d.root).isSome then d'.removeImplicit key else d'

/-- Makes sure that the tables on the way to a key exist; `done` are the parts of it passed so
far. -/
def establish (d : Document) : Key → Key → Option Document
  | _, [] => some d
  | done, name :: rest =>
    let key := done ++ [name]
    let make (es : Entries) : Option Entries :=
      match es.get? name with
      | none => some (es.set name (.table []))
      | some _ => none
    match Entries.update make done d.root with
    | some root => establish ({ d with root }.addImplicit key) key rest
    | none => if (Entries.update some key d.root).isSome then establish d key rest else none

/-- Adds a table to the array of tables of a name. -/
def addElement (name : Text) (es : Entries) : Option Entries :=
  match es.get? name with
  | none => some (es.set name (.tables [[]]))
  | some (.tables elements) => some (es.set name (.tables (elements ++ [[]])))
  | some _ => none

/-- Gives a table, or an element of an array of tables. -/
def addTable (d : Document) (key : Key) (isElement : Bool) : Option Document := do
  let name ← key.getLast?
  let d ← d.establish [] key.dropLast
  if isElement then
    let root ← Entries.update (addElement name) key.dropLast d.root
    return { d with root }
  else d.setValue key.dropLast name (.table [])

/-- Gives the tables in front of the last part of a key with dots, and the key of the last of
them. -/
def addDotted (d : Document) (context : Key) : Key → Option (Document × Key)
  | [] => some (d, context)
  | name :: rest => do
    let key := context ++ [name]
    let d ← (d.addImplicit key).addTable key false
    addDotted d key rest

/-- The table with the last parts of some keys. -/
def flat (entries : List (Text × Item)) : Item :=
  .table (entries.foldl (fun es (name, item) => Entries.set es name item) [])

mutual

/-- The item of a value for a name in a table. -/
def evaluate (context : Key) (name : Text) (isElement : Bool) (d : Document) :
    Value → Option (Document × Item)
  | .text t => some (d, .text t)
  | .scalar => some (d, .scalar)
  | .array items => do
    let (d, items) ← evaluateItems context name (d.setArray context name true) items
    return (d, .array items)
  | .table entries => do
    let key := context ++ [name]
    let d ← (d.addImplicit key).addTable key isElement
    let (d, entries) ← evaluateEntries key d entries
    return (d, flat entries)

/-- The items of the values of an array. -/
def evaluateItems (context : Key) (name : Text) (d : Document) :
    List Value → Option (Document × List Item)
  | [] => some (d, [])
  | v :: rest => do
    let (d, item) ← evaluate context name true d v
    let (d, items) ← evaluateItems context name d rest
    return (d, item :: items)

/-- Gives the keys of a table their values, and the items of their last parts. -/
def evaluateEntries (context : Key) (d : Document) :
    List (Key × Value) → Option (Document × List (Text × Item))
  | [] => some (d, [])
  | (key, v) :: rest => do
    let name ← key.getLast?
    let (d, table) ← d.addDotted context key.dropLast
    let d := { d with given := d.given ++ [table ++ [name]] }
    let (d, item) ← evaluate table name false d v
    let d ← d.setValue table name item
    let d := d.setArray table name (match v with | .array _ => true | _ => false)
    let (d, entries) ← evaluateEntries context d rest
    return (d, (name, item) :: entries)

end

/-- The document after some statements, where keys are in the table `context`. -/
def run : Document → Key → List Statement → Option Document
  | d, _, [] => some d
  | d, context, .assign key value :: rest => do
    let (d, _) ← evaluateEntries context d [(key, value)]
    run d context rest
  | d, _, .table key :: rest => do
    let d ← d.addTable key false
    run { d.setArray key [] false with given := d.given ++ [key] } key rest
  | d, _, .element key :: rest => do
    let d ← d.addTable key true
    run { d.setArray key [] false with given := d.given ++ [key] } key rest

/-- The document of some statements. -/
def ofStatements (statements : List Statement) : Option Document := run {} [] statements

end Document

end PointerMigration.Toml
