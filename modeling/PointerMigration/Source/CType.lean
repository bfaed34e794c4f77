/-
# Types

A resolved type as the compiler reports it. Aliases are kept: an alias carries its name and the type
it stands for. Qualifiers belong to the type they apply to, wherever they were written.
-/
import PointerMigration.Text

namespace PointerMigration

/-- What is known of the declaration behind a class or enumeration. -/
structure Tag where
  /-- Whether it was declared as part of a variable's type. -/
  isInline : Bool := false
  /-- Whether the class declares its allocation function as deleted. -/
  deletedNew : Bool := false
  deriving DecidableEq, Repr

/-- A type; the kind says which form it has. -/
structure CType where
  kind : Text := []
  name : Text := []
  isConst : Bool := false
  isVolatile : Bool := false
  elem : Option CType := none
  tag : Option Tag := none
  deriving Repr

namespace CType

/-! ## Forms -/

/-- The forms of type that matter here. -/
inductive Form where
  | builtin
  | pointer
  | memberPointer
  | function
  | array
  | record
  | enumeration
  | typedef
  | elaborated
  | auto
  | other
  deriving DecidableEq, Repr

/-- The names of the forms. -/
def formNames : List (Text × Form) :=
  [("builtin", .builtin), ("pointer", .pointer), ("memberPointer", .memberPointer),
   ("function", .function), ("array", .array), ("record", .record), ("enum", .enumeration),
   ("typedef", .typedef), ("elaborated", .elaborated), ("auto", .auto)]

/-- The form of a type. -/
def form (t : CType) : Form :=
  ((formNames.find? fun (kind, _) => kind = t.kind).map Prod.snd).getD .other

/-- Whether a type is itself a pointer, and not an alias of one. -/
def isPointer (t : CType) : Bool := t.form = .pointer

/-- The type that a pointer points to. -/
def pointee? (t : CType) : Option CType := if t.isPointer then t.elem else none

/-- The type behind aliases, if the chain of them ends in one. -/
def desugar : CType → Option CType
  | t@{ elem, .. } =>
    if t.form = .typedef || t.form = .elaborated then
      match elem with
      | some e => e.desugar
      | none => none
    else some t

/-- The names of the character types. -/
def charNames : List Text :=
  ["char", "signed char", "unsigned char", "wchar_t", "char8_t", "char16_t", "char32_t"]

/-- Whether a type is a character type of any width. -/
def isChar (t : CType) : Bool := t.form = .builtin && charNames.contains t.name

/-! ## Spelling -/

/-- How much a byte adds to the depth of template arguments. -/
def bracket (b : UInt8) : Int := if b = 60 then 1 else if b = 62 then -1 else 0

/-- Drops what precedes the last scope mark outside template arguments; `best` follows the last one
found so far. -/
def unscopedFrom : Int → Text → Text → Text
  | depth, best, b :: c :: t =>
    if b = Text.colon && c = Text.colon && depth = 0 then unscopedFrom depth t t
    else unscopedFrom (depth + bracket b) best (c :: t)
  | _, best, _ => best

/-- A name without the namespaces and classes around it. Template arguments stay as they are. -/
def unscoped (name : Text) : Text := unscopedFrom 0 name name

/-- The qualifiers of a type. -/
def qualifiers (t : CType) : List Text :=
  (if t.isConst then [Text.ofString "const"] else []) ++
    if t.isVolatile then [Text.ofString "volatile"] else []

/-- The qualifiers in front of a name. -/
def leading (t : CType) : Text := t.qualifiers.flatMap fun q => q ++ " "

/-- The qualifiers behind a pointer mark. -/
def trailing (t : CType) : Text := t.qualifiers.flatMap fun q => " " ++ q

/-- The spelling of a type, with leading qualifiers and without the scope of names. There is none
for a pointer to nothing. -/
def spell : CType → Option Text
  | t@{ elem, .. } =>
    match t.form with
    | .pointer =>
      match elem with
      | some e => e.spell.map fun inner => inner ++ "*" ++ t.trailing
      | none => none
    | .auto => some (t.leading ++ "auto")
    | .builtin => some (t.leading ++ t.name)
    | _ => some (t.leading ++ unscoped t.name)

/-- The spelling of a type that may be missing, which is then empty. -/
def spell? : Option CType → Option Text
  | some t => t.spell
  | none => some []

end CType

end PointerMigration
