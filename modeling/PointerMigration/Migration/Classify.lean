/-
# Classification

Which fields are migrated. The type of a field decides first, then where the field is declared.
-/
import PointerMigration.Migration.Settings
import PointerMigration.Migration.Verdict

namespace PointerMigration

/-- A field where it is declared: its ancestors, the innermost first, and its place among the
children of the innermost one, if it is one of them. -/
structure Site where
  field : Node
  ancestors : List Node
  index : Option Nat := none

namespace Site

/-! ## Types -/

/-- Whether a type is one that the wrapper cannot point to. -/
def isUnsupported (t : CType) : Bool :=
  match t.form with
  | .function => true
  | .memberPointer => true
  | .array => true
  | .record => t.tag.any fun tag => tag.isInline || tag.deletedNew
  | .enumeration => t.tag.any fun tag => tag.isInline || tag.deletedNew
  | _ => t.isChar

/-- Classifies a type: it must be a pointer, not an alias of one, and what it points to must be
supported behind aliases. -/
def classifyType (type : Option CType) : Checked Verdict :=
  match type with
  | none => .ok (.rejected .notPointer)
  | some t =>
    if !t.isPointer then .ok (.rejected .notPointer)
    else
      match t.elem with
      | none => Checked.breach .pointerToNothing
      | some pointee =>
        match pointee.desugar with
        | none => Checked.breach (.unresolvedPointee pointee.name)
        | some u => .ok (if isUnsupported u then .rejected .unsupportedPointee else .accepted)

/-! ## Fields -/

/-- The locations of a field that the compiler must supply. -/
structure Places where
  type : CType
  begin : Location
  name : Location
  typeStart : Location

/-- Checks that a node is a field with all that the compiler must supply. -/
def places (n : Node) : Checked Places :=
  if n.role != .field then Checked.breach (.notField n.describe)
  else
    match n.type, n.begin, n.loc, n.typeLoc with
    | none, _, _, _ => Checked.breach (.lacks n.describe .type)
    | _, none, _, _ => Checked.breach (.lacks n.describe .beginLocation)
    | _, _, none, _ => Checked.breach (.lacks n.describe .nameLocation)
    | _, _, _, none => Checked.breach (.lacks n.describe .typeLocation)
    | some type, some begin, some name, some typeStart => .ok { type, begin, name, typeStart }

/-- Whether two types start at the same place. -/
def sameStart (a b : Location) : Bool :=
  a.file = b.file && a.offset = b.offset && a.isMacro = b.isMacro

/-- Whether no field among some children starts its type at a place. -/
def isUniqueStart (start : Location) : List (Option Node) → Checked Bool
  | [] => .ok true
  | none :: _ => .error .absent
  | some n :: rest =>
    if n.role != .field then isUniqueStart start rest
    else
      match n.typeLoc with
      | none => Checked.breach (.lacks n.describe .typeLocation)
      | some l => if sameStart l start then .ok false else isUniqueStart start rest

/-- The other children of the node around a field. -/
def siblings (s : Site) : Option (List (Option Node)) :=
  s.ancestors.head?.map fun parent =>
    match s.index with
    | some i => parent.inner.eraseIdx i
    | none => parent.inner

/-- Classifies the declared type of a field: it must be supported, and no other field of the class
may share its type specifier. -/
def eligible (s : Site) : Checked Verdict := do
  let places ← places s.field
  match ← classifyType places.type with
  | .rejected r => return .rejected r
  | .accepted =>
    match s.siblings with
    | none => .error .absent
    | some siblings =>
      return if ← isUniqueStart places.typeStart siblings then .accepted else .rejected .sharedType

/-! ## Scope -/

/-- Whether the innermost linkage block around a field gives it C linkage. -/
def inExternC (s : Site) : Bool := (s.ancestors.find? fun n => n.role = .linkage).any Node.isExternC

/-- Whether a field has no text of its own. -/
def isImplicit (s : Site) : Bool :=
  s.field.isImplicit || s.ancestors.head?.any (·.isLambda) ||
    s.ancestors.any Node.isImplicitSpecialization

/-- Classifies the place of a field. The first reason to leave it alone counts. -/
def inScope (settings : Settings) (exclusions : Exclusions) (s : Site) : Checked Verdict := do
  let places ← places s.field
  let file := if places.begin.isPlain then places.begin.file else []
  return if settings.thirdParty.covers file then .rejected .thirdParty
    else if places.begin.isMacro then .rejected .inMacro
    else if s.inExternC then .rejected .inExternC
    else if s.isImplicit then .rejected .implicit
    else if exclusions.contains s.field.knownName then .rejected .excluded
    else .accepted

/-- Classifies a field: its type, and then its place. -/
def classify (settings : Settings) (exclusions : Exclusions) (s : Site) : Checked Verdict :=
  if !s.ancestors.head?.any Node.isRecord then Checked.breach (.outsideRecord s.field.describe)
  else do
    match ← s.eligible with
    | .rejected r => return .rejected r
    | .accepted => s.inScope settings exclusions

/-- Classifies the child at a place of the innermost ancestor, which may be a gap. -/
def classifyChild (settings : Settings) (exclusions : Exclusions) (ancestors : List Node)
    (index : Option Nat) : Option Node → Checked Verdict
  | some field => classify settings exclusions { field, ancestors, index }
  | none =>
    if !ancestors.head?.any Node.isRecord then
      Checked.breach (.outsideRecord (Node.describe? none))
    else .error .absent

end Site

end PointerMigration
