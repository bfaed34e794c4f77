/-
# Nodes and their locations

A node of the tree that the compiler reports for a compilation unit. Any kind of node can occur;
the migration knows a few of them by their role. A location says where something stands in the
source: a file and an offset in it. The offset may still be given as an address, to be evaluated
against the text of the file.
-/
import PointerMigration.Source.CType
import PointerMigration.Text.Decimal

namespace PointerMigration

/-! ## Locations -/

/-- A location in a source file. -/
structure Location where
  file : Text := []
  offset : Int64 := 0
  /-- The address that the offset is to be found by, or empty. -/
  address : Text := []
  /-- Whether the location lies in a macro expansion; file and offset are then those of the
  expansion. -/
  isMacro : Bool := false
  deriving DecidableEq, Repr

namespace Location

/-- A location as it is printed. -/
def describe (l : Location) : Text :=
  l.file ++ ":#" ++ Text.ofWord l.offset ++ if l.isMacro then (" (macro)" : Text) else []

/-- Whether a location is a plain place in a file. -/
def isPlain (l : Location) : Bool := !l.file.isEmpty && !l.isMacro

/-- A location as it is printed, or a dash if there is none. -/
def describe? : Option Location → Text
  | some l => l.describe
  | none => "-"

/-- Whether there is a location and it is a plain place in a file. -/
def isPlain? (l : Option Location) : Bool := l.any isPlain

end Location

/-! ## Nodes -/

/-- A node of the tree. Its children may have gaps where the compiler reported none. -/
structure Node where
  id : Text := []
  kind : Text := []
  name : Text := []
  qualName : Text := []
  type : Option CType := none
  /-- Where the text of the node starts. -/
  begin : Option Location := none
  /-- Where its name stands. -/
  loc : Option Location := none
  /-- Where the written type of a declaration starts. -/
  typeLoc : Option Location := none
  isMutable : Bool := false
  isImplicit : Bool := false
  isVariadic : Bool := false
  isLambda : Bool := false
  /-- How a class template specialization came about. -/
  specialization : Text := []
  /-- The language of a linkage block. -/
  language : Text := []
  /-- The id of the declaration that the node refers to. -/
  ref : Text := []
  inner : List (Option Node) := []
  deriving Repr

namespace Node

/-! ## Roles -/

/-- The roles of nodes that matter to the migration. -/
inductive Role where
  | field
  | record
  | linkage
  | call
  | pointerCast
  | conditional
  | variable
  | member
  | implicitCast
  | initList
  | other
  deriving DecidableEq, Repr

/-- The kind of a field. -/
def fieldKind : Text := "FieldDecl"

/-- The kind of a class template specialization. -/
def specializationKind : Text := "ClassTemplateSpecializationDecl"

/-- The kinds of node with a role of their own. -/
def roles : List (Text × Role) :=
  [(fieldKind, .field), ("RecordDecl", .record), ("CXXRecordDecl", .record),
   (specializationKind, .record), ("ClassTemplatePartialSpecializationDecl", .record),
   ("LinkageSpecDecl", .linkage), ("CallExpr", .call), ("CXXMemberCallExpr", .call),
   ("CXXConstCastExpr", .pointerCast), ("CXXReinterpretCastExpr", .pointerCast),
   ("ConditionalOperator", .conditional), ("VarDecl", .variable), ("MemberExpr", .member),
   ("ImplicitCastExpr", .implicitCast), ("InitListExpr", .initList)]

/-- The role of a node. -/
def role (n : Node) : Role :=
  ((roles.find? fun (kind, _) => kind = n.kind).map Prod.snd).getD .other

/-- Whether a node declares a class, struct or union. -/
def isRecord (n : Node) : Bool := n.role = .record

/-- Whether a node is a class template specialization that was not written out. -/
def isImplicitSpecialization (n : Node) : Bool :=
  n.kind = specializationKind && n.specialization != "explicit"

/-- Whether a node is a block with C linkage. -/
def isExternC (n : Node) : Bool := n.role = .linkage && n.language = "C"

/-! ## Views -/

/-- A node as it is printed: its kind, its name if it has one and where it begins. -/
def describe (n : Node) : Text :=
  let named : Text :=
    if !n.qualName.isEmpty then " " ++ n.qualName
    else if !n.name.isEmpty then " " ++ n.name
    else []
  let placed : Text := match n.begin with
    | some l => " at " ++ l.describe
    | none => []
  n.kind ++ named ++ placed

/-- A node as it is printed, or a mark if there is none. -/
def describe? : Option Node → Text
  | some n => n.describe
  | none => "<nil>"

/-- The callee of a call. -/
def callee (n : Node) : Option Node := n.inner.head?.join

/-- The arguments of a call. -/
def args (n : Node) : List (Option Node) := n.inner.tail

/-- The name by which a field is known: the qualified one, or else its own. -/
def knownName (n : Node) : Text := if n.qualName.isEmpty then n.name else n.qualName

end Node

end PointerMigration
