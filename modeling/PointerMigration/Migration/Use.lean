/-
# Declarations and uses

The new declaration of an accepted field. What is replaced reaches from the start of the declaration
to the name, so that the name and what follows it stay as they are. Qualifiers of the pointer are
written in front of the wrapper.

A use of a migrated field has the wrapper type. Conversions hide that nearly everywhere. The
exceptions are variadic arguments, pointer casts, branches of a conditional and initializers of
deduced pointers: there the accessor is appended to the member name.
-/
import PointerMigration.Log
import PointerMigration.Migration.Settings
import PointerMigration.Migration.Verdict
import PointerMigration.Source.CompilationUnit

namespace PointerMigration

/-! ## Declarations -/

namespace Declaration

/-- The new spelling of the type of a field, with a space behind it. There is none for a type
that cannot be spelled. -/
def text (settings : Settings) (field : Node) : Option Text :=
  match field.type with
  | none => none
  | some t =>
    (CType.spell? t.pointee?).map fun pointee =>
      (if field.isMutable then Text.ofString "mutable " else []) ++ t.leading ++
        settings.wrapper ++ "<" ++ pointee ++ "> "

/-- The replacement of the declaration of a field. There is none if the name does not follow the
start in the same file, as when a macro supplies the name. -/
def replacement (settings : Settings) (field : Node) : Checked (Option Replacement) :=
  match field.loc with
  | none => .ok none
  | some name =>
    if !name.isPlain then .ok none
    else
      match field.begin with
      | none => .error .absent
      | some begin =>
        if name.file != begin.file || name.offset < begin.offset then .ok none
        else
          match text settings field with
          | none => .error .absent
          | some t =>
            .ok (some
              { file := begin.file, offset := begin.offset, length := name.offset - begin.offset,
                text := t, needsHeader := true })

end Declaration

namespace Use

/-! ## Where the accessor is needed -/

/-- The member expression behind at most `casts` implicit conversions. -/
def memberBehind : Nat → Option Node → Option Node
  | _, none => none
  | casts, some e =>
    match e.role with
    | .member => some e
    | .implicitCast =>
      match casts, e.inner with
      | casts + 1, [inner] => memberBehind casts inner
      | _, _ => none
    | _ => none

/-- The member expression that an expression reads, behind at most two implicit conversions. -/
def member? (e : Option Node) : Option Node := memberBehind 2 e

/-- Whether a call is to a function with an ellipsis. -/
def isVariadicCall (u : CompilationUnit) (call : Node) : Bool :=
  call.isVariadic || (u.lookup call.ref).any (·.isVariadic)

/-- Whether a type is a pointer to a deduced type. -/
def isDeducedPointer (type : Option CType) : Bool :=
  (type.bind CType.pointee?).any fun t => t.form = .auto

/-- The expression that initializes a variable: the last child, or the first in it if that
is a list in braces. -/
def initializer (v : Node) : Checked (Option Node) :=
  match v.inner.getLast? with
  | none => .ok none
  | some none => .error .absent
  | some (some e) => .ok (if e.role = .initList then e.inner.head?.join else some e)

/-- The operands of a conditional: the condition and the two branches. -/
def branches (n : Node) : Checked (Option Node × Option Node × Option Node) :=
  match n.inner with
  | [condition, yes, no] => .ok (condition, yes, no)
  | inner => Checked.breach (.operandCount n.describe inner.length)

/-- The expressions of a node that need a raw pointer. -/
def operands (u : CompilationUnit) (n : Node) : Checked (List (Option Node)) :=
  match n.role with
  | .call => .ok (if isVariadicCall u n then n.args else [])
  | .pointerCast => .ok (n.inner.take 1)
  | .conditional => (branches n).map fun (_, yes, no) => [yes, no]
  | .variable => if isDeducedPointer n.type then (initializer n).map fun e => [e] else .ok []
  | _ => .ok []

/-- The member expressions that a node uses where a raw pointer is needed. -/
def members (u : CompilationUnit) (n : Node) : Checked (List Node) :=
  (operands u n).map fun es => es.filterMap member?

/-! ## What is done about a use -/

/-- What becomes of a use. -/
inductive Outcome where
  /-- The field is not migrated. -/
  | untouched
  /-- The member name stands in a macro expansion. -/
  | inMacro (field : Text) (place : Location)
  | insertion (r : Replacement)
  deriving DecidableEq, Repr

/-- What is logged for a use. -/
def Outcome.log : Outcome → List LogEntry
  | inMacro field l =>
    [{ level := .debug, message := "skipping use in macro expansion",
       values := [("field", field), ("at", l.describe)] }]
  | _ => []

/-- The replacement that a use calls for. -/
def Outcome.replacement? : Outcome → Option Replacement
  | insertion r => some r
  | _ => none

/-- What becomes of a use of a member, where `accepted` finds the migrated field with an id. -/
def outcome (settings : Settings) (accepted : Text → Option Node) (m : Node) : Checked Outcome :=
  if m.ref.isEmpty then Checked.breach (.lacks m.describe .memberDeclaration)
  else
    match accepted m.ref with
    | none => .ok .untouched
    | some field =>
      match m.loc with
      | none => Checked.breach (.lacks m.describe .memberLocation)
      | some l =>
        if !l.isPlain then .ok (.inMacro field.knownName l)
        else
          .ok (.insertion
            { file := l.file, offset := l.offset + Int64.ofNat field.name.length,
              text := settings.accessor })

end Use

end PointerMigration
