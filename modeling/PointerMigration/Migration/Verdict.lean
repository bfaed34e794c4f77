/-
# Verdicts

What becomes of a field: it is accepted, or it is left alone for a reason. A unit that lacks what
the compiler must supply is in breach of contract, and nothing is said about it but that.
-/
import PointerMigration.Edit.Replacement
import PointerMigration.Log
import PointerMigration.Source.Node

namespace PointerMigration

/-- Why a field is left alone. -/
inductive Reason where
  | notPointer
  | unsupportedPointee
  | sharedType
  | thirdParty
  | inMacro
  | inExternC
  | implicit
  | excluded
  deriving DecidableEq, Repr

/-- The text of a reason. -/
def Reason.text : Reason → Text
  | .notPointer => "not a pointer"
  | .unsupportedPointee => "unsupported pointee type"
  | .sharedType => "type shared with another declarator"
  | .thirdParty => "third-party location"
  | .inMacro => "declared in macro expansion"
  | .inExternC => "inside extern \"C\""
  | .implicit => "implicit declaration"
  | .excluded => "listed in exclusion file"

/-- What becomes of a field. -/
inductive Verdict where
  | accepted
  | rejected (r : Reason)
  deriving DecidableEq, Repr

namespace Verdict

/-- The text of a verdict: the reason, or nothing. -/
def text : Verdict → Text
  | accepted => []
  | rejected r => r.text

/-- Whether a field is accepted. -/
def isAccepted (v : Verdict) : Bool := v = accepted

end Verdict

/-- What a node can lack. -/
inductive Missing where
  | type
  | beginLocation
  | nameLocation
  | typeLocation
  | memberDeclaration
  | memberLocation
  deriving DecidableEq, Repr

/-- The name of what a node lacks. -/
def Missing.text : Missing → Text
  | .type => "type"
  | .beginLocation => "begin location"
  | .nameLocation => "name location"
  | .typeLocation => "type location"
  | .memberDeclaration => "member declaration"
  | .memberLocation => "member location"

/-- How a unit breaks the contract between the compiler and the migration. Nodes are given
as they are printed. -/
inductive Breach where
  | pointerToNothing
  | unresolvedPointee (name : Text)
  | lacks (node : Text) (what : Missing)
  | notField (node : Text)
  | outsideRecord (node : Text)
  /-- A conditional that does not have three operands. -/
  | operandCount (node : Text) (count : Nat)
  /-- Two replacements of which neither can be left out. -/
  | overlap (a b : Replacement)
  deriving DecidableEq, Repr

/-- The message for a breach. -/
def Breach.message : Breach → Text
  | .pointerToNothing => "internal error: pointer type without pointee"
  | .unresolvedPointee name =>
    "internal error: pointee " ++ Text.quote name ++ " resolves to nothing"
  | .lacks node what => "internal error: " ++ node ++ " has no " ++ what.text
  | .notField node => "internal error: " ++ node ++ " is not a field"
  | .outsideRecord node => "internal error: " ++ node ++ " is not inside a record"
  | .operandCount node count => "malformed " ++ node ++ ": " ++ Text.ofNat count ++ " operands"
  | .overlap a b =>
    "internal error: overlapping replacements " ++ a.describe ++ " and " ++ b.describe

/-- The result of looking at a part of a unit. -/
abbrev Checked (α : Type) := Except (Failure Breach) α

/-- The failure of a unit in breach of contract. -/
def Checked.breach {α : Type} (b : Breach) : Checked α := .error (.cause b)

end PointerMigration
