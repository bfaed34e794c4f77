/-
# Compilation units

A compilation unit is what the compiler reports for one compiled file: the file with its language,
and the tree of declarations. The tree is visited in preorder, each node with its ancestors.
-/
import PointerMigration.Log
import PointerMigration.Source.Language
import PointerMigration.Source.Node

namespace PointerMigration

/-- A file given to the compiler. -/
structure Input where
  file : Text := []
  language : Text := []
  deriving DecidableEq, Repr

/-- A compilation unit. -/
structure CompilationUnit where
  /-- The directory that file names are relative to. -/
  directory : Text := []
  /-- The files given to the compiler, if they are listed. -/
  inputs : Option (List (Option Input)) := none
  inner : List (Option Node) := []
  /-- The file that the unit was loaded from. -/
  name : Text := []
  deriving Repr

/-! ## Visits -/

/-- A visit to a node: the node, its ancestors with the innermost first, and its place among the
children of the innermost one. -/
structure Visit where
  node : Node
  ancestors : List Node
  index : Nat

namespace Visit

/-- The node around the visited one. -/
def parent (v : Visit) : Option Node := v.ancestors.head?

end Visit

mutual

/-- The visits to a node and what is inside it, in preorder. The children of a node are visited if
`descend` holds of it. -/
def Node.visits (descend : Node → Bool) (ancestors : List Node) (index : Nat) :
    Node → List Visit
  | n@{ inner, .. } =>
    ⟨n, ancestors, index⟩ ::
      if descend n then Node.visitsOf descend (n :: ancestors) 0 inner else []

/-- The visits to the nodes of a list of children, the first of which is at `index`. -/
def Node.visitsOf (descend : Node → Bool) (ancestors : List Node) (index : Nat) :
    List (Option Node) → List Visit
  | [] => []
  | none :: rest => Node.visitsOf descend ancestors (index + 1) rest
  | some n :: rest =>
    n.visits descend ancestors index ++ Node.visitsOf descend ancestors (index + 1) rest

end

/-- A unit does not have exactly one input file. -/
structure InputCountError where
  unit : Text
  count : Nat
  deriving DecidableEq, Repr

/-- The message for an error. -/
def InputCountError.message (e : InputCountError) : Text :=
  "unit " ++ e.unit ++ " has " ++ Text.ofNat e.count ++ " input files, want exactly 1"

namespace CompilationUnit

/-- The visits to the nodes of a unit, in preorder. -/
def visits (u : CompilationUnit) (descend : Node → Bool := fun _ => true) : List Visit :=
  Node.visitsOf descend [] 0 u.inner

/-- The nodes of a unit, in preorder. -/
def nodes (u : CompilationUnit) : List Node := u.visits.map Visit.node

/-! ## Ids -/

/-- The first id in a list that occurs before, the empty one apart. -/
def repeatedId? : List Text → List Text → Option Text
  | _, [] => none
  | seen, id :: rest =>
    if id.isEmpty then repeatedId? seen rest
    else if seen.contains id then some id
    else repeatedId? (id :: seen) rest

/-- The id of the first node whose id an earlier node has. -/
def duplicateId? (u : CompilationUnit) : Option Text := repeatedId? [] (u.nodes.map Node.id)

/-- The node with an id. -/
def lookup (u : CompilationUnit) (id : Text) : Option Node :=
  if id.isEmpty then none else u.nodes.find? fun n => n.id = id

/-! ## Inputs -/

/-- The input file of a unit, of which there must be exactly one. -/
def input (u : CompilationUnit) : Except (Failure InputCountError) Input :=
  match u.inputs.getD [] with
  | [some i] => .ok i
  | [none] => .error .absent
  | inputs => .error (.cause ⟨u.name, inputs.length⟩)

/-- The language of a unit, unknown if the name of it is. -/
def language (u : CompilationUnit) : Except (Failure InputCountError) Language :=
  u.input.map fun i => Language.ofName i.language

end CompilationUnit

end PointerMigration
