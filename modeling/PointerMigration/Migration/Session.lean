/-
# Passes and sessions

The analysis of one unit: the verdict on each field, and the edits by file. The nodes are looked at
once, in preorder. Whether a use needs an edit is decided when every field has its verdict, so it
does not matter which comes first.

A session writes the edits of passes as an edit stream. It remembers which files have been given the
header, so that each is given it once.
-/
import PointerMigration.Edit.Stream
import PointerMigration.Migration.Classify
import PointerMigration.Migration.Use

namespace PointerMigration

/-! ## Steps with a log -/

/-- Takes a step for each of some values, up to the first that fails. The log has what the steps
before that logged. -/
def loggedSteps {α β ε : Type} (step : α → Except ε β) (log : β → List LogEntry) :
    List α → List LogEntry × Except ε (List β)
  | [] => ([], .ok [])
  | a :: rest =>
    match step a with
    | .error e => ([], .error e)
    | .ok b =>
      let (later, result) := loggedSteps step log rest
      (log b ++ later, result.map (b :: ·))

/-! ## Findings -/

/-- What is found at a node. -/
inductive Finding where
  /-- A field to migrate, with its new declaration. -/
  | accepted (field : Node) (declaration : Replacement)
  | rejected (field : Node) (reason : Reason)
  /-- A field that would be migrated if its name stood in the text of its declaration. -/
  | nameElsewhere (field : Node)
  /-- Member expressions where a raw pointer is needed. -/
  | uses (members : List Node)

namespace Finding

/-- The log entry for a field that is left alone. -/
def skipped (field : Node) (reason : Text) : LogEntry :=
  { level := .debug, message := "skipping field",
    values := [("field", field.knownName), ("reason", reason)] }

/-- What is logged for a finding. -/
def log : Finding → List LogEntry
  | accepted _ _ => []
  | rejected field reason => [skipped field reason.text]
  | nameElsewhere field => [skipped field "name not in declaration text"]
  | uses _ => []

/-- The verdict on a field. -/
def verdict? : Finding → Option (Node × Verdict)
  | accepted field _ => some (field, .accepted)
  | rejected field reason => some (field, .rejected reason)
  | nameElsewhere field => some (field, .rejected .inMacro)
  | uses _ => none

/-- The new declaration of an accepted field. -/
def declaration? : Finding → Option Replacement
  | accepted _ r => some r
  | _ => none

/-- The member expressions found. -/
def members : Finding → List Node
  | uses ms => ms
  | _ => []

/-- What is found at a field. -/
def ofField (settings : Settings) (exclusions : Exclusions) (s : Site) : Checked Finding := do
  match ← s.classify settings exclusions with
  | .rejected reason => return rejected s.field reason
  | .accepted =>
    match ← Declaration.replacement settings s.field with
    | none => return nameElsewhere s.field
    | some r => return accepted s.field r

/-- What is found at a node. -/
def ofVisit (settings : Settings) (exclusions : Exclusions) (u : CompilationUnit) (v : Visit) :
    Checked Finding :=
  if v.node.role = .field then ofField settings exclusions ⟨v.node, v.ancestors, some v.index⟩
  else (Use.members u v.node).map uses

end Finding

/-! ## Passes -/

/-- The analysis of a unit. -/
structure Pass where
  unit : Text
  language : Language
  /-- The fields with their verdicts, in preorder. -/
  verdicts : List (Node × Verdict)
  edits : List FileEdits

namespace Pass

/-- Why there is no analysis of a unit. -/
inductive Error where
  | inputCount (e : InputCountError)
  | breach (b : Breach)
  deriving DecidableEq, Repr

/-- The accepted field with an id. -/
def acceptedField? (verdicts : List (Node × Verdict)) (id : Text) : Option Node :=
  (verdicts.find? fun (n, v) => n.id = id && v.isAccepted).map Prod.fst

/-- The entry logged for a unit in a language that is not known. -/
def unknownLanguage (u : CompilationUnit) (language : Text) : LogEntry :=
  { level := .warning, message := "unknown language, output suppressed",
    values := [("unit", u.name), ("language", language)] }

/-- The entry logged at the end of an analysis. -/
def summary (p : Pass) : LogEntry :=
  { level := .debug, message := "analyzed unit",
    values :=
      [("unit", p.unit), ("lang", p.language.name), ("fields", Text.ofNat p.verdicts.length),
       ("accepted", Text.ofNat (p.verdicts.countP fun (_, v) => v.isAccepted)),
       ("files", Text.ofNat p.edits.length)] }

/-- What is found in a unit, node by node. -/
def findings (settings : Settings) (exclusions : Exclusions) (u : CompilationUnit) :
    List LogEntry × Checked (List Finding) :=
  loggedSteps (Finding.ofVisit settings exclusions u) Finding.log u.visits

/-- What becomes of the uses found in a unit. -/
def useOutcomes (settings : Settings) (found : List Finding) :
    List LogEntry × Checked (List Use.Outcome) :=
  loggedSteps (Use.outcome settings (acceptedField? (found.filterMap Finding.verdict?)))
    Use.Outcome.log (found.flatMap Finding.members)

/-- The pass with some findings and outcomes. -/
def ofFindings (unit : Text) (language : Language) (found : List Finding)
    (outcomes : List Use.Outcome) : Pass :=
  { unit, language,
    verdicts := found.filterMap Finding.verdict?,
    edits := FileEdits.ofReplacements
      (found.filterMap Finding.declaration? ++ outcomes.filterMap Use.Outcome.replacement?) }

/-- Analyzes the tree of a unit in a language. -/
def analyze (settings : Settings) (exclusions : Exclusions) (u : CompilationUnit)
    (language : Language) : List LogEntry × Checked Pass :=
  match findings settings exclusions u with
  | (log, .error e) => (log, .error e)
  | (log, .ok found) =>
    match useOutcomes settings found with
    | (later, .error e) => (log ++ later, .error e)
    | (later, .ok outcomes) =>
      let pass := ofFindings u.name language found outcomes
      (log ++ later ++ [pass.summary], .ok pass)

/-- Analyzes a unit, which must have exactly one input file. -/
def run (settings : Settings) (exclusions : Exclusions) (u : CompilationUnit) :
    List LogEntry × Except (Failure Error) Pass :=
  match u.input with
  | .error e => ([], .error (e.map .inputCount))
  | .ok input =>
    let language := Language.ofName input.language
    let start := if language = .unknown then [unknownLanguage u input.language] else []
    let (log, result) := analyze settings exclusions u language
    (start ++ log, result.mapError fun e => e.map .breach)

end Pass

/-! ## Sessions -/

/-- A session: the header of the wrapper, and the files that have been given it. -/
structure Session where
  header : Text
  included : List Text := []
  deriving DecidableEq, Repr

namespace Session

/-- The entry logged for a pass of which nothing is written. -/
def suppressed (p : Pass) : LogEntry :=
  { level := .debug, message := "suppressing output",
    values := [("unit", p.unit), ("lang", p.language.name)] }

/-- What is logged when a pass is written. -/
def flushLog (p : Pass) : List LogEntry := if p.language.hasClasses then [] else [suppressed p]

/-- The block of a pass, and the session after it. Nothing is written for a language without class
templates, and none of a pass with replacements that overlap. -/
def flush (s : Session) (p : Pass) : Except Breach (Text × Session) :=
  if !p.language.hasClasses then .ok ([], s)
  else
    match FileEdits.overlap? p.edits with
    | some (a, b) => .error (.overlap a b)
    | none =>
      let (records, included) :=
        EditStream.records s.header s.included (p.edits.flatMap FileEdits.replacements)
      .ok (EditStream.block records, { s with included })

end Session

end PointerMigration
