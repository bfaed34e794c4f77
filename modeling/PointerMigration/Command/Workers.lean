/-
# Workers

Units are analyzed by workers that take turns in any order. A worker starts when a place is free,
gives up if the group has been cancelled, and otherwise loads and analyzes its unit. The first error
that is reported cancels the group. When all workers are done and no error has been reported, the
passes are written in the order of the units.
-/
import PointerMigration.Command.Run

namespace PointerMigration.Command

/-- Why a worker gives up. -/
inductive Stop where
  | failed (e : Error)
  | cancelled
  deriving DecidableEq, Repr

/-- How far a worker has come. -/
inductive Stage where
  | waiting
  /-- It has a place and is about to see whether the group has been cancelled. -/
  | started
  | loading
  | running (u : CompilationUnit)
  /-- It gives up and is about to report why. -/
  | failing (stop : Stop)
  /-- Its error is the one of the group, which it is about to cancel. -/
  | cancelling
  /-- It has given back its place, and left a pass if it has not given up. -/
  | done (p : Option Pass)
  /-- It has come upon something that ends the whole command. -/
  | broken (e : Error)

/-- A worker and its unit. -/
structure Worker where
  unit : Text
  stage : Stage

/-- Workers, the first error reported by one of them, and whether they have been told to give up. -/
structure Group where
  workers : List Worker
  first : Option Stop := none
  cancelled : Bool := false

/-- How a command ends. -/
inductive Ending where
  /-- Everything has been written. -/
  | written (output : Text)
  /-- Nothing is written, since a worker has reported this. -/
  | refused (stop : Stop)
  /-- Something ended the whole command when this had been written. -/
  | brokenOff (e : Error) (output : Text)
  deriving DecidableEq, Repr

/-- What has been written at the end of a command. -/
def Ending.output : Ending → Text
  | written output | brokenOff _ output => output
  | refused _ => []

namespace Stage

/-- Whether a worker has a place in its group. -/
def isActive : Stage → Bool
  | waiting | done _ | broken _ => false
  | _ => true

/-- Whether a worker has not started. -/
def isWaiting : Stage → Bool
  | waiting => true
  | _ => false

/-- Whether a worker is done. -/
def isDone : Stage → Bool
  | done _ => true
  | _ => false

/-- What comes of loading a unit. -/
def ofLoad (tree : FileTree) (name : Text) : Stage :=
  match CompilationUnit.load tree name with
  | .ok u => running u
  | .error (.cause e) => failing (.failed (.load e))
  | .error .absent => broken .absent

/-- What comes of analyzing a unit. -/
def ofRun (s : Settings) (e : Exclusions) (name : Text) (u : CompilationUnit) : Stage :=
  match (Pass.run s e u).2 with
  | .ok p => done (some p)
  | .error (.cause (.inputCount e)) => failing (.failed (.inputCount name e))
  | .error (.cause (.breach b)) => broken (.breach b)
  | .error .absent => broken .absent

end Stage

namespace Group

/-- The number of workers that have a place. -/
def active (g : Group) : Nat := g.workers.countP fun w => w.stage.isActive

/-- The group after a worker has come to a stage. -/
def put (g : Group) (i : Nat) (w : Worker) (stage : Stage) : Group :=
  { g with workers := g.workers.set i { w with stage } }

/-- The group after the next step of a worker, if it can make one. Workers start in the
order of their units. An error that is not the first can be reported only when the group
has been cancelled. -/
def step (tree : FileTree) (s : Settings) (e : Exclusions) (places : Nat) (g : Group) (i : Nat) :
    Option Group :=
  match g.workers[i]? with
  | none => none
  | some w =>
    match w.stage with
    | .waiting =>
      if (g.workers.take i).all (fun v => !v.stage.isWaiting) && g.active < places then
        some (g.put i w .started)
      else none
    | .started => some (g.put i w (if g.cancelled then .failing .cancelled else .loading))
    | .loading => some (g.put i w (Stage.ofLoad tree w.unit))
    | .running u => some (g.put i w (Stage.ofRun s e w.unit u))
    | .failing stop =>
      if g.first.isNone then some { g.put i w .cancelling with first := some stop }
      else if g.cancelled then some (g.put i w (.done none))
      else none
    | .cancelling => some { g.put i w (.done none) with cancelled := true }
    | .done _ => none
    | .broken _ => none

/-- The group after a schedule, which says whose turn it is in each step. -/
def run (tree : FileTree) (s : Settings) (e : Exclusions) (places : Nat) :
    Group → List Nat → Option Group
  | g, [] => some g
  | g, i :: schedule =>
    match g.step tree s e places i with
    | some g => g.run tree s e places schedule
    | none => none

/-- The passes that workers have left. -/
def passes (g : Group) : List Pass :=
  g.workers.filterMap fun w =>
    match w.stage with
    | .done p => p
    | _ => none

/-- What comes of writing passes. -/
def writeAll (s : Settings) (passes : List Pass) : Ending :=
  match flushAll { header := s.header } passes with
  | (_, output, none) => .written output
  | (_, output, some e) => .brokenOff e output

/-- How the command ends when all workers are done. -/
def ending (s : Settings) (g : Group) : Ending :=
  match g.first with
  | some stop => .refused stop
  | none => writeAll s g.passes

/-- How a command ends: all workers are done, or one of them breaks it off. -/
def Ends (s : Settings) (g : Group) (o : Ending) : Prop :=
  (∃ w ∈ g.workers, ∃ e, w.stage = .broken e ∧ o = .brokenOff e []) ∨
    (∀ w ∈ g.workers, w.stage.isDone = true) ∧ o = g.ending s

end Group

end PointerMigration.Command
