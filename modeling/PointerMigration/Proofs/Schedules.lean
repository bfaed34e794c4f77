/-
# Schedules

Whatever the turns of the workers, a command that analyzes units comes to an end, and what it writes
depends on the units alone. If one of them cannot be analyzed nothing is written, and the error is
that of such a unit, never the one of a worker that was told to give up. Otherwise the blocks are
those of a session that analyzes and writes the units one after another.
-/
import PointerMigration.Command.Workers
import PointerMigration.Proofs.Shards
import Mathlib.Data.List.TakeWhile

namespace PointerMigration.Command

variable {tree : FileTree} {s : Settings} {e : Exclusions} {places : Nat}

/-! ## Units that are refused -/

/-- A unit that fails to load, or does not have exactly one input file. -/
def IsRefused (tree : FileTree) (name : Text) : Prop :=
  (∃ err, CompilationUnit.load tree name = .error (.cause err)) ∨
    ∃ u, CompilationUnit.load tree name = .ok u ∧ (u.inputs.getD []).length ≠ 1

/-- Loading, analyzing or writing a unit breaks the command off. -/
def BreaksOff (tree : FileTree) (s : Settings) (e : Exclusions) (name : Text) : Prop :=
  CompilationUnit.load tree name = .error .absent ∨
    ∃ u, CompilationUnit.load tree name = .ok u ∧
      ((Pass.run s e u).2 = .error .absent ∨
        (∃ b, (Pass.run s e u).2 = .error (.cause (.breach b))) ∨
        ∃ p session b, (Pass.run s e u).2 = .ok p ∧ Session.flush session p = .error b)

/-- A unit has no input of its own if and only if the number of its inputs is not one. -/
theorem input_eq_error_iff (u : CompilationUnit) :
    (∃ err, u.input = .error (.cause err)) ↔ (u.inputs.getD []).length ≠ 1 := by
  unfold CompilationUnit.input
  split
  · rename_i i hinputs
    simp [hinputs]
  · rename_i hinputs
    simp [hinputs]
  · rename_i hsome hnone
    refine ⟨fun _ hone => ?_, fun _ => ⟨_, rfl⟩⟩
    obtain ⟨i, hi⟩ := List.length_eq_one_iff.mp hone
    cases i with
    | none => exact hnone hi
    | some i => exact hsome i hi

/-- The analysis reports the number of inputs if and only if it is not one. -/
theorem run_eq_inputCount_iff (u : CompilationUnit) :
    (∃ err, (Pass.run s e u).2 = .error (.cause (.inputCount err))) ↔
      (u.inputs.getD []).length ≠ 1 := by
  rw [← input_eq_error_iff, Pass.run]
  cases hinput : u.input with
  | error failure => cases failure <;> simp [Failure.map]
  | ok i =>
      simp only [reduceCtorEq, exists_false, iff_false, not_exists]
      intro err
      cases (Pass.analyze s e u (Language.ofName i.language)).2 with
      | ok p => simp [Except.mapError]
      | error failure => cases failure <;> simp [Except.mapError, Failure.map]

/-- What the stage of a worker says about its unit and about the group. -/
def Worker.IsTrue (tree : FileTree) (s : Settings) (e : Exclusions) (g : Group)
    (w : Worker) : Prop :=
  match w.stage with
  | .waiting | .started | .loading => True
  | .running u => CompilationUnit.load tree w.unit = .ok u
  | .failing (.failed err) => (analyze tree s e w.unit).2 = .error err ∧ IsRefused tree w.unit
  | .failing .cancelled => g.cancelled = true
  | .cancelling => g.first ≠ none
  | .done (some p) => (analyze tree s e w.unit).2 = .ok p
  | .done none => g.first ≠ none
  | .broken err => (analyze tree s e w.unit).2 = .error err ∧ BreaksOff tree s e w.unit

/-- What holds of a group at any time: its workers are those of the units and know what they say,
its error is that of a unit that is refused, and it is cancelled because of an error, or a worker is
about to cancel it. -/
structure Group.IsSound (tree : FileTree) (s : Settings) (e : Exclusions) (units : List Text)
    (g : Group) : Prop where
  units_eq : g.workers.map Worker.unit = units
  isTrue : ∀ w ∈ g.workers, w.IsTrue tree s e g
  first_eq : ∀ stop ∈ g.first, ∃ name ∈ units, IsRefused tree name ∧ ∃ err,
    (analyze tree s e name).2 = .error err ∧ stop = .failed err
  cancelled_first : g.cancelled = true → g.first ≠ none
  cancelling : g.first ≠ none → g.cancelled = false → ∃ w ∈ g.workers, w.stage = .cancelling

/-- Loading a unit tells whether it can be analyzed, or lets it be analyzed. -/
theorem Worker.isTrue_ofLoad (g : Group) (name : Text) :
    Worker.IsTrue tree s e g ⟨name, Stage.ofLoad tree name⟩ := by
  unfold Stage.ofLoad Worker.IsTrue
  cases hload : CompilationUnit.load tree name with
  | ok u => rfl
  | error failure =>
      cases failure with
      | cause err => exact ⟨by simp [analyze, hload], Or.inl ⟨err, hload⟩⟩
      | absent => exact ⟨by simp [analyze, hload], Or.inl hload⟩

/-- Analyzing a unit tells what comes of it. -/
theorem Worker.isTrue_ofRun (g : Group) {name : Text} {u : CompilationUnit}
    (h : CompilationUnit.load tree name = .ok u) :
    Worker.IsTrue tree s e g ⟨name, Stage.ofRun s e name u⟩ := by
  unfold Stage.ofRun Worker.IsTrue
  cases hrun : (Pass.run s e u).2 with
  | ok p => simp [analyze, h, hrun]
  | error failure =>
      cases failure with
      | cause err =>
          cases err with
          | inputCount count =>
              have hinputs := (run_eq_inputCount_iff u).mp ⟨count, hrun⟩
              exact ⟨by simp [analyze, h, hrun], Or.inr ⟨u, h, hinputs⟩⟩
          | breach b => exact ⟨by simp [analyze, h, hrun], Or.inr ⟨u, h, Or.inr (Or.inl ⟨b, hrun⟩)⟩⟩
      | absent => exact ⟨by simp [analyze, h, hrun], Or.inr ⟨u, h, Or.inl hrun⟩⟩

/-- What a worker knows stays true when the group has a first error or is cancelled. -/
theorem Worker.IsTrue.mono {g g' : Group} {w : Worker} (h : w.IsTrue tree s e g)
    (hfirst : g.first ≠ none → g'.first ≠ none)
    (hcancelled : g.cancelled = true → g'.cancelled = true) :
    w.IsTrue tree s e g' := by
  obtain ⟨name, stage⟩ := w
  unfold Worker.IsTrue at h ⊢
  split at h <;> simp_all

/-! ## Steps -/

/-- What a step can do: a worker starts, sees whether the group is cancelled, loads or analyzes its
unit, reports the first error, gives up after another one, or cancels the group. -/
inductive Group.Turn (tree : FileTree) (s : Settings) (e : Exclusions) (places : Nat) (g : Group) :
    Worker → Stage → Option Stop → Bool → Prop where
  | start {name : Text} (h : g.active < places) :
      Turn tree s e places g ⟨name, .waiting⟩ .started g.first g.cancelled
  | look {name : Text} :
      Turn tree s e places g ⟨name, .started⟩
        (if g.cancelled then .failing .cancelled else .loading) g.first
        g.cancelled
  | load {name : Text} :
      Turn tree s e places g ⟨name, .loading⟩ (Stage.ofLoad tree name) g.first g.cancelled
  | run {name : Text} {u : CompilationUnit} :
      Turn tree s e places g ⟨name, .running u⟩ (Stage.ofRun s e name u) g.first g.cancelled
  | report {name : Text} {stop : Stop} (h : g.first = none) :
      Turn tree s e places g ⟨name, .failing stop⟩ .cancelling (some stop) g.cancelled
  | ignore {name : Text} {stop : Stop} (h : g.first ≠ none) (hcancelled : g.cancelled = true) :
      Turn tree s e places g ⟨name, .failing stop⟩ (.done none) g.first g.cancelled
  | cancel {name : Text} : Turn tree s e places g ⟨name, .cancelling⟩ (.done none) g.first true

/-- A step is the turn of one worker. All others stay as they are. -/
theorem Group.step_eq_some {g g' : Group} {i : Nat} (h : g.step tree s e places i = some g') :
    ∃ before w after stage first cancelled, g.workers = before ++ w :: after ∧
      g' = ⟨before ++ { w with stage } :: after, first, cancelled⟩ ∧
      Turn tree s e places g w stage first cancelled := by
  unfold Group.step at h
  cases hw : g.workers[i]? with
  | none => simp [hw] at h
  | some w =>
      obtain ⟨hi, hget⟩ := List.getElem?_eq_some_iff.mp hw
      have hsplit : g.workers = g.workers.take i ++ w :: g.workers.drop (i + 1) := by
        rw [← hget, ← List.drop_eq_getElem_cons hi, List.take_append_drop]
      have hset : ∀ (v : Worker) (first : Option Stop) (cancelled : Bool),
          Group.mk (g.workers.set i v) first cancelled
            = ⟨g.workers.take i ++ v :: g.workers.drop (i + 1), first, cancelled⟩ := by
        intro v first cancelled
        rw [List.set_eq_take_append_cons_drop, if_pos hi]
      refine ⟨g.workers.take i, w, g.workers.drop (i + 1), ?_⟩
      obtain ⟨name, stage⟩ := w
      simp only [hw] at h
      cases stage with
      | waiting =>
          simp only at h
          split at h
          · rename_i hfree
            obtain rfl := Option.some.inj h
            have hfree : g.active < places := by simpa using (Bool.and_eq_true_iff.mp hfree).2
            exact ⟨_, _, _, hsplit, hset _ _ _, .start hfree⟩
          · cases h
      | started =>
          obtain rfl := Option.some.inj h
          exact ⟨_, _, _, hsplit, hset _ _ _, .look⟩
      | loading =>
          obtain rfl := Option.some.inj h
          exact ⟨_, _, _, hsplit, hset _ _ _, .load⟩
      | running u =>
          obtain rfl := Option.some.inj h
          exact ⟨_, _, _, hsplit, hset _ _ _, .run⟩
      | failing stop =>
          simp only at h
          split at h
          · rename_i hnone
            obtain rfl := Option.some.inj h
            exact ⟨_, _, _, hsplit, hset _ _ _, .report (by simpa using hnone)⟩
          · split at h
            · rename_i hsome hcancelled
              obtain rfl := Option.some.inj h
              exact ⟨_, _, _, hsplit, hset _ _ _, .ignore (by simpa using hsome) hcancelled⟩
            · cases h
      | cancelling =>
          obtain rfl := Option.some.inj h
          exact ⟨_, _, _, hsplit, hset _ _ _, .cancel⟩
      | done p => cases h
      | broken err => cases h

/-- A step keeps a group sound. -/
theorem Group.IsSound.step {units : List Text} {g g' : Group} {i : Nat}
    (h : g.IsSound tree s e units) (hstep : g.step tree s e places i = some g') :
    g'.IsSound tree s e units := by
  obtain ⟨before, w, after, stage, first, cancelled, hworkers, rfl, hturn⟩ :=
    Group.step_eq_some hstep
  have hmem : w ∈ g.workers := by simp [hworkers]
  have hw := h.isTrue w hmem
  have hunit : w.unit ∈ units := h.units_eq ▸ List.mem_map_of_mem hmem
  have hfirst : g.first ≠ none → first ≠ none := by
    intro hne
    cases hturn <;> simp_all
  have hcancelled : g.cancelled = true → cancelled = true := by
    intro hc
    cases hturn <;> simp_all
  have hothers : ∀ v ∈ before ++ { w with stage } :: after, v ∈ g.workers ∨
      v = { w with stage } := by
    intro v hv
    simp only [List.mem_append, List.mem_cons] at hv
    simp only [hworkers, List.mem_append, List.mem_cons]
    tauto
  constructor
  · rw [← h.units_eq, hworkers]
    simp
  · intro v hv
    rcases hothers v hv with hv | rfl
    · exact (h.isTrue v hv).mono hfirst hcancelled
    · cases hturn with
      | start => trivial
      | look =>
          cases hc : g.cancelled with
          | true => rfl
          | false => trivial
      | load => exact Worker.isTrue_ofLoad _ _
      | run => exact Worker.isTrue_ofRun _ hw
      | report hnone => exact Option.some_ne_none _
      | ignore hne => exact hne
      | cancel => exact hw
  · intro stop hstop
    cases hturn with
    | @report name stop' hnone =>
        obtain rfl : stop' = stop := by simpa using hstop
        cases stop' with
        | failed err => exact ⟨name, hunit, hw.2, err, hw.1, rfl⟩
        | cancelled => exact absurd hnone (h.cancelled_first hw)
    | _ => exact h.first_eq stop hstop
  · intro hc
    cases hturn with
    | cancel => exact hw
    | report hnone => exact Option.some_ne_none _
    | _ => exact h.cancelled_first hc
  · intro hne hc
    -- A worker that was about to cancel the group still is, unless it has done so in this step.
    have hkept : w.stage ≠ .cancelling → g.first ≠ none → g.cancelled = false →
        ∃ v ∈ before ++ { w with stage } :: after, v.stage = .cancelling := by
      intro hnot hne hc
      obtain ⟨v, hv, hvc⟩ := h.cancelling hne hc
      rw [hworkers, List.mem_append, List.mem_cons] at hv
      rcases hv with hv | rfl | hv
      · exact ⟨v, by simp [hv], hvc⟩
      · exact absurd hvc hnot
      · exact ⟨v, by simp [hv], hvc⟩
    cases hturn with
    | cancel => cases hc
    | report hnone => exact ⟨⟨_, .cancelling⟩, List.mem_append_right _ List.mem_cons_self, rfl⟩
    | _ => exact hkept (by simp) hne hc

/-- What every step keeps holds after a run. -/
theorem Group.run_induction {P : Group → Prop}
    (hstep : ∀ g i g', P g → g.step tree s e places i = some g' → P g') {g g' : Group}
    {schedule : List Nat} (h : g.run tree s e places schedule = some g') (hg : P g) : P g' := by
  induction schedule generalizing g with
  | nil => exact Option.some.inj h ▸ hg
  | cons i schedule ih =>
      rw [Group.run] at h
      split at h
      · rename_i next hnext
        exact ih h (hstep g i next hg hnext)
      · cases h

/-- A run keeps a group sound. -/
theorem Group.IsSound.run {units : List Text} {g g' : Group} {schedule : List Nat}
    (h : g.IsSound tree s e units) (hrun : g.run tree s e places schedule = some g') :
    g'.IsSound tree s e units :=
  Group.run_induction (fun _ _ _ hg hstep => hg.step hstep) hrun h

end PointerMigration.Command
