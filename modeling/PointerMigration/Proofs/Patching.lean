/-
# Patching trees

The files of a patch set are patched one after another, each as the tree then is, while a
preview looks at all of them in the tree as it was. The two agree if no two names of the set
lead to one file. Otherwise the file is patched once for each name, every time from the text
that the patch before has made. An edit at an invalid position stops both, and the files
behind it are not looked at.
-/
import PointerMigration.Proofs.FileTree
import PointerMigration.Proofs.NewText

namespace PointerMigration

namespace FilePatch

/-! ## One file -/

/-- What the text of a file becomes: the new text, or the old one if there is none. -/
def patched (p : FilePatch) (old : Text) : Text :=
  match p.newText old with
  | .ok new => new
  | .error _ => old

theorem patched_of_ok {p : FilePatch} {old new : Text} (h : p.newText old = .ok new) :
    p.patched old = new := by
  rw [patched, h]

theorem patched_of_error {p : FilePatch} {old : Text} {e : PatchFailure}
    (h : p.newText old = .error e) : p.patched old = old := by
  rw [patched, h]

/-- A patch that inserts a text at the start of its file. -/
theorem newText_of_front (name text old : Text) :
    newText ⟨name, [⟨name, 0, 0, text, false⟩], []⟩ old = .ok (text ++ old) := by
  have hqueue : queue ⟨name, [⟨name, 0, 0, text, false⟩], []⟩ old = [⟨0, 0, text⟩] := rfl
  obtain ⟨hnew, -⟩ := newText_eq_ok ⟨name, [⟨name, 0, 0, text, false⟩], []⟩ old
    (by simp [Replacement.IsCounted]) (by simp [Replacement.Wraps]) (by simp [Replacement.PastEnd])
    (by rw [hqueue]; exact List.pairwise_singleton _ _)
  rw [hnew, hqueue, Splice.inOrder, List.mergeSort_singleton]
  rfl

/-- A text has no diff to itself. -/
theorem diff_self (p : FilePatch) (t : Text) : p.diff t t = [] := by
  simp [diff, Diff.unified, Diff.unifiedBy]

/-- The diff of a file of a patch between two trees. -/
def diffBetween (p : FilePatch) (directory : Text) (before after : FileTree) : Text :=
  match before.read (p.path directory), after.read (p.path directory) with
  | .ok old, .ok new => p.diff old new
  | _, _ => []

section

variable (p : FilePatch) (tree : FileTree) (directory : Text)

/-- The texts of a patch are that of the file and the one that is made of it. -/
theorem texts_of_read {old : Text} (h : tree.read (p.path directory) = .ok old) :
    p.texts tree directory = (p.newText old).map fun new => (old, new) := by
  rw [texts, h]

/-- A patch has problems with its file and leaves it, or stops, or has a new text for it. -/
theorem texts_cases :
    (∃ ps, p.texts tree directory = .error (.problems ps) ∧
      ∀ old, tree.read (p.path directory) = .ok old → ∃ ps, p.newText old = .error (.problems ps)) ∨
    (∃ old, tree.read (p.path directory) = .ok old ∧ p.newText old = .error .invalidPosition ∧
      p.texts tree directory = .error .invalidPosition) ∨
    ∃ old new, tree.read (p.path directory) = .ok old ∧ p.newText old = .ok new ∧
      p.texts tree directory = .ok (old, new) := by
  cases hread : tree.read (p.path directory) with
  | error e =>
      refine Or.inl ⟨_, by rw [texts, hread], ?_⟩
      intro old hold
      cases hold
  | ok old =>
      have htexts := p.texts_of_read tree directory hread
      cases hnew : p.newText old with
      | ok new => exact Or.inr (Or.inr ⟨old, new, rfl, hnew, by rw [htexts, hnew]; rfl⟩)
      | error e =>
          cases e with
          | invalidPosition => exact Or.inr (Or.inl ⟨old, rfl, hnew, by rw [htexts, hnew]; rfl⟩)
          | problems ps =>
              refine Or.inl ⟨ps, by rw [htexts, hnew]; rfl, ?_⟩
              rintro old' ⟨rfl⟩
              exact ⟨ps, hnew⟩

end

end FilePatch

namespace PatchSet

/-! ## Steps -/

section

variable {directory : Text} {tree : FileTree} (ps : Problems) {p : FilePatch}
  (rest : List FilePatch)

/-- After problems with a file, patching goes on with the tree as it is. -/
theorem applyFiles_of_problems {more : Problems}
    (h : p.texts tree directory = .error (.problems more)) :
    applyFiles directory tree ps (p :: rest) = applyFiles directory tree (ps.merge more) rest := by
  rw [applyFiles, h]

/-- An invalid position ends the patching, and the tree stays as it is by then. -/
theorem applyFiles_of_invalidPosition (h : p.texts tree directory = .error .invalidPosition) :
    applyFiles directory tree ps (p :: rest) = (tree, .invalidPosition) := by
  rw [applyFiles, h]

/-- A new text is written before the next file is looked at. -/
theorem applyFiles_of_ok {old new : Text} (h : p.texts tree directory = .ok (old, new)) :
    applyFiles directory tree ps (p :: rest)
      = applyFiles directory (tree.write (p.path directory) new) ps rest := by
  rw [applyFiles, h]

/-- A file with problems is not shown, and its problems are added to the others. -/
theorem diffFiles_of_problems {more : Problems}
    (h : p.texts tree directory = .error (.problems more)) :
    diffFiles tree directory ps (p :: rest) = diffFiles tree directory (ps.merge more) rest := by
  rw [diffFiles, h]

theorem diffFiles_of_invalidPosition (h : p.texts tree directory = .error .invalidPosition) :
    diffFiles tree directory ps (p :: rest) = ([], .invalidPosition) := by
  rw [diffFiles, h]

/-- A file that can be patched is shown in front of the later ones. -/
theorem diffFiles_of_ok {old new : Text} (h : p.texts tree directory = .ok (old, new)) :
    diffFiles tree directory ps (p :: rest)
      = (p.diff old new :: (diffFiles tree directory ps rest).1,
        (diffFiles tree directory ps rest).2) := by
  rw [diffFiles, h]

end

/-! ## Where patching stops -/

/-- A preview stops exactly if some file of the tree is at an invalid position. -/
theorem diffFiles_eq_invalidPosition_iff (tree : FileTree) (directory : Text) (ps : Problems)
    (files : List FilePatch) :
    (diffFiles tree directory ps files).2 = .invalidPosition ↔
      ∃ f ∈ files, ∃ old, tree.read (f.path directory) = .ok old ∧
        f.newText old = .error .invalidPosition := by
  induction files generalizing ps with
  | nil => simp [diffFiles]
  | cons f rest ih =>
      simp only [List.mem_cons, exists_eq_or_imp]
      rcases f.texts_cases tree directory with
        ⟨more, htexts, hproblems⟩ | ⟨old, hread, hnew, htexts⟩ | ⟨old, new, hread, hnew, htexts⟩
      · rw [diffFiles_of_problems ps rest htexts, ih]
        refine (or_iff_right ?_).symm
        rintro ⟨old, hread, hnew⟩
        obtain ⟨ps, hps⟩ := hproblems old hread
        rw [hps] at hnew
        cases hnew
      · rw [diffFiles_of_invalidPosition ps rest htexts]
        exact iff_of_true rfl (Or.inl ⟨old, hread, hnew⟩)
      · rw [diffFiles_of_ok ps rest htexts, ih]
        refine (or_iff_right ?_).symm
        rintro ⟨old', hread', hnew'⟩
        rw [hread] at hread'
        cases hread'
        rw [hnew] at hnew'
        cases hnew'

/-- If the text does not matter to where patching stops, it stops exactly if some file that
stops it can be read. -/
theorem applyFiles_eq_invalidPosition_iff {stops : FilePatch → Prop} {files : List FilePatch}
    (hstops : ∀ f ∈ files, ∀ old, f.newText old = .error .invalidPosition ↔ stops f)
    (tree : FileTree) (directory : Text) (ps : Problems) :
    (applyFiles directory tree ps files).2 = .invalidPosition ↔
      ∃ f ∈ files, (∃ old, tree.read (f.path directory) = .ok old) ∧ stops f := by
  induction files generalizing tree ps with
  | nil => simp [applyFiles]
  | cons f rest ih =>
      have hf := hstops f (by simp)
      have hrest := ih fun g hg => hstops g (List.mem_cons_of_mem f hg)
      simp only [List.mem_cons, exists_eq_or_imp]
      rcases f.texts_cases tree directory with
        ⟨more, htexts, hproblems⟩ | ⟨old, hread, hnew, htexts⟩ | ⟨old, new, hread, hnew, htexts⟩
      · rw [applyFiles_of_problems ps rest htexts, hrest]
        refine (or_iff_right ?_).symm
        rintro ⟨⟨old, hread⟩, hstop⟩
        obtain ⟨ps, hps⟩ := hproblems old hread
        rw [(hf old).mpr hstop] at hps
        cases hps
      · rw [applyFiles_of_invalidPosition ps rest htexts]
        exact iff_of_true rfl (Or.inl ⟨⟨old, hread⟩, (hf old).mp hnew⟩)
      · -- Writing the file leaves the same files to be read.
        obtain ⟨place, hplace⟩ := (tree.exists_read_iff _).mp ⟨old, hread⟩
        rw [applyFiles_of_ok ps rest htexts, hrest]
        simp only [FileTree.exists_read_iff, FileTree.fileAt?_write hplace]
        refine (or_iff_right ?_).symm
        rintro ⟨-, hstop⟩
        rw [(hf old).mpr hstop] at hnew
        cases hnew

/-! ## The tree after patching -/

/-- The content at a place when the files that lead there have been patched one after another. -/
def patchedAt (tree : FileTree) (directory : Text) (place : List Text) (files : List FilePatch)
    (content : Text) : Text :=
  (files.filter fun f => tree.fileAt? (f.path directory) = some place).foldl
    (fun t f => f.patched t) content

/-- A patch that leads to a place changes its content. -/
theorem patchedAt_cons_of_eq {tree : FileTree} {directory : Text} {place : List Text}
    {f : FilePatch} (h : tree.fileAt? (f.path directory) = some place) (rest : List FilePatch)
    (content : Text) :
    patchedAt tree directory place (f :: rest) content
      = patchedAt tree directory place rest (f.patched content) := by
  rw [patchedAt, List.filter_cons_of_pos (by simp [h])]
  rfl

/-- A patch that leads elsewhere does not change the content of a place. -/
theorem patchedAt_cons_of_ne {tree : FileTree} {directory : Text} {place : List Text}
    {f : FilePatch} (h : tree.fileAt? (f.path directory) ≠ some place) (rest : List FilePatch)
    (content : Text) :
    patchedAt tree directory place (f :: rest) content
      = patchedAt tree directory place rest content := by
  rw [patchedAt, List.filter_cons_of_neg (by simp [h])]
  rfl

/-- A file to which one name leads is patched once. -/
theorem patchedAt_of_unique {tree : FileTree} {directory : Text} {place : List Text}
    {files : List FilePatch} {f : FilePatch} (hnodup : files.Nodup) (hf : f ∈ files)
    (hplace : tree.fileAt? (f.path directory) = some place)
    (hothers : ∀ g ∈ files, g ≠ f → tree.fileAt? (g.path directory) ≠ some place)
    (content : Text) : patchedAt tree directory place files content = f.patched content := by
  have hfilter : (files.filter fun g => tree.fileAt? (g.path directory) = some place) = [f] := by
    have hcount : files.count f = 1 := List.count_eq_one_of_mem hnodup hf
    rw [List.filter_congr (q := fun g => decide (g = f)), List.filter_eq, hcount]
    · rfl
    · intro g hg
      by_cases hgf : g = f
      · simp [hgf, hplace]
      · simp [hgf, hothers g hg hgf]
  rw [patchedAt, hfilter]
  rfl

/-- A file to which no name leads is not patched. -/
theorem patchedAt_of_none {tree : FileTree} {directory : Text} {place : List Text}
    {files : List FilePatch} (h : ∀ f ∈ files, tree.fileAt? (f.path directory) ≠ some place)
    (content : Text) : patchedAt tree directory place files content = content := by
  rw [patchedAt, List.filter_eq_nil_iff.mpr fun f hf => by simpa using h f hf]
  rfl

/-- If patching does not stop, each file has been patched by all that lead to it, in order. -/
theorem read_applyFiles {directory path : Text} {place : List Text} {files : List FilePatch}
    {tree : FileTree} {ps : Problems} {content : Text}
    (hstop : (applyFiles directory tree ps files).2 ≠ .invalidPosition)
    (hplace : tree.fileAt? path = some place) (hread : tree.read path = .ok content) :
    (applyFiles directory tree ps files).1.read path
      = .ok (patchedAt tree directory place files content) := by
  induction files generalizing tree ps content with
  | nil => exact hread
  | cons f rest ih =>
      -- The content goes through the induction: it is what stands at the place when the rest is
      -- patched.
      rcases f.texts_cases tree directory with
        ⟨more, htexts, hproblems⟩ | ⟨old, hold, hnew, htexts⟩ | ⟨old, new, hold, hnew, htexts⟩
      · rw [applyFiles_of_problems ps rest htexts] at hstop ⊢
        rw [ih hstop hplace hread]
        by_cases hleads : tree.fileAt? (f.path directory) = some place
        · obtain ⟨ps, hps⟩ :=
            hproblems content ((FileTree.read_eq_of_fileAt? hleads hplace).trans hread)
          rw [patchedAt_cons_of_eq hleads, FilePatch.patched_of_error hps]
        · rw [patchedAt_cons_of_ne hleads]
      · rw [applyFiles_of_invalidPosition ps rest htexts] at hstop
        exact absurd rfl hstop
      · obtain ⟨own, hown⟩ := (tree.exists_read_iff _).mp ⟨old, hold⟩
        have hwhere : (tree.write (f.path directory) new).fileAt? = tree.fileAt? :=
          funext (FileTree.fileAt?_write hown new)
        have hsame : ∀ t, patchedAt (tree.write (f.path directory) new) directory place rest t
            = patchedAt tree directory place rest t := by
          intro t
          rw [patchedAt, patchedAt, hwhere]
        have hplace' : (tree.write (f.path directory) new).fileAt? path = some place := by
          rw [hwhere, hplace]
        rw [applyFiles_of_ok ps rest htexts] at hstop ⊢
        by_cases hleads : tree.fileAt? (f.path directory) = some place
        · obtain rfl : own = place := Option.some.inj (hown.symm.trans hleads)
          have hcontent : content = old := by
            rw [FileTree.read_eq_of_fileAt? hplace hown, hold] at hread
            exact (Except.ok.inj hread).symm
          rw [ih hstop hplace' (FileTree.read_write_of_eq hown new path hplace), hsame,
            patchedAt_cons_of_eq hleads, hcontent, FilePatch.patched_of_ok hnew]
        · have hne : tree.fileAt? path ≠ some own := by
            rw [hplace]
            rintro ⟨rfl⟩
            exact hleads hown
          rw [ih hstop hplace' ((FileTree.read_write_of_ne hown new path hne).trans hread), hsame,
            patchedAt_cons_of_ne hleads]

/-- What is no file of the tree is as it was. -/
theorem read_applyFiles_of_none {directory path : Text} (files : List FilePatch) {tree : FileTree}
    (ps : Problems) (hplace : tree.fileAt? path = none) :
    (applyFiles directory tree ps files).1.read path = tree.read path := by
  induction files generalizing tree ps with
  | nil => rfl
  | cons f rest ih =>
      rcases f.texts_cases tree directory with ⟨more, htexts, -⟩ | ⟨old, hold, hnew, htexts⟩ |
        ⟨old, new, hold, hnew, htexts⟩
      · rw [applyFiles_of_problems ps rest htexts, ih _ hplace]
      · rw [applyFiles_of_invalidPosition ps rest htexts]
      · obtain ⟨own, hown⟩ := (tree.exists_read_iff _).mp ⟨old, hold⟩
        rw [applyFiles_of_ok ps rest htexts, ih _ (by rw [FileTree.fileAt?_write hown, hplace]),
          FileTree.read_write_of_ne hown new path (by simp [hplace])]

/-! ## Patching and previews -/

/-- A preview depends on the files that it reads. -/
theorem diffFiles_congr {tree tree' : FileTree} {directory : Text} {files : List FilePatch}
    (h : ∀ f ∈ files, tree.read (f.path directory) = tree'.read (f.path directory))
    (ps : Problems) :
    diffFiles tree directory ps files = diffFiles tree' directory ps files := by
  induction files generalizing ps with
  | nil => rfl
  | cons f rest ih =>
      have hrest := ih fun g hg => h g (List.mem_cons_of_mem f hg)
      have htexts : f.texts tree directory = f.texts tree' directory := by
        rw [FilePatch.texts, FilePatch.texts, h f (by simp)]
      rw [diffFiles, diffFiles, htexts]
      simp only [hrest]

/-- The names of two patches do not lead to one file. -/
def LeadApart (tree : FileTree) (directory : Text) (f g : FilePatch) : Prop :=
  tree.fileAt? (f.path directory) = none ∨
    tree.fileAt? (f.path directory) ≠ tree.fileAt? (g.path directory)

instance (tree : FileTree) (directory : Text) (f g : FilePatch) :
    Decidable (LeadApart tree directory f g) := inferInstanceAs (Decidable (_ ∨ _))

/-- Of two patches that lead apart only one leads to a place. -/
theorem LeadApart.ne {tree : FileTree} {directory : Text} {f g : FilePatch} {place : List Text}
    (h : LeadApart tree directory f g) (hf : tree.fileAt? (f.path directory) = some place) :
    tree.fileAt? (g.path directory) ≠ some place := by
  intro hg
  rcases h with h | h
  · rw [hf] at h
    cases h
  · exact h (hf.trans hg.symm)

/-- Patching ends as the preview does if all files lead to different places. -/
theorem ending_applyFiles {directory : Text} {files : List FilePatch} {tree : FileTree}
    (hapart : files.Pairwise (LeadApart tree directory)) (ps : Problems) :
    (applyFiles directory tree ps files).2 = (diffFiles tree directory ps files).2 := by
  induction files generalizing tree ps with
  | nil => rfl
  | cons f rest ih =>
      obtain ⟨hfirst, hrest⟩ := List.pairwise_cons.mp hapart
      rcases f.texts_cases tree directory with ⟨more, htexts, -⟩ | ⟨old, hold, hnew, htexts⟩ |
        ⟨old, new, hold, hnew, htexts⟩
      · rw [applyFiles_of_problems ps rest htexts, diffFiles_of_problems ps rest htexts, ih hrest]
      · rw [applyFiles_of_invalidPosition ps rest htexts,
          diffFiles_of_invalidPosition ps rest htexts]
      · obtain ⟨own, hown⟩ := (tree.exists_read_iff _).mp ⟨old, hold⟩
        have hapart' : rest.Pairwise (LeadApart (tree.write (f.path directory) new) directory) := by
          refine hrest.imp fun {g g'} hgg' => ?_
          rwa [LeadApart, FileTree.fileAt?_write hown, FileTree.fileAt?_write hown]
        -- What is written is not read again.
        have hread : ∀ g ∈ rest, (tree.write (f.path directory) new).read (g.path directory)
            = tree.read (g.path directory) := by
          intro g hg
          exact FileTree.read_write_of_ne hown new _ ((hfirst g hg).ne hown)
        rw [applyFiles_of_ok ps rest htexts, diffFiles_of_ok ps rest htexts, ih hapart',
          diffFiles_congr hread]

/-- What a preview prints: for each file that can be read the diff to what it becomes. -/
theorem output_diffFiles {tree : FileTree} {directory : Text} {files : List FilePatch}
    {after : FileTree} {ps : Problems}
    (hstop : (diffFiles tree directory ps files).2 ≠ .invalidPosition)
    (hafter : ∀ f ∈ files, ∀ old, tree.read (f.path directory) = .ok old →
      after.read (f.path directory) = .ok (f.patched old)) :
    (diffFiles tree directory ps files).1.flatten
      = files.flatMap fun f => f.diffBetween directory tree after := by
  induction files generalizing ps with
  | nil => rfl
  | cons f rest ih =>
      have hf := hafter f (by simp)
      have hrest := fun g hg => hafter g (List.mem_cons_of_mem f hg)
      rw [List.flatMap_cons]
      rcases f.texts_cases tree directory with
        ⟨more, htexts, hproblems⟩ | ⟨old, hold, hnew, htexts⟩ | ⟨old, new, hold, hnew, htexts⟩
      · have hnone : f.diffBetween directory tree after = [] := by
          unfold FilePatch.diffBetween
          cases hread : tree.read (f.path directory) with
          | error e => rfl
          | ok old =>
              obtain ⟨ps, hps⟩ := hproblems old hread
              rw [hf old hread, FilePatch.patched_of_error hps]
              exact f.diff_self old
        rw [diffFiles_of_problems ps rest htexts] at hstop ⊢
        rw [ih hstop hrest, hnone]
        rfl
      · rw [diffFiles_of_invalidPosition ps rest htexts] at hstop
        exact absurd rfl hstop
      · rw [diffFiles_of_ok ps rest htexts] at hstop ⊢
        rw [List.flatten_cons, ih hstop hrest, FilePatch.diffBetween, hold, hf old hold,
          FilePatch.patched_of_ok hnew]

/-! ## Patch sets that were read -/

/-- A patch set that was read has no file twice. -/
theorem nodup_files_of_parse {stream : Text} {set : PatchSet} (h : parse stream = .ok set) :
    set.files.Nodup := by
  obtain ⟨rs, -, rfl⟩ := parse_eq_ok_iff.mp h
  exact (nodup_names_ofRecords rs).of_map

/-- A preview that meets no edit at an invalid position is finished. -/
theorem diff_ne_invalidPosition {set : PatchSet} {tree : FileTree} {directory : Text}
    (h : ∀ f ∈ set.files, ∀ old, tree.read (f.path directory) = .ok old →
      f.newText old ≠ .error .invalidPosition) :
    (set.diff tree directory).2 ≠ .invalidPosition := by
  intro hstop
  obtain ⟨f, hf, old, hread, hnew⟩ :=
    (diffFiles_eq_invalidPosition_iff tree directory {} _).mp hstop
  exact h f hf old hread hnew

section

variable {stream : Text} {set : PatchSet} (hset : parse stream = .ok set)
variable (tree : FileTree) (directory : Text)

include hset

/-- Patching ends with an invalid position if and only if a replacement in a file that can be read
wraps. -/
theorem apply_eq_invalidPosition_iff :
    (set.apply tree directory).2 = .invalidPosition ↔
      ∃ f ∈ set.files, (∃ old, tree.read (f.path directory) = .ok old) ∧
        ∃ r ∈ f.replacements, r.Wraps :=
  applyFiles_eq_invalidPosition_iff
    (fun f hf old => f.newText_eq_invalidPosition_iff old (isCounted_of_parse hset hf))
    tree directory {}

/-- The preview ends with an invalid position if and only if a replacement in a file
that can be read wraps. -/
theorem diff_eq_invalidPosition_iff :
    (set.diff tree directory).2 = .invalidPosition ↔
      ∃ f ∈ set.files, (∃ old, tree.read (f.path directory) = .ok old) ∧
        ∃ r ∈ f.replacements, r.Wraps := by
  rw [diff, diffFiles_eq_invalidPosition_iff]
  constructor
  · rintro ⟨f, hf, old, hread, hnew⟩
    exact ⟨f, hf, ⟨old, hread⟩,
      (f.newText_eq_invalidPosition_iff old (isCounted_of_parse hset hf)).mp hnew⟩
  · rintro ⟨f, hf, ⟨old, hread⟩, hwraps⟩
    exact ⟨f, hf, old, hread,
      (f.newText_eq_invalidPosition_iff old (isCounted_of_parse hset hf)).mpr hwraps⟩

variable {tree directory}
variable (hpositions : ∀ f ∈ set.files, ∀ old, tree.read (f.path directory) = .ok old →
  f.newText old ≠ .error .invalidPosition)

include hpositions

/-- Then patching is finished too, whatever the texts are by the time they are patched. -/
theorem apply_ne_invalidPosition : (set.apply tree directory).2 ≠ .invalidPosition := by
  rw [ne_eq, apply_eq_invalidPosition_iff hset, ← diff_eq_invalidPosition_iff hset]
  exact diff_ne_invalidPosition hpositions

/-- Each file is patched once for each name that leads to it, in the order of the names. -/
theorem read_apply {path content : Text} {place : List Text}
    (hplace : tree.fileAt? path = some place) (hread : tree.read path = .ok content) :
    (set.apply tree directory).1.read path
      = .ok (patchedAt tree directory place set.files content) :=
  read_applyFiles (apply_ne_invalidPosition hset hpositions) hplace hread

/-- What no name leads to is as it was. -/
theorem read_apply_of_ne {path : Text}
    (h : ∀ f ∈ set.files, ∀ place, tree.fileAt? (f.path directory) = some place →
      tree.fileAt? path ≠ some place) :
    (set.apply tree directory).1.read path = tree.read path := by
  cases hplace : tree.fileAt? path with
  | none => exact read_applyFiles_of_none set.files {} hplace
  | some place =>
      obtain ⟨content, hread⟩ := (tree.exists_read_iff path).mpr ⟨place, hplace⟩
      rw [read_apply hset hpositions hplace hread, hread, patchedAt_of_none]
      intro f hf hleads
      exact h f hf place hleads hplace

variable (hapart : ∀ f ∈ set.files, ∀ g ∈ set.files, f ≠ g → LeadApart tree directory f g)

include hapart

/-- A file to which one name leads is patched once, from its text in the old tree. -/
theorem read_apply_of_leadApart {f : FilePatch} (hf : f ∈ set.files) {old : Text}
    (hread : tree.read (f.path directory) = .ok old) :
    (set.apply tree directory).1.read (f.path directory) = .ok (f.patched old) := by
  obtain ⟨place, hplace⟩ := (tree.exists_read_iff _).mp ⟨old, hread⟩
  rw [read_apply hset hpositions hplace hread,
    patchedAt_of_unique (nodup_files_of_parse hset) hf hplace]
  intro g hg hgf
  exact (hapart f hf g hg (Ne.symm hgf)).ne hplace

omit hpositions in
/-- Patching and its preview end alike. -/
theorem ending_apply : (set.apply tree directory).2 = (set.diff tree directory).2 := by
  refine ending_applyFiles ?_ {}
  refine (nodup_files_of_parse hset).imp_of_mem ?_
  intro f g hf hg hne
  exact hapart f hf g hg hne

end

end PatchSet

/-- **Where patching stops.** A patch of a stream that can be read has no new text and no list
of problems for a file exactly if the end of one of its replacements is no word, whatever the
file holds. Patching a tree stops exactly if there is such a patch and its file can be read, and
so does the preview. -/
theorem patching_stops_iff {stream : Text} {set : PatchSet}
    (hset : PatchSet.parse stream = .ok set) :
    (∀ f ∈ set.files, ∀ old,
      f.newText old = .error .invalidPosition ↔ ∃ r ∈ f.replacements, r.Wraps) ∧
    ∀ tree directory,
      ((set.apply tree directory).2 = .invalidPosition ↔
        ∃ f ∈ set.files, (∃ old, tree.read (f.path directory) = .ok old) ∧
          ∃ r ∈ f.replacements, r.Wraps) ∧
      ((set.diff tree directory).2 = .invalidPosition ↔
        ∃ f ∈ set.files, (∃ old, tree.read (f.path directory) = .ok old) ∧
          ∃ r ∈ f.replacements, r.Wraps) := by
  refine ⟨?_, ?_⟩
  · intro f hf old
    exact f.newText_eq_invalidPosition_iff old (PatchSet.isCounted_of_parse hset hf)
  · intro tree directory
    exact ⟨PatchSet.apply_eq_invalidPosition_iff hset tree directory,
      PatchSet.diff_eq_invalidPosition_iff hset tree directory⟩

/-- The end of the first replacement is no word: it stops patching if its file is
there, and otherwise not. -/
theorem patching_stops_iff_missing :
    ∃ set, PatchSet.parse ("==== BEGIN EDITS ====\nr:::a.cc:::9223372036854775807:::1:::x\n" ++
        "r:::b.cc:::0:::0:::y\n==== END EDITS ====\n") = .ok set ∧
      (set.diff ⟨[(["a.cc"], "abc"), (["b.cc"], "de")]⟩ ".").2 = .invalidPosition ∧
      (set.apply ⟨[(["b.cc"], "de")]⟩ ".").2 ≠ .invalidPosition := by
  have hset : PatchSet.parse ("==== BEGIN EDITS ====\nr:::a.cc:::9223372036854775807:::1:::x\n" ++
      "r:::b.cc:::0:::0:::y\n==== END EDITS ====\n") = .ok _ :=
    PatchSet.parse_of_pairwise [.replace ⟨"a.cc", 9223372036854775807, 1, "x", false⟩,
      .replace ⟨"b.cc", 0, 0, "y", false⟩] rfl (by decide)
  obtain ⟨-, hstops⟩ := patching_stops_iff hset
  refine ⟨_, hset, ?_, ?_⟩
  · refine (hstops _ _).2.mpr ⟨⟨"a.cc", [⟨"a.cc", 9223372036854775807, 1, "x", false⟩], []⟩, ?_⟩
    exact ⟨by decide, ⟨"abc", by decide⟩, by decide⟩
  · rw [ne_eq, (hstops _ _).1]
    rintro ⟨f, hf, hread, hwraps⟩
    obtain ⟨place, hplace⟩ := (FileTree.exists_read_iff _ _).mp hread
    have hnone : ∀ f ∈ [(⟨"a.cc", [⟨"a.cc", 9223372036854775807, 1, "x", false⟩], []⟩ : FilePatch),
        ⟨"b.cc", [⟨"b.cc", 0, 0, "y", false⟩], []⟩], (∃ r ∈ f.replacements, r.Wraps) →
          (⟨[(["b.cc"], "de")]⟩ : FileTree).fileAt? (f.path ".") = none := by decide
    rw [hnone f hf hwraps] at hplace
    cases hplace

/-- A stream that can be read has a patch that stops at a file of three bytes, and the file behind
it is left as it was, though nothing is wrong with its own patch. -/
theorem patching_stops_before_rest :
    ∃ set, PatchSet.parse ("==== BEGIN EDITS ====\nr:::a.cc:::9223372036854775807:::1:::x\n" ++
        "r:::b.cc:::0:::0:::y\n==== END EDITS ====\n") = .ok set ∧
      (∃ f ∈ set.files, f.newText "abc" = .error .invalidPosition) ∧
      (∃ f ∈ set.files, f.path "." = "b.cc" ∧ f.newText "de" = .ok "yde") ∧
      set.apply ⟨[(["a.cc"], "abc"), (["b.cc"], "de")]⟩ "."
        = (⟨[(["a.cc"], "abc"), (["b.cc"], "de")]⟩, .invalidPosition) := by
  have hfirst : FilePatch.newText ⟨"a.cc", [⟨"a.cc", 9223372036854775807, 1, "x", false⟩], []⟩ "abc"
      = .error .invalidPosition := FilePatch.newText_of_wraps _ _ (by decide) (by decide)
  refine ⟨_, PatchSet.parse_of_pairwise [.replace ⟨"a.cc", 9223372036854775807, 1, "x", false⟩,
    .replace ⟨"b.cc", 0, 0, "y", false⟩] rfl (by decide), ⟨_, by decide, hfirst⟩,
    ⟨⟨"b.cc", [⟨"b.cc", 0, 0, "y", false⟩], []⟩, by decide, by decide,
      FilePatch.newText_of_front _ _ _⟩, ?_⟩
  apply PatchSet.applyFiles_of_invalidPosition
  refine (FilePatch.texts_of_read _ _ _ ?_).trans (congrArg (Except.map _) hfirst)
  decide

/-- **Patching does what the preview shows.** If no edit of a stream that was read is at an invalid
position, each file of a tree is patched once for each name that leads to it, in the order of the
names. If no two names lead to one file, each file that can be read is patched once, from its text
in the old tree, and is left if it has no new text; everything else is as it was; patching ends with
the problems of the preview; and the preview shows the diffs between the two trees. -/
theorem apply_eq_previewed {stream : Text} {set : PatchSet} (hset : PatchSet.parse stream = .ok set)
    (tree : FileTree) (directory : Text)
    (hpositions : ∀ f ∈ set.files, ∀ old, tree.read (f.path directory) = .ok old →
      f.newText old ≠ .error .invalidPosition) :
    (∀ path place content, tree.fileAt? path = some place → tree.read path = .ok content →
      (set.apply tree directory).1.read path
        = .ok (PatchSet.patchedAt tree directory place set.files content)) ∧
    ((∀ f ∈ set.files, ∀ g ∈ set.files, f ≠ g → PatchSet.LeadApart tree directory f g) →
      (∀ f ∈ set.files, ∀ old, tree.read (f.path directory) = .ok old →
        (set.apply tree directory).1.read (f.path directory) = .ok (f.patched old)) ∧
      (∀ path, (∀ f ∈ set.files, ∀ place, tree.fileAt? (f.path directory) = some place →
          tree.fileAt? path ≠ some place) →
        (set.apply tree directory).1.read path = tree.read path) ∧
      (∃ ps, (set.apply tree directory).2 = .finished ps ∧
        (set.diff tree directory).2 = .finished ps) ∧
      (set.diff tree directory).1.flatten
        = set.files.flatMap fun f =>
          f.diffBetween directory tree (set.apply tree directory).1) := by
  refine ⟨fun path place content => PatchSet.read_apply hset hpositions, ?_⟩
  intro hapart
  have hafter : ∀ f ∈ set.files, ∀ old, tree.read (f.path directory) = .ok old →
      (set.apply tree directory).1.read (f.path directory) = .ok (f.patched old) :=
    fun f hf old => PatchSet.read_apply_of_leadApart hset hpositions hapart hf
  have hdiff := PatchSet.diff_ne_invalidPosition hpositions
  refine ⟨hafter, fun path => PatchSet.read_apply_of_ne hset hpositions, ?_,
    PatchSet.output_diffFiles hdiff hafter⟩
  rw [PatchSet.ending_apply hset hapart]
  cases hending : (set.diff tree directory).2 with
  | finished ps => exact ⟨ps, rfl, rfl⟩
  | invalidPosition => exact absurd hending hdiff

/-- One file is patched, one has a replacement behind its end and is left, and one has no patch. -/
theorem apply_eq_previewed_mixed :
    ∃ set, PatchSet.parse ("==== BEGIN EDITS ====\nr:::a.cc:::5:::1:::x\n" ++
        "r:::d/b.cc:::0:::0:::y\n==== END EDITS ====\n") = .ok set ∧
      ∃ after ps,
        set.apply ⟨[(["a.cc"], "abc"), (["d", "b.cc"], "de"), (["c.cc"], "f")]⟩ "."
          = (after, .finished ps) ∧
        after.read "a.cc" = .ok "abc" ∧ after.read "d/b.cc" = .ok "yde" ∧
          after.read "c.cc" = .ok "f" := by
  have hset : PatchSet.parse ("==== BEGIN EDITS ====\nr:::a.cc:::5:::1:::x\n" ++
      "r:::d/b.cc:::0:::0:::y\n==== END EDITS ====\n") = .ok _ :=
    PatchSet.parse_of_pairwise [.replace ⟨"a.cc", 5, 1, "x", false⟩,
      .replace ⟨"d/b.cc", 0, 0, "y", false⟩] rfl (by decide)
  have hwraps : ∀ f ∈ [(⟨"a.cc", [⟨"a.cc", 5, 1, "x", false⟩], []⟩ : FilePatch),
      ⟨"d/b.cc", [⟨"d/b.cc", 0, 0, "y", false⟩], []⟩], ¬ ∃ r ∈ f.replacements, r.Wraps := by decide
  obtain ⟨problems, hfirst⟩ :=
    FilePatch.newText_eq_problems ⟨"a.cc", [⟨"a.cc", 5, 1, "x", false⟩], []⟩
    "abc" (by decide) (by decide) (Or.inl (by decide))
  obtain ⟨-, hpatched⟩ := apply_eq_previewed hset
    ⟨[(["a.cc"], "abc"), (["d", "b.cc"], "de"), (["c.cc"], "f")]⟩ "."
    (fun f hf old _ hnew => hwraps f hf
      ((f.newText_eq_invalidPosition_iff old (PatchSet.isCounted_of_parse hset hf)).mp hnew))
  obtain ⟨hafter, hothers, ⟨ps, happly, -⟩, -⟩ := hpatched (by decide)
  refine ⟨_, hset, _, ps, Prod.ext rfl happly, ?_, ?_, ?_⟩
  · exact (hafter ⟨"a.cc", [⟨"a.cc", 5, 1, "x", false⟩], []⟩ (by decide) "abc" (by decide)).trans
      (congrArg _ (FilePatch.patched_of_error hfirst))
  · exact (hafter ⟨"d/b.cc", [⟨"d/b.cc", 0, 0, "y", false⟩], []⟩ (by decide) "de" (by decide)).trans
      (congrArg _ (FilePatch.patched_of_ok (FilePatch.newText_of_front _ _ _)))
  · exact (hothers "c.cc" (by decide)).trans (by decide)

/-- Two names lead to one file, and each patch puts a letter in front of its text. The second patch
starts from what the first has made. -/
theorem patched_twice_by_two_names :
    ∃ set, PatchSet.parse ("==== BEGIN EDITS ====\nr:::./a.cc:::0:::0:::x\n" ++
        "r:::a.cc:::0:::0:::x\n==== END EDITS ====\n") = .ok set ∧
      (∀ f ∈ set.files, f.path "." = "a.cc" ∧ f.newText "ab" = .ok "xab") ∧
      (set.apply ⟨[(["a.cc"], "ab")]⟩ ".").1.read "a.cc" = .ok "xxab" := by
  have hset : PatchSet.parse ("==== BEGIN EDITS ====\nr:::./a.cc:::0:::0:::x\n" ++
      "r:::a.cc:::0:::0:::x\n==== END EDITS ====\n") = .ok _ :=
    PatchSet.parse_of_pairwise [.replace ⟨"./a.cc", 0, 0, "x", false⟩,
      .replace ⟨"a.cc", 0, 0, "x", false⟩] rfl (by decide)
  have hnew : ∀ f ∈ [(⟨"./a.cc", [⟨"./a.cc", 0, 0, "x", false⟩], []⟩ : FilePatch),
      ⟨"a.cc", [⟨"a.cc", 0, 0, "x", false⟩], []⟩],
      f.path "." = "a.cc" ∧ ∀ old, f.newText old = .ok ("x" ++ old) := by
    simp only [List.forall_mem_cons]
    exact ⟨⟨by decide, FilePatch.newText_of_front _ _⟩, ⟨by decide, FilePatch.newText_of_front _ _⟩,
      by simp⟩
  have htwice : PatchSet.patchedAt ⟨[(["a.cc"], "ab")]⟩ "." ["a.cc"]
      [⟨"./a.cc", [⟨"./a.cc", 0, 0, "x", false⟩], []⟩,
        ⟨"a.cc", [⟨"a.cc", 0, 0, "x", false⟩], []⟩] "ab"
        = "xxab" := by
    rw [PatchSet.patchedAt_cons_of_eq (by decide), PatchSet.patchedAt_cons_of_eq (by decide),
      FilePatch.patched_of_ok (FilePatch.newText_of_front _ _ _),
      FilePatch.patched_of_ok (FilePatch.newText_of_front _ _ _)]
    decide
  refine ⟨_, hset, fun f hf => ⟨(hnew f hf).1, (hnew f hf).2 "ab"⟩, ?_⟩
  refine (PatchSet.read_apply hset ?_ ?_ ?_).trans (congrArg Except.ok htwice)
  · intro f hf old _ hstop
    rw [(hnew f hf).2 old] at hstop
    cases hstop
  · decide
  · decide

end PointerMigration
