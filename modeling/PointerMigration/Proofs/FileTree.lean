/-
# Writing files of a tree

Writing a file gives it another content and leaves the tree as it is otherwise: every path leads
where it led before, and the content at every other place is the same. Several paths can lead to one
place, and then all of them see what is written.
-/
import PointerMigration.Files.Tree
import Mathlib.Data.List.Basic

namespace PointerMigration

namespace FileTree

/-! ## Entries of places -/

/-- Whether a file stands at a place. -/
def isAt (place : List Text) (file : List Text × Text) : Bool := file.1 = place

theorem at?_of_find?_eq_some {t : FileTree} {place : List Text} {file : List Text × Text}
    (h : t.files.find? (isAt place) = some file) : t.at? place = some (.file place file.2) := by
  unfold at?
  split
  · next p content hfind =>
      cases hfind.symm.trans h
      rfl
  · next hfind => cases hfind.symm.trans h

theorem at?_of_find?_eq_none {t : FileTree} {place : List Text}
    (h : t.files.find? (isAt place) = none) :
    t.at? place =
      if isNameless place || t.files.any (fun file => place.isPrefixOf file.1) then
        some (.directory place)
      else none := by
  unfold at?
  split
  · next p content hfind => cases hfind.symm.trans h
  · rfl

/-- What is found at a place is a file of this place, or a directory. -/
theorem at?_eq_file_iff {t : FileTree} {place p : List Text} {content : Text} :
    t.at? place = some (.file p content) ↔
      p = place ∧ ∃ file, t.files.find? (isAt place) = some file ∧ file.2 = content := by
  cases hfind : t.files.find? (isAt place) with
  | some file =>
      rw [at?_of_find?_eq_some hfind]
      simp [eq_comm]
  | none =>
      rw [at?_of_find?_eq_none hfind]
      simp

/-- An entry when the file at a place has been given another content. -/
def Entry.rewritten (place : List Text) (content : Text) : Entry → Entry
  | .file p old => .file p (if p = place then content else old)
  | .directory p => .directory p

section

variable {t : FileTree} {place : List Text} {old : Text}
variable (hfile : t.at? place = some (.file place old)) (content : Text)

include hfile

/-- The files of a tree in which one file is given another content. -/
theorem files_put : (t.put place content).files
    = t.files.map fun file => (file.1, if file.1 = place then content else file.2) := by
  obtain ⟨-, file, hfind, -⟩ := at?_eq_file_iff.mp hfile
  have hany : t.files.any (isAt place) = true :=
    List.any_eq_true.mpr ⟨file, List.mem_of_find?_eq_some hfind, List.find?_some hfind⟩
  exact congrArg FileTree.files (if_pos hany)

/-- Giving a file another content changes no other entry. -/
theorem at?_put (p : List Text) :
    (t.put place content).at? p
      = (t.at? p).map (Entry.rewritten place content) := by
  -- The places of the files are the same, so that the same file is found.
  have hfound : (t.put place content).files.find? (isAt p)
      = (t.files.find? (isAt p)).map fun file =>
          (file.1, if file.1 = place then content else file.2) := by
    rw [files_put hfile, List.find?_map]
    rfl
  cases hfind : t.files.find? (isAt p) with
  | some file =>
      have hat : file.1 = p := by simpa [isAt] using List.find?_some hfind
      rw [hfind, Option.map_some] at hfound
      rw [at?_of_find?_eq_some hfound, at?_of_find?_eq_some hfind, Option.map_some,
        Entry.rewritten, hat]
  | none =>
      rw [hfind, Option.map_none] at hfound
      rw [at?_of_find?_eq_none hfound, at?_of_find?_eq_none hfind, files_put hfile,
        List.any_map]
      show (if (isNameless p || t.files.any fun file => p.isPrefixOf file.1) = true then _ else _)
          = _
      split
      · rfl
      · rfl

/-- A path then leads where it led before. -/
theorem follow_put (e : Entry) (parts : List Text) :
    (t.put place content).follow (e.rewritten place content) parts
      = (t.follow e parts).map (Entry.rewritten place content) := by
  induction parts generalizing e with
  | nil =>
      cases e with
      | file p c => rfl
      | directory p => rfl
  | cons part rest ih =>
      cases e with
      | file p c => rfl
      | directory p =>
          show (t.put place content).follow (.directory p) (part :: rest) = _
          rw [follow, follow]
          split
          · exact ih (.directory p)
          · split
            · exact ih (.directory (placeAbove p))
            · split
              · rfl
              · rw [at?_put hfile]
                cases t.at? (p ++ [part]) with
                | none => rfl
                | some e => exact ih e

theorem find_put (path : Text) :
    (t.put place content).find path = (t.find path).map (Entry.rewritten place content) := by
  unfold find
  split
  · rfl
  · split
    · rfl
    · split
      · rfl
      · split
        · exact follow_put hfile content (.directory [[]]) _
        · exact follow_put hfile content (.directory []) _

end

/-! ## Where paths lead -/

/-- The entry that is reached from a directory, if it is a file, is the one at its place. -/
theorem at?_of_follow {t : FileTree} {p place : List Text} {parts : List Text} {content : Text}
    (h : t.follow (.directory p) parts = .ok (.file place content)) :
    t.at? place = some (.file place content) := by
  induction parts generalizing p with
  | nil => cases h
  | cons part rest ih =>
      rw [follow] at h
      split at h
      · exact ih h
      · split at h
        · exact ih h
        · split at h
          · cases h
          · cases hentry : t.at? (p ++ [part]) with
            | none =>
                rw [hentry] at h
                cases h
            | some e =>
                rw [hentry] at h
                cases e with
                | directory p' => exact ih h
                | file p' c =>
                    -- A file is the end of the path.
                    cases rest with
                    | nil =>
                        cases h
                        obtain ⟨rfl, -⟩ := at?_eq_file_iff.mp hentry
                        exact hentry
                    | cons part' rest' => cases h

/-- A path to a file leads to the entry at its place. -/
theorem at?_of_find {t : FileTree} {path : Text} {place : List Text} {content : Text}
    (h : t.find path = .ok (.file place content)) : t.at? place = some (.file place content) := by
  unfold find at h
  split at h
  · cases h
  · split at h
    · cases h
    · split at h
      · cases h
      · split at h
        · exact at?_of_follow h
        · exact at?_of_follow h

/-- The place of the file that a path leads to. -/
def fileAt? (t : FileTree) (path : Text) : Option (List Text) :=
  match t.find path with
  | .ok (.file place _) => some place
  | _ => none

theorem fileAt?_eq_some_iff {t : FileTree} {path : Text} {place : List Text} :
    t.fileAt? path = some place ↔ ∃ content, t.find path = .ok (.file place content) := by
  unfold fileAt?
  cases t.find path with
  | error reason => simp
  | ok e =>
      cases e with
      | directory p => simp
      | file p content => simp

theorem read_eq_ok_iff {t : FileTree} {path content : Text} :
    t.read path = .ok content ↔ ∃ place, t.find path = .ok (.file place content) := by
  unfold read
  cases t.find path with
  | error reason => simp
  | ok e =>
      cases e with
      | directory p => simp
      | file p c => simp

/-- A file can be read exactly if the path leads to one. -/
theorem exists_read_iff (t : FileTree) (path : Text) :
    (∃ content, t.read path = .ok content) ↔ ∃ place, t.fileAt? path = some place := by
  simp only [read_eq_ok_iff, fileAt?_eq_some_iff]
  exact exists_comm

/-- Paths to one place have one content. -/
theorem read_eq_of_fileAt? {t : FileTree} {path other : Text} {place : List Text}
    (hpath : t.fileAt? path = some place) (hother : t.fileAt? other = some place) :
    t.read path = t.read other := by
  obtain ⟨content, hpath⟩ := fileAt?_eq_some_iff.mp hpath
  obtain ⟨content', hother⟩ := fileAt?_eq_some_iff.mp hother
  have hsame := (at?_of_find hpath).symm.trans (at?_of_find hother)
  cases hsame
  rw [read_eq_ok_iff.mpr ⟨place, hpath⟩, read_eq_ok_iff.mpr ⟨place, hother⟩]

/-! ## Writing -/

section

variable {t : FileTree} {path : Text} {place : List Text}
variable (hplace : t.fileAt? path = some place) (content other : Text)

include hplace

/-- After writing, every path leads where it led before. -/
theorem find_write : (t.write path content).find other
    = (t.find other).map (Entry.rewritten place content) := by
  obtain ⟨old, hfind⟩ := fileAt?_eq_some_iff.mp hplace
  rw [write, hfind]
  exact find_put (at?_of_find hfind) content other

theorem fileAt?_write : (t.write path content).fileAt? other = t.fileAt? other := by
  rw [fileAt?, fileAt?, find_write hplace]
  cases t.find other with
  | error reason => rfl
  | ok e =>
      cases e with
      | directory p => rfl
      | file p c => rfl

/-- After writing, every path to the place has the content. -/
theorem read_write_of_eq (hother : t.fileAt? other = some place) :
    (t.write path content).read other = .ok content := by
  obtain ⟨old, hfind⟩ := fileAt?_eq_some_iff.mp hother
  rw [read_eq_ok_iff]
  refine ⟨place, ?_⟩
  rw [find_write hplace, hfind]
  simp [Except.map, Entry.rewritten]

/-- What other paths lead to is as it was. -/
theorem read_write_of_ne (hother : t.fileAt? other ≠ some place) :
    (t.write path content).read other = t.read other := by
  have hfind : (t.write path content).find other = t.find other := by
    rw [find_write hplace]
    cases hfind : t.find other with
    | error reason => rfl
    | ok e =>
        cases e with
        | directory p => rfl
        | file p c =>
            have hne : p ≠ place := by
              rintro rfl
              exact hother (fileAt?_eq_some_iff.mpr ⟨c, hfind⟩)
            simp [Except.map, Entry.rewritten, hne]
  rw [read, read, hfind]

end

end FileTree

end PointerMigration
