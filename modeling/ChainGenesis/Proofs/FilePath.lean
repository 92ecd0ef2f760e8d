import ChainGenesis.Files.FileSystem
import ChainGenesis.Text.Blank

/-!
# Absolute paths

The absolute form of a path begins with a slash, whatever the path is, as long as the
working directory has an absolute path; and that of a file system does.
-/

namespace ChainGenesis.FilePath

theorem isAbsolute_append {path : String} (h : isAbsolute path = true) (rest : String) :
    isAbsolute (path ++ rest) = true := by
  rw [isAbsolute, decide_eq_true_eq] at *
  rw [String.toList_append, List.head?_append, h]
  rfl

theorem isAbsolute_join {directory : String} (h : isAbsolute directory = true) (name : String) :
    isAbsolute (join directory name) = true := by
  unfold join
  split
  · assumption
  · split
    · exact isAbsolute_append h _
    · exact isAbsolute_append (isAbsolute_append h _) _

/-- Joining names to an absolute path, one after the other, leaves it absolute. -/
theorem isAbsolute_foldl {α : Type} (name : α → String) (names : List α) {directory : String}
    (h : isAbsolute directory = true) :
    isAbsolute (names.foldl (fun path next => join path (name next)) directory) = true := by
  induction names generalizing directory with
  | nil => exact h
  | cons next rest ih => exact ih (isAbsolute_join h _)

theorem isAbsolute_rejoin {directory : String} (h : isAbsolute directory = true)
    (path : String) : isAbsolute (rejoin directory path) = true := by
  have hjoined := isAbsolute_foldl String.ofList (names path) h
  unfold rejoin
  dsimp only
  split
  · exact isAbsolute_append hjoined _
  · exact hjoined

theorem isAbsolute_rootText (path : String) : isAbsolute (rootText path) = true := by
  unfold rootText
  split
  · rfl
  · rfl
  · rfl

/-- **The absolute form of a path is absolute.** -/
theorem isAbsolute_of_absolute? {directory path result : String}
    (hdirectory : isAbsolute directory = true) (h : absolute? directory path = some result) :
    isAbsolute result = true := by
  unfold absolute? at h
  split at h
  · exact absurd h (by simp)
  · split at h
    · injection h with h
      exact h ▸ isAbsolute_rejoin (isAbsolute_rootText path) path
    · injection h with h
      exact h ▸ isAbsolute_rejoin hdirectory path

theorem isAbsolute_workingPath (fs : FileSystem) : isAbsolute fs.workingPath = true :=
  isAbsolute_foldl id fs.workingDirectory (by decide)

/-- An absolute path is not blank. -/
theorem isBlank_of_isAbsolute {path : String} (h : isAbsolute path = true) :
    Text.isBlank path = false := by
  rw [isAbsolute, decide_eq_true_eq] at h
  -- the slash at the front is no white space
  obtain ⟨rest, heq⟩ := List.head?_eq_some_iff.mp h
  rw [Text.isBlank, heq]
  rfl

end ChainGenesis.FilePath
