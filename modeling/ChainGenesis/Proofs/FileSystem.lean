import ChainGenesis.Files.Load
import ChainGenesis.Proofs.Success
import Mathlib.Data.List.TakeWhile

/-!
# What file operations keep

Nothing a build does to a file system takes anything away: directories stay directories, and a
file changes only if something is written in its place. So a path that leads somewhere leads
there ever after, and a file that was written is read back until its own place is written again.
-/

namespace ChainGenesis.FileSystem

/-! ## Reading -/

theorem read_eq_ok_iff {fs : FileSystem} {path : String} {content : ByteArray} :
    fs.read path = .ok content
      ↔ ∃ place, fs.locate path = .ok place ∧ fs.node? place = some (.file content) := by
  unfold read
  constructor
  · intro h
    split at h
    · exact absurd h (by simp)
    · rename_i place hplace
      split at h
      · rename_i found hnode
        injection h with h
        subst h
        exact ⟨place, hplace, hnode⟩
      · exact absurd h (by simp)
      · exact absurd h (by simp)
  · rintro ⟨place, hplace, hnode⟩
    rw [hplace]
    dsimp only
    rw [hnode]

/-- A path leads to a file exactly if the file can be read. -/
theorem isFile_iff {fs : FileSystem} {path : String} :
    fs.isFile path = true ↔ ∃ content, fs.read path = .ok content := by
  constructor
  · intro h
    unfold isFile at h
    split at h
    · exact absurd h (by simp)
    · rename_i place hplace
      split at h
      · rename_i content hnode
        exact ⟨content, read_eq_ok_iff.mpr ⟨place, hplace, hnode⟩⟩
      · exact absurd h (by simp)
  · rintro ⟨content, h⟩
    obtain ⟨place, hplace, hnode⟩ := read_eq_ok_iff.mp h
    unfold isFile
    rw [hplace]
    dsimp only
    rw [hnode]

/-- A path leads to the same file in both file systems, or to no file in either. -/
def SameFile (fs other : FileSystem) (path : String) : Prop :=
  ∀ content, fs.read path = .ok content ↔ other.read path = .ok content

theorem SameFile.isFile_eq {fs other : FileSystem} {path : String}
    (h : SameFile fs other path) : fs.isFile path = other.isFile path := by
  rw [Bool.eq_iff_iff, isFile_iff, isFile_iff]
  exact exists_congr h

theorem SameFile.read_eq {fs other : FileSystem} {path : String} (h : SameFile fs other path)
    (hthere : fs.isFile path = true) : fs.read path = other.read path := by
  obtain ⟨content, hread⟩ := isFile_iff.mp hthere
  rw [hread, (h content).mp hread]

theorem load_congr {α : Type} {fs other : FileSystem} {path : String}
    (h : fs.read path = other.read path) (reader : Written → Except Fault α) :
    fs.load reader path = other.load reader path := by
  unfold load
  rw [h]

theorem isFile_of_load {α : Type} {fs : FileSystem} {path : String}
    {reader : Written → Except Fault α} {value : α} (h : fs.load reader path = .ok value) :
    fs.isFile path = true := by
  unfold load at h
  split at h
  · exact absurd h (by simp)
  · rename_i content hread
    exact isFile_iff.mpr ⟨content, hread⟩

/-! ## Growing -/

/-- Everything that was there is still there, directories as directories. -/
structure Grows (before after : FileSystem) : Prop where
  workingDirectory : after.workingDirectory = before.workingDirectory
  directories : ∀ place, before.node? place = some .directory →
    after.node? place = some .directory

theorem Grows.refl (fs : FileSystem) : Grows fs fs := ⟨rfl, fun _ => id⟩

theorem Grows.trans {first second third : FileSystem} (h : Grows first second)
    (h' : Grows second third) : Grows first third where
  workingDirectory := h'.workingDirectory.trans h.workingDirectory
  directories place hplace := h'.directories place (h.directories place hplace)

theorem enter_eq_ok {fs : FileSystem} {place next : Location} {segment : List Char}
    (h : fs.enter place segment = .ok next) : fs.node? place = some .directory := by
  unfold enter at h
  split at h
  · exact absurd h (by simp)
  · exact absurd h (by simp)
  · assumption

theorem Grows.enter {before after : FileSystem} (h : Grows before after) {place next : Location}
    {segment : List Char} (hentered : before.enter place segment = .ok next) :
    after.enter place segment = .ok next := by
  have hplace := enter_eq_ok hentered
  unfold FileSystem.enter at hentered ⊢
  rw [hplace] at hentered
  rw [h.directories place hplace]
  exact hentered

theorem Grows.follow {before after : FileSystem} (h : Grows before after)
    {segments : List (List Char)} {place last : Location}
    (hfollowed : before.follow place segments = .ok last) :
    after.follow place segments = .ok last := by
  induction segments generalizing place with
  | nil => exact hfollowed
  | cons segment rest ih =>
      unfold FileSystem.follow at hfollowed ⊢
      split at hfollowed
      · rename_i next hentered
        rw [h.enter hentered]
        exact ih hfollowed
      · exact absurd hfollowed (by simp)

theorem Grows.start {before after : FileSystem} (h : Grows before after) (path : String) :
    after.start path = before.start path := by
  unfold FileSystem.start
  rw [h.workingDirectory]

/-- **A path that leads somewhere leads there in every file system that grew out of this one.** -/
theorem Grows.locate {before after : FileSystem} (h : Grows before after) {path : String}
    {place : Location} (hplace : before.locate path = .ok place) :
    after.locate path = .ok place := by
  unfold FileSystem.locate at hplace ⊢
  obtain ⟨_, hchecked, hfollowed⟩ := bind_eq_ok.mp hplace
  rw [h.start]
  exact bind_eq_ok.mpr ⟨(), hchecked, h.follow hfollowed⟩

/-! ## The last segment of a path -/

theorem follow_singleton (fs : FileSystem) (place : Location) (segment : List Char) :
    fs.follow place [segment] = fs.enter place segment := by
  unfold follow
  cases fs.enter place segment <;> rfl

theorem follow_append (fs : FileSystem) (place : Location) (segments rest : List (List Char)) :
    fs.follow place (segments ++ rest) = fs.follow place segments >>= (fs.follow · rest) := by
  induction segments generalizing place with
  | nil => rfl
  | cons segment segments ih =>
      simp only [List.cons_append, follow]
      cases fs.enter place segment with
      | ok next => exact ih next
      | error fault => rfl

/-- Empty segments stay in a directory. -/
theorem follow_blanks {fs : FileSystem} {place : Location}
    (hplace : fs.node? place = some .directory) {blanks : List (List Char)}
    (hblanks : ∀ segment ∈ blanks, segment = []) : fs.follow place blanks = .ok place := by
  induction blanks with
  | nil => rfl
  | cons segment rest ih =>
      obtain ⟨hsegment, hrest⟩ := List.forall_mem_cons.mp hblanks
      have hstay : fs.enter place segment = .ok place := by
        rw [enter, hplace, hsegment]
        rfl
      unfold follow
      rw [hstay]
      exact ih hrest

/-- An entry of a directory is one name further down. -/
theorem enter_entry {fs : FileSystem} {place next : Location} {segment : List Char}
    (hentry : isEntryName segment = true) (h : fs.enter place segment = .ok next) :
    next = place ++ [String.ofList segment] := by
  have hplace := enter_eq_ok h
  unfold isEntryName at hentry
  rw [Bool.and_eq_true, decide_eq_true_eq] at hentry
  unfold enter at h
  rw [hplace, hentry.1] at h
  dsimp only at h
  rw [Bool.not_true, if_neg (by simp), if_neg hentry.2] at h
  injection h with h
  exact h.symm

/-- A list is what is left of it without the empty segments at its end, and then these. -/
theorem trimmed_append (segments : List (List Char)) :
    segments = (segments.reverse.dropWhile List.isEmpty).reverse
      ++ (segments.reverse.takeWhile List.isEmpty).reverse := by
  rw [← List.reverse_append, List.takeWhile_append_dropWhile, List.reverse_reverse]

/-- What finding the last segment of a path does if the segment names an entry: it goes to the
directory of the entry. Behind the segment there are slashes at most. -/
theorem locateLast_eq_ok {fs : FileSystem} {path : String} {directory : Location}
    {last : List Char} {slash : Bool} (hentry : isEntryName last = true)
    (h : fs.locateLast path = .ok (directory, last, slash)) :
    ∃ front blanks, FilePath.split path.toList = front ++ last :: blanks
      ∧ (∀ segment ∈ blanks, segment = []) ∧ (slash = false → blanks = [])
      ∧ checkPath path = .ok () ∧ fs.follow (fs.start path) front = .ok directory
      ∧ fs.enter directory last = .ok (directory ++ [String.ofList last]) := by
  unfold locateLast at h
  obtain ⟨_, hchecked, h⟩ := bind_eq_ok.mp h
  have hsplit := trimmed_append (FilePath.split path.toList)
  have hblanks : ∀ segment ∈
      ((FilePath.split path.toList).reverse.takeWhile List.isEmpty).reverse, segment = [] :=
    fun segment hmem => List.isEmpty_iff.mp (List.mem_takeWhile_imp (List.mem_reverse.mp hmem))
  dsimp only at h
  generalize ((FilePath.split path.toList).reverse.takeWhile List.isEmpty).reverse = blanks
    at hsplit hblanks
  generalize ((FilePath.split path.toList).reverse.dropWhile List.isEmpty).reverse = trimmed
    at hsplit h
  obtain ⟨found, hfollowed, h⟩ := bind_eq_ok.mp h
  obtain ⟨next, hentered, h⟩ := bind_eq_ok.mp h
  injection h with h
  injection h with hfound h
  injection h with hlast hslash
  subst hfound
  rw [hlast] at hentered
  have htrimmed : trimmed ≠ [] := by
    rintro rfl
    rw [← hlast] at hentry
    exact absurd hentry (by decide)
  rw [List.getLast?_eq_some_getLast htrimmed, Option.getD_some] at hlast
  refine ⟨trimmed.dropLast, blanks, ?_, hblanks, fun hnone => ?_, hchecked, hfollowed,
    enter_entry hentry hentered ▸ hentered⟩
  · rw [hsplit, ← hlast, ← List.singleton_append, ← List.append_assoc,
      List.dropLast_concat_getLast htrimmed]
  · rw [hnone, decide_eq_false_iff_not, hsplit, List.length_append] at hslash
    exact List.length_eq_zero_iff.mp (by omega)

/-- A path leads to the entry that its last segment names, as long as slashes follow the segment
only if the entry is a directory. -/
theorem locate_of_locateLast {fs after : FileSystem} {path : String} {directory : Location}
    {last : List Char} {slash : Bool} (hentry : isEntryName last = true)
    (h : fs.locateLast path = .ok (directory, last, slash)) (hgrows : Grows fs after)
    (hnode : slash = true → after.node? (directory ++ [String.ofList last]) = some .directory) :
    after.locate path = .ok (directory ++ [String.ofList last]) := by
  obtain ⟨front, blanks, hsplit, hblanks, hnone, hchecked, hfollowed, hentered⟩ :=
    locateLast_eq_ok hentry h
  have hfront : fs.follow (fs.start path) (front ++ [last])
      = .ok (directory ++ [String.ofList last]) := by
    rw [follow_append, hfollowed, ok_bind, follow_singleton, hentered]
  unfold locate
  refine bind_eq_ok.mpr ⟨(), hchecked, ?_⟩
  rw [hgrows.start, hsplit, ← List.singleton_append, ← List.append_assoc, follow_append,
    hgrows.follow hfront, ok_bind]
  cases slash with
  | false =>
      rw [hnone rfl]
      rfl
  | true => exact follow_blanks (hnode rfl) hblanks

/-! ## Making directories -/

/-- Nothing has changed where there was anything. -/
structure Extends (before after : FileSystem) : Prop where
  workingDirectory : after.workingDirectory = before.workingDirectory
  nodes : ∀ place node, before.node? place = some node → after.node? place = some node

theorem Extends.refl (fs : FileSystem) : Extends fs fs := ⟨rfl, fun _ _ => id⟩

theorem Extends.trans {first second third : FileSystem} (h : Extends first second)
    (h' : Extends second third) : Extends first third where
  workingDirectory := h'.workingDirectory.trans h.workingDirectory
  nodes place node hnode := h'.nodes place node (h.nodes place node hnode)

theorem Extends.grows {before after : FileSystem} (h : Extends before after) :
    Grows before after := ⟨h.workingDirectory, fun place => h.nodes place .directory⟩

theorem extends_put {fs : FileSystem} {place : Location} (hplace : place ≠ [])
    (hfree : fs.node? place = none) (node : Node) : Extends fs (fs.put place node) where
  workingDirectory := rfl
  nodes other found hfound := by
    rw [node?_put fs other node hplace, if_neg]
    · exact hfound
    · rintro rfl
      exact absurd hfound (by rw [hfree]; simp)

/-- A change that has been tried and not made is out of the way, and nothing else is different. -/
theorem extends_later (fs : FileSystem) : Extends fs fs.later := ⟨rfl, fun _ _ => id⟩

theorem extends_later_put {fs : FileSystem} {place : Location} (hplace : place ≠ [])
    (hfree : fs.node? place = none) (node : Node) : Extends fs (fs.later.put place node) := by
  have hfree' : fs.later.node? place = none := hfree
  exact (extends_later fs).trans (extends_put hplace hfree' node)

theorem placeForDirectory_eq_ok {fs : FileSystem} {path : String} {place : Location}
    (h : fs.placeForDirectory path = .ok place) :
    place ≠ [] ∧ fs.node? place = none
      ∧ ∀ after, Grows fs after → after.node? place = some .directory →
        after.locate path = .ok place := by
  unfold placeForDirectory at h
  obtain ⟨⟨directory, last, slash⟩, hlast, h⟩ := bind_eq_ok.mp h
  dsimp only at h
  split at h
  · rw [throw_bind] at h
    exact absurd h throw_ne_ok
  · rename_i hentry
    rw [Bool.not_eq_true, Bool.not_eq_false'] at hentry
    split at h
    · exact absurd h throw_ne_ok
    · rename_i hfree
      injection h with h
      subst h
      exact ⟨by simp, hfree, fun after hgrows hnode =>
        locate_of_locateLast hentry hlast hgrows fun _ => hnode⟩

/-- What trying to make a directory does: nothing, or it puts one where there was nothing, and the
path leads there. -/
theorem makeDirectory_cases (fs : FileSystem) (path : String) :
    (∃ fault, fs.makeDirectory path = (fs, .error fault)
        ∨ fs.makeDirectory path = (fs.later, .error fault))
      ∨ ∃ place, place ≠ [] ∧ fs.node? place = none
        ∧ fs.makeDirectory path = (fs.later.put place .directory, .ok ())
        ∧ (fs.later.put place .directory).locate path = .ok place := by
  unfold makeDirectory
  split
  · exact .inl ⟨_, .inl rfl⟩
  · rename_i place hplace
    obtain ⟨hne, hfree, hlocate⟩ := placeForDirectory_eq_ok hplace
    split
    · refine .inr ⟨place, hne, hfree, rfl,
        hlocate _ (extends_later_put hne hfree .directory).grows ?_⟩
      rw [node?_put _ _ _ hne, if_pos rfl]
    · exact .inl ⟨_, .inr rfl⟩

theorem extends_makeDirectory (fs : FileSystem) (path : String) :
    Extends fs (fs.makeDirectory path).1 := by
  rcases makeDirectory_cases fs path with ⟨fault, h | h⟩ | ⟨place, hne, hfree, h, _⟩
  · exact h ▸ .refl fs
  · exact h ▸ extends_later fs
  · exact h ▸ extends_later_put hne hfree .directory

/-! ## One directory after another -/

/-- What making each directory of a lineage keeps, making the whole lineage does. -/
theorem makeLineage_induction {R : FileSystem → FileSystem → Prop} (hrefl : ∀ fs, R fs fs)
    (htrans : ∀ {first second third}, R first second → R second third → R first third)
    {directories : List String}
    (hstep : ∀ fs, ∀ directory ∈ directories, R fs (fs.makeDirectory directory).1)
    (fs : FileSystem) : R fs (fs.makeLineage directories).1 := by
  induction directories generalizing fs with
  | nil => exact hrefl fs
  | cons directory above ih =>
      have hfirst (fs : FileSystem) := hstep fs directory List.mem_cons_self
      have habove (fs : FileSystem) := ih
        (fun fs member hmem => hstep fs member (List.mem_cons_of_mem _ hmem)) fs
      have hmade := hfirst fs
      unfold makeLineage
      split
      · rename_i heq
        rwa [heq] at hmade
      · rename_i middle heq
        rw [heq] at hmade
        have hbefore := htrans hmade (habove middle)
        split
        · rename_i heq'
          rwa [heq'] at hbefore
        · rename_i last heq'
          rw [heq'] at hbefore
          have hlast := htrans hbefore (hfirst last)
          split
          · rename_i heq''
            rwa [heq''] at hlast
          · rename_i heq''
            rwa [heq''] at hlast
      · rename_i heq
        rwa [heq] at hmade

theorem extends_makeLineage (fs : FileSystem) (paths : List String) :
    Extends fs (fs.makeLineage paths).1 :=
  makeLineage_induction .refl .trans (fun fs path _ => extends_makeDirectory fs path) fs

/-! ## Writing -/

/-- What follows the last slash of a path. -/
def lastSegment (path : String) : List Char :=
  (FilePath.split path.toList).getLast (FilePath.split_ne_nil path.toList)

theorem placeForFile_eq_ok {fs : FileSystem} {path : String} {place : Location}
    (h : fs.placeForFile path = .ok place) :
    place.getLast? = some (String.ofList (lastSegment path))
      ∧ fs.locate path = .ok place ∧ fs.node? place ≠ some .directory := by
  unfold placeForFile at h
  obtain ⟨⟨directory, last, slash⟩, hlast, h⟩ := bind_eq_ok.mp h
  dsimp only at h
  split at h
  · rw [throw_bind] at h
    exact absurd h throw_ne_ok
  · rename_i hname
    rw [Bool.or_eq_true, not_or, Bool.not_eq_true, Bool.not_eq_true, Bool.not_eq_false'] at hname
    obtain ⟨rfl, hentry⟩ := hname
    obtain ⟨front, blanks, hsplit, _, hnone, _⟩ := locateLast_eq_ok hentry hlast
    rw [hnone rfl] at hsplit
    split at h
    · exact absurd h throw_ne_ok
    · rename_i hnode
      injection h with h
      subst h
      refine ⟨?_, locate_of_locateLast hentry hlast (.refl fs) (absurd · Bool.false_ne_true),
        fun heq => hnode heq⟩
      rw [List.getLast?_concat, lastSegment]
      simp only [hsplit, List.getLast_concat]

/-- What trying to write a file does: nothing, or a file is put at the place that the path leads to,
which has the name that the path ends with, and where there was no directory. The file is whole if
the write succeeds, and the beginning of it if the write fails. -/
theorem write_cases (fs : FileSystem) (path : String) (content : ByteArray) :
    (∃ fault, fs.write path content = (fs, .error fault)
        ∨ fs.write path content = (fs.later, .error fault))
      ∨ ∃ place, place.getLast? = some (String.ofList (lastSegment path))
        ∧ fs.locate path = .ok place ∧ fs.node? place ≠ some .directory
        ∧ (fs.write path content = (fs.later.put place (.file content), .ok ())
          ∨ ∃ fault stored, fs.write path content
            = (fs.later.put place (.file (content.extract 0 stored)), .error fault)) := by
  unfold write
  split
  · exact .inl ⟨_, .inl rfl⟩
  · rename_i place hplace
    obtain ⟨hnamed, hlocated, hnode⟩ := placeForFile_eq_ok hplace
    split
    · exact .inr ⟨place, hnamed, hlocated, hnode, .inl rfl⟩
    · exact .inl ⟨_, .inr rfl⟩
    · exact .inr ⟨place, hnamed, hlocated, hnode, .inr ⟨_, _, rfl⟩⟩

/-- Where there is no directory, that is not the root. -/
theorem ne_root {fs : FileSystem} {place : Location} (h : fs.node? place ≠ some .directory) :
    place ≠ [] := by
  rintro rfl
  exact h rfl

theorem grows_put {fs : FileSystem} {place : Location}
    (hnode : fs.node? place ≠ some .directory) (node : Node) :
    Grows fs (fs.later.put place node) where
  workingDirectory := rfl
  directories other hother := by
    rw [node?_put _ other node (ne_root hnode), if_neg]
    · exact hother
    · rintro rfl
      exact hnode hother

end ChainGenesis.FileSystem
