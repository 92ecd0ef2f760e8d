import ChainGenesis.Cli.Run
import ChainGenesis.Proofs.Build.OnDisk

/-!
# What a failure leaves on disk

A build command that fails before it writes leaves everything as it was. One that fails while it
writes leaves the artifacts that were written before, whole, the beginning of the one that failed,
if it came to that, and some directories that were made on the way. Nothing else is different from
before, wherever the artifacts are to go and at whatever point the system gives up.
-/

namespace ChainGenesis

/-! ## Directories above a path -/

/-- A path is a directory of another, of its directory, and so on. -/
inductive FilePath.Above : String → String → Prop where
  | parent {path directory : String} (h : FilePath.parent? path = some directory) :
      Above directory path
  | further {path directory above : String} (h : Above directory path)
      (habove : FilePath.parent? directory = some above) : Above above path

/-- The lineage of the directory of a path is above the path. -/
theorem FilePath.Above.lineage {path directory member : String} {steps : Nat}
    (h : FilePath.Above directory path) (hmem : member ∈ FileSystem.lineage steps directory) :
    FilePath.Above member path := by
  induction steps generalizing directory with
  | zero => exact absurd hmem (by simp [FileSystem.lineage])
  | succ steps ih =>
      unfold FileSystem.lineage at hmem
      split at hmem
      · exact absurd hmem (by simp)
      · split at hmem
        · exact List.mem_singleton.mp hmem ▸ h
        · rename_i above habove
          rcases List.mem_cons.mp hmem with rfl | hmem
          · exact h
          · exact ih (h.further habove) hmem

namespace FileSystem

/-! ## Changes -/

/-- What the paths of files that were tried can explain. A place is different only if one of the
paths leads there, or if a directory was made there that is above one of them. -/
structure Touched (before after : FileSystem) (paths : List String) : Prop where
  grows : Grows before after
  changed : ∀ place, after.node? place ≠ before.node? place →
    (∃ path ∈ paths, after.locate path = .ok place)
      ∨ before.node? place = none ∧ after.node? place = some .directory
        ∧ ∃ path ∈ paths, ∃ directory, FilePath.Above directory path
          ∧ after.locate directory = .ok place

theorem Touched.refl (fs : FileSystem) (paths : List String) : Touched fs fs paths :=
  ⟨.refl fs, fun _ h => absurd rfl h⟩

theorem Touched.mono {before after : FileSystem} {paths paths' : List String}
    (h : Touched before after paths) (hsub : paths ⊆ paths') : Touched before after paths' where
  grows := h.grows
  changed place hchanged := by
    rcases h.changed place hchanged with ⟨path, hmem, hlocated⟩ | ⟨hfree, hmade, path, hmem, hdir⟩
    · exact .inl ⟨path, hsub hmem, hlocated⟩
    · exact .inr ⟨hfree, hmade, path, hsub hmem, hdir⟩

theorem Touched.trans {first second third : FileSystem} {paths : List String}
    (h : Touched first second paths) (h' : Touched second third paths) :
    Touched first third paths where
  grows := h.grows.trans h'.grows
  changed place hchanged := by
    by_cases hlater : third.node? place = second.node? place
    · -- the first step has made the change, and its paths lead where they led
      rw [hlater] at hchanged ⊢
      rcases h.changed place hchanged with ⟨path, hmem, hlocated⟩ |
        ⟨hfree, hmade, path, hmem, directory, habove, hlocated⟩
      · exact .inl ⟨path, hmem, h'.grows.locate hlocated⟩
      · exact .inr ⟨hfree, hmade, path, hmem, directory, habove, h'.grows.locate hlocated⟩
    · rcases h'.changed place hlater with hfile | ⟨hfree, hmade⟩
      · exact .inl hfile
      · by_cases hearlier : second.node? place = first.node? place
        · exact .inr ⟨hearlier ▸ hfree, hmade⟩
        · rcases h.changed place hearlier with ⟨path, hmem, hlocated⟩ | ⟨hnone, _⟩
          · exact .inl ⟨path, hmem, h'.grows.locate hlocated⟩
          · exact .inr ⟨hnone, hmade⟩

theorem touched_later (fs : FileSystem) (paths : List String) : Touched fs fs.later paths :=
  ⟨(extends_later fs).grows, fun _ h => absurd rfl h⟩

theorem touched_makeDirectory {directory path : String} (habove : FilePath.Above directory path)
    (fs : FileSystem) : Touched fs (fs.makeDirectory directory).1 [path] := by
  rcases makeDirectory_cases fs directory with ⟨fault, h | h⟩ | ⟨place, hne, hfree, h, hlocated⟩
  · exact h ▸ .refl fs _
  · exact h ▸ touched_later fs _
  · rw [h]
    refine ⟨(extends_later_put hne hfree .directory).grows, fun other hchanged => .inr ?_⟩
    rw [node?_put _ _ _ hne] at hchanged ⊢
    split at hchanged
    · rename_i heq
      subst heq
      rw [if_pos rfl]
      exact ⟨hfree, rfl, path, List.mem_singleton_self path, directory, habove, hlocated⟩
    · exact absurd rfl hchanged

/-- Writing a file changes one place, whether it succeeds or not. -/
theorem touched_write (fs : FileSystem) (path : String) (content : ByteArray) :
    Touched fs (fs.write path content).1 [path] := by
  have hput {place : Location} (hlocated : fs.locate path = .ok place)
      (hnode : fs.node? place ≠ some .directory) (bytes : ByteArray) :
      Touched fs (fs.later.put place (.file bytes)) [path] := by
    have hgrows := grows_put hnode (.file bytes)
    refine ⟨hgrows, fun other hchanged => .inl ?_⟩
    rw [node?_put _ _ _ (ne_root hnode)] at hchanged
    split at hchanged
    · rename_i heq
      exact ⟨path, List.mem_singleton_self path, heq ▸ hgrows.locate hlocated⟩
    · exact absurd rfl hchanged
  rcases write_cases fs path content with
    ⟨fault, h | h⟩ | ⟨place, _, hlocated, hnode, h | ⟨fault, stored, h⟩⟩
  · exact h ▸ .refl fs _
  · exact h ▸ touched_later fs _
  · exact h ▸ hput hlocated hnode content
  · exact h ▸ hput hlocated hnode (content.extract 0 stored)

end FileSystem

namespace Build

open FileSystem (Extends Touched)

/-! ## One artifact -/

theorem touched_makeParent (fs : FileSystem) (path : String) :
    Touched fs (makeParent fs path).1 [path] := by
  unfold makeParent
  split
  · exact .refl fs _
  · rename_i directory hparent
    have hmade : Touched fs (fs.makeDirectories directory).1 [path] :=
      FileSystem.makeLineage_induction (R := fun before after => Touched before after [path])
        (fun fs => .refl fs _) .trans (fun fs _ hmem =>
          FileSystem.touched_makeDirectory ((FilePath.Above.parent hparent).lineage hmem) fs) fs
    split
    · rename_i heq
      rwa [heq] at hmade
    · rename_i heq
      rwa [heq] at hmade

/-- The step of a run: whether an artifact is written or not, only its place is different
afterwards, and directories above it. -/
theorem touched_writeArtifact (fs : FileSystem) (path text : String) :
    Touched fs (writeArtifact fs path text).1 [path] := by
  have hmade := touched_makeParent fs path
  unfold writeArtifact
  split
  · rename_i heq
    rwa [heq] at hmade
  · rename_i made heq
    rw [heq] at hmade
    have hwritten := FileSystem.touched_write made path text.toUTF8
    split
    · rename_i heq'
      rw [heq'] at hwritten
      exact hmade.trans hwritten
    · rename_i heq'
      rw [heq'] at hwritten
      exact hmade.trans hwritten

/-! ## All artifacts -/

/-- The run: places are different that one of the paths leads to, or directories above one. -/
theorem touched_of_writeAll {fs after : FileSystem} {items : List (String × String)}
    (h : writeAll fs items = (after, .ok ())) : Touched fs after (items.map Prod.fst) := by
  induction items generalizing fs with
  | nil =>
      injection h with h
      exact h ▸ .refl fs _
  | cons item items ih =>
      obtain ⟨middle, hmiddle, h⟩ := writeAll_cons h
      have hstep := touched_writeArtifact fs item.1 item.2
      rw [hmiddle] at hstep
      exact (hstep.mono (List.cons_subset.mpr ⟨List.mem_cons_self, List.nil_subset _⟩)).trans
        ((ih h).mono (List.subset_cons_self _ _))

/-- A run that fails has written some of its items, and the next one cannot be written. -/
theorem writeAll_eq_error {fs after : FileSystem} {items : List (String × String)}
    {error : FileError} (h : writeAll fs items = (after, .error error)) :
    ∃ written path text rest middle, items = written ++ (path, text) :: rest
      ∧ writeAll fs written = (middle, .ok ())
      ∧ writeArtifact middle path text = (after, .error error) := by
  induction items generalizing fs with
  | nil =>
      injection h with _ h
      exact absurd h (by simp)
  | cons item items ih =>
      obtain ⟨path, text⟩ := item
      cases hfirst : writeArtifact fs path text with
      | mk middle outcome =>
          rw [writeAll, hfirst] at h
          cases outcome with
          | error failure => exact ⟨[], path, text, items, fs, rfl, rfl, hfirst.trans h⟩
          | ok done =>
              obtain ⟨written, path', text', rest, last, rfl, hwritten, hfails⟩ := ih h
              refine ⟨(path, text) :: written, path', text', rest, last, rfl, ?_, hfails⟩
              rw [writeAll, hfirst]
              exact hwritten

/-- Only where the artifact was to go can a step that fails take something away. -/
theorem node?_of_left {fs after : FileSystem} {path text : String}
    (h : Extends fs after
      ∨ ∃ place stored, Wrote fs after path (text.toUTF8.extract 0 stored) place)
    {place : Location} {node : Node} (hnode : fs.node? place = some node)
    (hother : after.locate path ≠ .ok place) : after.node? place = some node := by
  rcases h with hextends | ⟨written, _, hwrote⟩
  · exact hextends.nodes place node hnode
  · refine hwrote.elsewhere place node ?_ hnode
    rintro rfl
    exact hother hwrote.located

/-- What a run has written is there, unless a later item was written over it or the one that failed
went to the same place. -/
theorem read_of_written {fs middle after : FileSystem} {earlier later : List (String × String)}
    {path text failed : String}
    (h : writeAll fs (earlier ++ (path, text) :: later) = (middle, .ok ()))
    (hgrows : FileSystem.Grows middle after)
    (hkept : ∀ place node, middle.node? place = some node → after.locate failed ≠ .ok place →
      after.node? place = some node)
    (hlast : ∀ item ∈ later, after.locate item.1 ≠ after.locate path)
    (hfailed : after.locate failed ≠ after.locate path) :
    after.read path = .ok text.toUTF8 := by
  obtain ⟨place, hplace, _⟩ :=
    getLast?_of_writeAll h (List.mem_append_right _ List.mem_cons_self)
  -- two paths that lead to one place do so to the end
  have hlast' : ∀ item ∈ later, middle.locate item.1 ≠ middle.locate path := by
    intro item hmem heq
    rw [hplace] at heq
    exact hlast item hmem ((hgrows.locate heq).trans (hgrows.locate hplace).symm)
  obtain ⟨place, hplace, hnode⟩ := node?_writeAll_last h hlast'
  rw [hgrows.locate hplace] at hfailed
  exact FileSystem.read_eq_ok_iff.mpr ⟨place, hgrows.locate hplace, hkept _ _ hnode hfailed⟩

/-- How a build came to an end at an artifact that cannot be written. -/
structure Interrupted (fs after : FileSystem) (result : Build) (error : FileError) where
  /-- The artifacts that were written. -/
  written : List Artifact
  /-- The artifact that cannot be written. -/
  failed : Artifact
  /-- The artifacts that were not tried. -/
  rest : List Artifact
  /-- The files before the failure. -/
  middle : FileSystem
  inventory_eq : result.inventory = written ++ failed :: rest
  wrote : writeAll fs (written.map fun artifact => (artifact.path, artifact.text))
    = (middle, .ok ())
  fails : writeArtifact middle failed.path failed.text = (after, .error error)
  /-- Places are different only where one of the artifacts that were tried was to go, or where a
  directory above one was made. -/
  touched : Touched fs after ((written ++ [failed]).map Artifact.path)
  /-- The failure took nothing away, or it left the beginning of the artifact at its place. -/
  left : Extends middle after ∨ ∃ place stored,
    Wrote middle after failed.path (failed.text.toUTF8.extract 0 stored) place
  /-- A written artifact is at its path, unless a later one that was tried goes to the same
  place. -/
  onDisk : ∀ earlier artifact later, written = earlier ++ artifact :: later →
    (∀ other ∈ later ++ [failed], after.locate other.path ≠ after.locate artifact.path) →
    after.read artifact.path = .ok artifact.text.toUTF8

theorem interrupted_of_write {fs after : FileSystem} {result : Build} {error : FileError}
    (h : result.write fs = (after, .error error)) :
    Nonempty (Interrupted fs after result error) := by
  rw [write, artifacts_eq] at h
  obtain ⟨items, path, text, others, middle, hitems, hwritten, hfails⟩ := writeAll_eq_error h
  obtain ⟨written, tail, hinventory, rfl, htail⟩ := List.map_eq_append_iff.mp hitems
  obtain ⟨failed, rest, rfl, hfailed, rfl⟩ := List.map_eq_cons_iff.mp htail
  injection hfailed with hpath htext
  subst hpath htext
  have hlast := touched_writeArtifact middle failed.path failed.text
  rw [hfails] at hlast
  have hleft := left_of_writeArtifact hfails
  refine ⟨⟨written, failed, rest, middle, hinventory, hwritten, hfails, ?_, hleft, ?_⟩⟩
  · have hfiles := touched_of_writeAll hwritten
    rw [List.map_map] at hfiles
    rw [List.map_append]
    exact (hfiles.mono (List.subset_append_left _ _)).trans
      (hlast.mono (List.subset_append_right _ _))
  · rintro earlier artifact later rfl hother
    rw [List.map_append, List.map_cons] at hwritten
    refine read_of_written hwritten hlast.grows (fun _ _ => node?_of_left hleft)
      (fun item hmem => ?_) (hother failed (List.mem_append_right _ List.mem_cons_self))
    obtain ⟨other, hlater, rfl⟩ := List.mem_map.mp hmem
    exact hother other (List.mem_append_left _ hlater)

end Build

/-! ## The command -/

namespace Cli

theorem code_ne_zero (failure : Failure) : failure.code ≠ 0 := by
  unfold Failure.code
  split
  · exact Nat.succ_ne_zero 1
  · exact Nat.succ_ne_zero 0

theorem code_fail_ne_zero (words : Wording) (files : FileSystem) (failure : Failure) :
    (Outcome.fail words files failure).code ≠ 0 := code_ne_zero failure

theorem runBuild_of_error (words : Wording) {files : FileSystem} {request : BuildRequest}
    {error : GenesisError} (h : build files request.complete = .error error) :
    runBuild words files request = .fail words files (.genesis error) := by
  rw [runBuild, h]

/-- A command with a result has the files that writing the result comes to. -/
theorem files_runBuild (words : Wording) {files : FileSystem} {request : BuildRequest}
    {result : Build} (h : build files request.complete = .ok result) :
    (runBuild words files request).files = (result.write files).1 := by
  rw [runBuild, h]
  dsimp only
  split
  · rename_i heq
    rw [heq]
    rfl
  · rename_i heq
    rw [heq]
    rfl

theorem runBuild_of_write_error (words : Wording) {files after : FileSystem}
    {request : BuildRequest} {result : Build} {error : FileError}
    (h : build files request.complete = .ok result)
    (hwrite : result.write files = (after, .error error)) :
    runBuild words files request = .fail words after (.genesis (.file error)) := by
  rw [runBuild, h]
  dsimp only
  rw [hwrite]

/--
**A failure leaves the disk as it was, but for the artifacts that were tried and directories
above them.** A build command that stops before it writes changes nothing; otherwise what it
changes is what writing its result changes, and it fails if that does. When the artifacts of any
result cannot all be written, those of the inventory up to one are, whatever it is that goes wrong
with that one. A place where something is different then is the place of one of these or of the one
that failed, or a new directory above one of them. The one that failed is not there, or its
beginning is. And a written artifact is at its path, unless a later one that was tried goes to the
same place.
-/
theorem files_of_failed_build (words : Wording) (files : FileSystem) (piped : ByteArray) :
    (∀ request error, build files request.complete = .error error →
      ((Command.build request).run words files piped).code ≠ 0
        ∧ ((Command.build request).run words files piped).files = files)
    ∧ (∀ request result, build files request.complete = .ok result →
      ((Command.build request).run words files piped).files = (result.write files).1
        ∧ ∀ after error, result.write files = (after, .error error) →
          ((Command.build request).run words files piped).code ≠ 0)
    ∧ ∀ (result : Build) after error, result.write files = (after, .error error) →
      Nonempty (Build.Interrupted files after result error) := by
  refine ⟨fun request error hbuild => ?_, fun request result hbuild => ?_,
    fun result after error hwrite => Build.interrupted_of_write hwrite⟩
  · rw [Command.run, runBuild_of_error words hbuild]
    exact ⟨code_fail_ne_zero _ _ _, rfl⟩
  · rw [Command.run]
    refine ⟨files_runBuild words hbuild, fun after error hwrite => ?_⟩
    rw [runBuild_of_write_error words hbuild hwrite]
    exact code_fail_ne_zero _ _ _

/-- A request for the smallest build, with a file where the directory of the chain configuration
would be. -/
def blockedRequest : BuildRequest :=
  { options := { Build.smallestOptions with
      targets := ⟨some "all", none, some "template/chain", some "genesis", none⟩ }
    allocations := some Build.smallestOptions.allocations
    json := false }

/-- The smallest build with that place for the chain configuration. -/
def blocked : Build :=
  { Build.smallest with
    outputs := ⟨"all", "template/chain", "/genesis", "template/chain-metadata.json",
      "template/pos-addresses.json"⟩ }

/-- The files of the smallest build on a disk on which the second file that is written is cut off
after two bytes. -/
def fullDisk : FileSystem :=
  { Build.smallestFiles with mishaps := [none, some ⟨.other "StorageFull", some 2⟩] }

/-- The third artifact cannot be written where its directory would be where the template is. On a
full disk the second one is cut off. -/
theorem files_of_failed_build_blocked :
    build Build.smallestFiles blockedRequest.complete = .ok blocked
      ∧ ((Command.build blockedRequest).run .plain Build.smallestFiles .empty).code ≠ 0
      ∧ Nonempty (Build.Interrupted Build.smallestFiles
        ((Command.build blockedRequest).run .plain Build.smallestFiles .empty).files blocked
        (.io "template" .alreadyExists))
      ∧ ∃ after, Nonempty (Build.Interrupted fullDisk after Build.smallest
          (.io "all" (.other "StorageFull")))
        ∧ after.read "/genesis" = .ok (Build.smallest.genesis.canonical .compact).toUTF8
        ∧ after.read "all" = .ok "\x7b\"".toUTF8
        ∧ after.read "chain.json" = .error .notFound := by
  have houtputs : blockedRequest.options.targets.resolve Build.smallestFiles.workingPath
      = .ok blocked.outputs := by rfl
  have hbuild : build Build.smallestFiles blockedRequest.complete = .ok blocked :=
    Build.build_retargeted Build.build_smallest houtputs
  have hwrite : blocked.write Build.smallestFiles
      = ((blocked.write Build.smallestFiles).1, .error (.io "template" .alreadyExists)) := by rfl
  have hfull : Build.smallest.write fullDisk
      = ((Build.smallest.write fullDisk).1, .error (.io "all" (.other "StorageFull"))) := by rfl
  have hbegun : (Build.smallest.write fullDisk).1.read "all"
      = .ok ((Build.smallest.combined.canonical .compact).toUTF8.extract 0 2) := by rfl
  have hbeginning : (Build.smallest.combined.canonical .compact).toUTF8.extract 0 2
      = "\x7b\"".toUTF8 := by decide +kernel
  obtain ⟨_, hrun, hinterrupted⟩ := files_of_failed_build .plain Build.smallestFiles .empty
  obtain ⟨_, _, hcut⟩ := files_of_failed_build .plain fullDisk .empty
  obtain ⟨hfiles, hcode⟩ := hrun blockedRequest blocked hbuild
  exact ⟨hbuild, hcode _ _ hwrite, hfiles ▸ hinterrupted blocked _ _ hwrite,
    _, hcut _ _ _ hfull, by rfl, hbeginning ▸ hbegun, by rfl⟩

end Cli

end ChainGenesis
