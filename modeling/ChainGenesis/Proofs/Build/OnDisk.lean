import ChainGenesis.Cli.Summary
import ChainGenesis.Proofs.Build.Course
import ChainGenesis.Proofs.FileSystem
import ChainGenesis.Proofs.Json.RoundTrip
import Mathlib.Data.List.Nodup

/-!
# What is on disk

A build writes its artifacts one after the other and reports the digest of each. A place holds
what was written there last, so the reported digests are those of the files where no two
artifacts go to one place. Nothing sees to it that they do not. Where they do, everything
succeeds, and the artifact that is written first is lost while its digest is reported.
-/

namespace ChainGenesis.Build

open FileSystem (Extends Grows lastSegment)

/-! ## One artifact -/

/-- What there is once a file is written: its bytes at its place, and whatever there was
elsewhere. -/
structure Wrote (before after : FileSystem) (path : String) (bytes : ByteArray)
    (place : Location) : Prop where
  grows : Grows before after
  named : place.getLast? = some (String.ofList (lastSegment path))
  located : after.locate path = .ok place
  content : after.node? place = some (.file bytes)
  elsewhere : ∀ other node, other ≠ place → before.node? other = some node →
    after.node? other = some node

theorem extends_makeParent (fs : FileSystem) (path : String) :
    Extends fs (makeParent fs path).1 := by
  unfold makeParent
  split
  · exact .refl fs
  · rename_i directory _
    have hmade := FileSystem.extends_makeLineage fs
      (FileSystem.lineage (directory.length + 1) directory)
    unfold FileSystem.makeDirectories
    split
    · rename_i heq
      rwa [heq] at hmade
    · rename_i heq
      rwa [heq] at hmade

theorem wrote_put {fs : FileSystem} {path : String} {place : Location}
    (hnamed : place.getLast? = some (String.ofList (lastSegment path)))
    (hlocated : fs.locate path = .ok place) (hnode : fs.node? place ≠ some .directory)
    (bytes : ByteArray) : Wrote fs (fs.later.put place (.file bytes)) path bytes place := by
  have hplace := FileSystem.ne_root hnode
  have hgrows := FileSystem.grows_put hnode (.file bytes)
  exact {
    grows := hgrows
    named := hnamed
    located := hgrows.locate hlocated
    content := by rw [FileSystem.node?_put _ _ _ hplace, if_pos rfl]
    elsewhere := fun other node hother hfound => by
      rw [FileSystem.node?_put _ _ _ hplace, if_neg hother]
      exact hfound }

theorem Wrote.of_extends {first second third : FileSystem} {path : String} {bytes : ByteArray}
    {place : Location} (hmade : Extends first second) (h : Wrote second third path bytes place) :
    Wrote first third path bytes place where
  grows := hmade.grows.trans h.grows
  named := h.named
  located := h.located
  content := h.content
  elsewhere other node hother hfound := h.elsewhere other node hother (hmade.nodes _ _ hfound)

/-- What trying to write an artifact leaves: some directories at most, or also the artifact at its
place. It is whole if it is written, and otherwise its beginning is there. -/
theorem writeArtifact_cases (fs : FileSystem) (path text : String) :
    (∃ after error, writeArtifact fs path text = (after, .error error) ∧ Extends fs after)
      ∨ ∃ after place,
        writeArtifact fs path text = (after, .ok ()) ∧ Wrote fs after path text.toUTF8 place
        ∨ ∃ error stored, writeArtifact fs path text = (after, .error error)
          ∧ Wrote fs after path (text.toUTF8.extract 0 stored) place := by
  have hmade := extends_makeParent fs path
  unfold writeArtifact
  split
  · rename_i after error heq
    rw [heq] at hmade
    exact .inl ⟨after, error, rfl, hmade⟩
  · rename_i made heq
    rw [heq] at hmade
    rcases FileSystem.write_cases made path text.toUTF8 with
      ⟨fault, hwrite | hwrite⟩ | ⟨place, hnamed, hlocated, hnode, hwrite | ⟨fault, stored, hwrite⟩⟩
    · rw [hwrite]
      exact .inl ⟨made, _, rfl, hmade⟩
    · rw [hwrite]
      exact .inl ⟨made.later, _, rfl, hmade.trans (FileSystem.extends_later made)⟩
    · rw [hwrite]
      exact .inr ⟨_, place, .inl ⟨rfl, (wrote_put hnamed hlocated hnode _).of_extends hmade⟩⟩
    · rw [hwrite]
      exact .inr ⟨_, place, .inr ⟨_, stored, rfl,
        (wrote_put hnamed hlocated hnode _).of_extends hmade⟩⟩

/-- The step of a run: an artifact that is written is at its place, and nothing else is gone. -/
theorem wrote_of_writeArtifact {fs after : FileSystem} {path text : String}
    (h : writeArtifact fs path text = (after, .ok ())) :
    ∃ place, Wrote fs after path text.toUTF8 place := by
  rcases writeArtifact_cases fs path text with
    ⟨_, _, h', _⟩ | ⟨_, place, ⟨h', hwrote⟩ | ⟨_, _, h', _⟩⟩
  · exact absurd (h.symm.trans h') (by simp)
  · obtain ⟨rfl, _⟩ := Prod.mk.inj (h.symm.trans h')
    exact ⟨place, hwrote⟩
  · exact absurd (h.symm.trans h') (by simp)

/-- The last step of a run that fails: of the artifact that is not written there is the beginning,
or nothing. -/
theorem left_of_writeArtifact {fs after : FileSystem} {path text : String} {error : FileError}
    (h : writeArtifact fs path text = (after, .error error)) :
    Extends fs after
      ∨ ∃ place stored, Wrote fs after path (text.toUTF8.extract 0 stored) place := by
  rcases writeArtifact_cases fs path text with
    ⟨_, _, h', hextends⟩ | ⟨_, place, ⟨h', _⟩ | ⟨_, stored, h', hwrote⟩⟩
  · obtain ⟨rfl, _⟩ := Prod.mk.inj (h.symm.trans h')
    exact .inl hextends
  · exact absurd (h.symm.trans h') (by simp)
  · obtain ⟨rfl, _⟩ := Prod.mk.inj (h.symm.trans h')
    exact .inr ⟨place, stored, hwrote⟩

/-! ## All artifacts -/

theorem writeAll_cons {fs after : FileSystem} {path text : String} {rest : List (String × String)}
    (h : writeAll fs ((path, text) :: rest) = (after, .ok ())) :
    ∃ middle, writeArtifact fs path text = (middle, .ok ())
      ∧ writeAll middle rest = (after, .ok ()) := by
  unfold writeAll at h
  split at h
  · rename_i middle heq
    exact ⟨middle, heq, h⟩
  · rename_i hfailed
    exact absurd h (hfailed after)

theorem writeAll_append {fs after : FileSystem} {items rest : List (String × String)}
    (h : writeAll fs (items ++ rest) = (after, .ok ())) :
    ∃ middle, writeAll fs items = (middle, .ok ()) ∧ writeAll middle rest = (after, .ok ()) := by
  induction items generalizing fs with
  | nil => exact ⟨fs, rfl, h⟩
  | cons item items ih =>
      obtain ⟨next, hnext, h⟩ := writeAll_cons h
      obtain ⟨middle, hmiddle, h⟩ := ih h
      refine ⟨middle, ?_, h⟩
      rw [← hmiddle, writeAll, hnext]

theorem grows_writeAll {fs after : FileSystem} {items : List (String × String)}
    (h : writeAll fs items = (after, .ok ())) : Grows fs after := by
  induction items generalizing fs with
  | nil =>
      injection h with h
      exact h ▸ .refl fs
  | cons item items ih =>
      obtain ⟨middle, hmiddle, h⟩ := writeAll_cons h
      obtain ⟨_, hwrote⟩ := wrote_of_writeArtifact hmiddle
      exact hwrote.grows.trans (ih h)

/-- A run leaves alone every place that none of its paths leads to. -/
theorem node?_writeAll {fs after : FileSystem} {items : List (String × String)}
    {place : Location} {node : Node} (h : writeAll fs items = (after, .ok ()))
    (hnode : fs.node? place = some node)
    (hother : ∀ item ∈ items, after.locate item.1 ≠ .ok place) :
    after.node? place = some node := by
  induction items generalizing fs with
  | nil =>
      injection h with h
      exact h ▸ hnode
  | cons item items ih =>
      obtain ⟨middle, hmiddle, h⟩ := writeAll_cons h
      obtain ⟨written, hwrote⟩ := wrote_of_writeArtifact hmiddle
      have hne : place ≠ written := by
        rintro rfl
        exact hother item List.mem_cons_self ((grows_writeAll h).locate hwrote.located)
      exact ih h (hwrote.elsewhere place node hne hnode) fun item hmem =>
        hother item (List.mem_cons_of_mem _ hmem)

/-- **The last text that is written to a place is there in the end.** -/
theorem node?_writeAll_last {fs after : FileSystem} {earlier later : List (String × String)}
    {path text : String} (h : writeAll fs (earlier ++ (path, text) :: later) = (after, .ok ()))
    (hlast : ∀ item ∈ later, after.locate item.1 ≠ after.locate path) :
    ∃ place, after.locate path = .ok place ∧ after.node? place = some (.file text.toUTF8) := by
  obtain ⟨first, _, h⟩ := writeAll_append h
  obtain ⟨second, hsecond, h⟩ := writeAll_cons h
  obtain ⟨place, hwrote⟩ := wrote_of_writeArtifact hsecond
  have hplace := (grows_writeAll h).locate hwrote.located
  rw [hplace] at hlast
  exact ⟨place, hplace, node?_writeAll h hwrote.content hlast⟩

/-- Every path leads to a place with the name that the path ends with. -/
theorem getLast?_of_writeAll {fs after : FileSystem} {items : List (String × String)}
    (h : writeAll fs items = (after, .ok ())) {path text : String} (hmem : (path, text) ∈ items) :
    ∃ place, after.locate path = .ok place
      ∧ place.getLast? = some (String.ofList (lastSegment path)) := by
  obtain ⟨earlier, later, rfl⟩ := List.append_of_mem hmem
  obtain ⟨first, _, h⟩ := writeAll_append h
  obtain ⟨second, hsecond, h⟩ := writeAll_cons h
  obtain ⟨place, hwrote⟩ := wrote_of_writeArtifact hsecond
  exact ⟨place, (grows_writeAll h).locate hwrote.located, hwrote.named⟩

/-! ## The artifacts by name -/

/-- An artifact: its name, its path, and its text. -/
structure Artifact where
  name : String
  path : String
  text : String

/-- The artifacts of a build in the order in which they are written. -/
def inventory (result : Build) : List Artifact :=
  [⟨"genesis", result.outputs.genesis, result.genesis.canonical result.layout⟩,
    ⟨"combined", result.outputs.combined, result.combined.canonical result.layout⟩,
    ⟨"chain", result.outputs.chain, result.chain.canonical result.layout⟩,
    ⟨"metadata", result.outputs.metadata, result.token.metadata⟩]
    ++ (result.contractsText.map fun text =>
      ⟨"posAddresses", result.outputs.contracts, text⟩).toList

theorem artifacts_eq (result : Build) :
    result.artifacts = result.inventory.map fun artifact => (artifact.path, artifact.text) := by
  unfold artifacts inventory
  cases result.contractsText <;> rfl

theorem digests_perm (result : Build) :
    result.digests.Perm
      (result.inventory.map fun artifact => (artifact.name, Digest.ofText artifact.text)) := by
  -- chain and genesis change places
  have hswap : ∀ (genesis combined chain : String × Digest) (rest : List (String × Digest)),
      (chain :: combined :: genesis :: rest).Perm (genesis :: combined :: chain :: rest) := by
    intro genesis combined chain rest
    exact ((List.Perm.swap _ _ _).trans ((List.Perm.swap _ _ _).cons _)).trans (.swap _ _ _)
  unfold digests texts inventory
  cases result.contractsText with
  | none => exact hswap ..
  | some text => exact hswap ..

theorem outputPaths_perm (result : Build) :
    (Cli.outputPaths result).Perm
      (result.inventory.map fun artifact => (artifact.name, artifact.path)) := by
  -- the genesis comes third in a summary
  have hswap : ∀ (genesis combined chain : String × String) (rest : List (String × String)),
      (combined :: chain :: genesis :: rest).Perm (genesis :: combined :: chain :: rest) := by
    intro genesis combined chain rest
    exact ((List.Perm.swap _ _ _).cons _).trans (.swap _ _ _)
  unfold Cli.outputPaths inventory contractsText
  cases result.contracts with
  | none => exact hswap ..
  | some contracts => exact hswap ..

theorem nodup_names (result : Build) : (result.inventory.map Artifact.name).Nodup := by
  unfold inventory
  cases result.contractsText with
  | none =>
      show ["genesis", "combined", "chain", "metadata"].Nodup
      decide
  | some text =>
      show ["genesis", "combined", "chain", "metadata", "posAddresses"].Nodup
      decide

/-- The contracts are an artifact of proof of stake. -/
theorem isSome_contractsFor {fs : FileSystem} {opts : BuildOptions}
    {contracts : Option Contracts} (h : contractsFor fs opts = .ok contracts) :
    contracts.isSome = true ↔ opts.consensus = .pos := by
  cases hconsensus : opts.consensus with
  | poa =>
      rw [contractsFor_poa fs hconsensus] at h
      injection h with h
      rw [← h]
      simp
  | pos =>
      rcases (contractsFor_pos_eq_ok_iff hconsensus).mp h with ⟨_, _, rfl⟩ | ⟨_, _, rfl⟩
      · simp
      · simp

/-! ## What a build and its summary say -/

section

variable {fs after : FileSystem} {result : Build}

/-- What stands at the place of an artifact is the last text that was written there. -/
theorem read_of_last {earlier later : List Artifact} {winner : Artifact}
    (hwrite : result.write fs = (after, .ok ()))
    (hinventory : result.inventory = earlier ++ winner :: later)
    (hlast : ∀ other ∈ later, after.locate other.path ≠ after.locate winner.path) {path : String}
    (hpath : after.locate path = after.locate winner.path) :
    after.read path = .ok winner.text.toUTF8 := by
  rw [write, artifacts_eq, hinventory, List.map_append, List.map_cons] at hwrite
  obtain ⟨place, hplace, hnode⟩ := node?_writeAll_last hwrite fun item hmem => by
    obtain ⟨other, hother, rfl⟩ := List.mem_map.mp hmem
    exact hlast other hother
  exact FileSystem.read_eq_ok_iff.mpr ⟨place, hpath.trans hplace, hnode⟩

/-- Where no two artifacts go to one place, each is on disk. -/
theorem read_of_nodup (hwrite : result.write fs = (after, .ok ()))
    (hplaces : (result.inventory.map fun artifact => after.locate artifact.path).Nodup)
    {artifact : Artifact} (hmem : artifact ∈ result.inventory) :
    after.read artifact.path = .ok artifact.text.toUTF8 := by
  obtain ⟨earlier, later, hinventory⟩ := List.append_of_mem hmem
  refine read_of_last hwrite hinventory (fun other hother heq => ?_) rfl
  rw [hinventory, List.map_append, List.map_cons] at hplaces
  have hnotMem := (List.nodup_cons.mp (List.nodup_append.mp hplaces).2.1).1
  exact hnotMem (heq ▸ List.mem_map_of_mem hother)

/-- Artifacts whose files have different names go to different places. -/
theorem nodup_places (hwrite : result.write fs = (after, .ok ()))
    (hnames : (result.inventory.map fun artifact => lastSegment artifact.path).Nodup) :
    (result.inventory.map fun artifact => after.locate artifact.path).Nodup := by
  rw [write, artifacts_eq] at hwrite
  refine List.Nodup.map_on (fun artifact hmem other hother heq => ?_) hnames.of_map
  obtain ⟨place, hplace, hnamed⟩ :=
    getLast?_of_writeAll hwrite (List.mem_map.mpr ⟨artifact, hmem, rfl⟩)
  obtain ⟨place', hplace', hnamed'⟩ :=
    getLast?_of_writeAll hwrite (List.mem_map.mpr ⟨other, hother, rfl⟩)
  rw [hplace, hplace'] at heq
  injection heq with heq
  rw [heq, hnamed'] at hnamed
  injection hnamed with hnamed
  exact List.inj_on_of_nodup_map hnames hmem hother (String.ofList_injective hnamed).symm

end

/-- Artifacts of one name are one artifact. -/
theorem eq_of_name_eq {result : Build} {artifact other : Artifact}
    (h : artifact ∈ result.inventory) (hother : other ∈ result.inventory)
    (hname : artifact.name = other.name) : artifact = other :=
  List.inj_on_of_nodup_map (nodup_names result) h hother hname

/--
**Each place holds what was written there last.** The digests and the paths of a summary are
those of the artifacts, with the contracts among them for proof of stake. When all of them
are written, the file at the path of an artifact has the text of the last one that leads to the
same place. So where no two artifacts go to one place, as when their files have different names,
each digest of the summary is that of the file that the summary names for it.
-/
theorem digests_of_written {fs after : FileSystem} {opts : BuildOptions} {result : Build}
    (hbuild : build fs opts = .ok result) (hwrite : result.write fs = (after, .ok ())) :
    (result.contracts.isSome = true ↔ opts.consensus = .pos)
      ∧ result.digests.Perm
        (result.inventory.map fun artifact => (artifact.name, Digest.ofText artifact.text))
      ∧ (Cli.outputPaths result).Perm
        (result.inventory.map fun artifact => (artifact.name, artifact.path))
      ∧ (∀ earlier winner later, result.inventory = earlier ++ winner :: later →
        (∀ other ∈ later, after.locate other.path ≠ after.locate winner.path) →
        ∀ artifact ∈ result.inventory, after.locate artifact.path = after.locate winner.path →
          after.read artifact.path = .ok winner.text.toUTF8)
      ∧ ((result.inventory.map fun artifact => lastSegment artifact.path).Nodup →
        (result.inventory.map fun artifact => after.locate artifact.path).Nodup)
      ∧ ((result.inventory.map fun artifact => after.locate artifact.path).Nodup →
        (∀ artifact ∈ result.inventory, after.read artifact.path = .ok artifact.text.toUTF8)
        ∧ ∀ name path digest, (name, path) ∈ Cli.outputPaths result →
          (name, digest) ∈ result.digests →
          ∃ content, after.read path = .ok content ∧ digest.isOf content.toList = true) := by
  obtain ⟨course⟩ := build_eq_ok_iff.mp hbuild
  refine ⟨isSome_contractsFor course.contractsFound, digests_perm result, outputPaths_perm result,
    fun earlier winner later hinventory hlast artifact _ => read_of_last hwrite hinventory hlast,
    nodup_places hwrite, fun hplaces => ⟨fun artifact => read_of_nodup hwrite hplaces, ?_⟩⟩
  intro name path digest hpath hdigest
  obtain ⟨artifact, hmem, heq⟩ := List.mem_map.mp ((outputPaths_perm result).mem_iff.mp hpath)
  obtain ⟨other, hother, heq'⟩ := List.mem_map.mp ((digests_perm result).mem_iff.mp hdigest)
  injection heq with hname hpath
  injection heq' with hname' hdigest
  have hsame := eq_of_name_eq hmem hother (hname.trans hname'.symm)
  refine ⟨_, hpath ▸ read_of_nodup hwrite hplaces hmem, ?_⟩
  rw [← hdigest, hsame, Digest.ofText, Digest.isOf]
  exact decide_eq_true rfl

/-- The files of the smallest build with its artifacts. -/
def filesWritten : FileSystem := (smallest.write smallestFiles).1

theorem write_smallest : smallest.write smallestFiles = (filesWritten, .ok ()) := by rfl

/-- The digests of the smallest build are those of its files. -/
theorem digests_of_written_smallest :
    smallest.contracts = none ∧ ∀ name path digest, (name, path) ∈ Cli.outputPaths smallest →
      (name, digest) ∈ smallest.digests →
      ∃ content, filesWritten.read path = .ok content ∧ digest.isOf content.toList = true := by
  obtain ⟨_, _, _, _, hplaces, hdigests⟩ := digests_of_written build_smallest write_smallest
  have hnames : (smallest.inventory.map fun artifact => lastSegment artifact.path).Nodup := by
    show ["genesis".toList, "all".toList, "chain.json".toList, "chain-metadata.json".toList].Nodup
    decide
  exact ⟨rfl, (hdigests (hplaces hnames)).2⟩

/-! ## Two artifacts at one place -/

/-- Where the artifacts are to go decides nothing else, but that the chain configuration states
the path of the genesis. -/
theorem build_retargeted {fs : FileSystem} {opts : BuildOptions} {result : Build}
    (hbuild : build fs opts = .ok result) {targets : OutputTargets} {outputs : Outputs}
    (houtputs : targets.resolve fs.workingPath = .ok outputs) :
    build fs { opts with targets } = .ok
      { result with outputs, chain := withGenesis outputs.genesis result.combined } := by
  obtain ⟨course⟩ := build_eq_ok_iff.mp hbuild
  exact build_eq_ok_iff.mpr ⟨{ course with resolved := houtputs, chain_eq := rfl }⟩

/-- The smallest build with the combined document where the chain configuration goes if nothing
is said. -/
def smallestAtOnePlace : Build :=
  { smallest with
    outputs :=
      ⟨"chain.json", "chain.json", "/genesis", "chain-metadata.json", "pos-addresses.json"⟩ }

/-- Targets that leave the chain configuration where the combined document is to go. -/
def targetsAtOnePlace : OutputTargets := ⟨some "chain.json", none, none, some "genesis", none⟩

theorem combined_ne_chain :
    smallest.combined.canonical .compact ≠ smallest.chain.canonical .compact := by
  intro h
  have hsame := Document.eq_of_canonical_eq (by decide) (by decide) (by decide) (by decide)
    (by decide) (by decide) h
  -- the genesis is embedded in the one and stated by its path in the other
  have hgenesis : some (smallestGenesis smallestAlloc.document) = some (.string "/genesis") :=
    congrArg (Document.get? · "genesis") hsame
  injection hgenesis with hgenesis
  exact Document.noConfusion hgenesis

/-- **A combined document can be lost although everything succeeds and its digest is reported**:
the chain configuration is written over it. -/
theorem combined_lost :
    build smallestFiles { smallestOptions with targets := targetsAtOnePlace }
        = .ok smallestAtOnePlace
      ∧ ∃ after, smallestAtOnePlace.write smallestFiles = (after, .ok ())
        ∧ ("combined", "chain.json") ∈ Cli.outputPaths smallestAtOnePlace
        ∧ ("combined", Digest.ofText (smallest.combined.canonical .compact))
          ∈ smallestAtOnePlace.digests
        ∧ after.read "chain.json" = .ok (smallest.chain.canonical .compact).toUTF8
        ∧ after.read "chain.json" ≠ .ok (smallest.combined.canonical .compact).toUTF8 := by
  have hwrite : smallestAtOnePlace.write smallestFiles
      = ((smallestAtOnePlace.write smallestFiles).1, .ok ()) := by rfl
  have hread : (smallestAtOnePlace.write smallestFiles).1.read "chain.json"
      = .ok (smallest.chain.canonical .compact).toUTF8 := by rfl
  have houtputs : targetsAtOnePlace.resolve smallestFiles.workingPath
      = .ok smallestAtOnePlace.outputs := by rfl
  refine ⟨build_retargeted build_smallest houtputs, _, hwrite, List.mem_cons_self,
    List.mem_cons_of_mem _ List.mem_cons_self, hread, fun hlost => ?_⟩
  rw [hread] at hlost
  injection hlost with hlost
  exact combined_ne_chain (String.toByteArray_inj.mp hlost).symm

end ChainGenesis.Build
