import ChainGenesis.Options
import ChainGenesis.Proofs.FilePath.Components

/-!
# Places that are found stay where they are

A build finds a place for each artifact that it is not told, from the places of others. What was
found can be said in turn, and then each artifact is found where it was. Only the genesis has its
path rewritten, to its absolute form, so its place stays because that form does.
-/

namespace ChainGenesis

open FilePath (CanName Component IsTidy absolute? components isAbsolute names sibling split)

namespace OutputTargets

/-! ## How places are found -/

/-- The place of the chain configuration. -/
def chainPath (targets : OutputTargets) : String :=
  targets.chain.getD
    (sibling ((targets.combined.or targets.legacyOut).getD "build/genesis.json") "chain.json")

/-- The place of the genesis before it is made absolute. -/
def genesisPath (targets : OutputTargets) : String :=
  targets.genesis.getD (sibling targets.chainPath "genesis-eth.json")

/-- All places, once the absolute path of the genesis is known. -/
def found (targets : OutputTargets) (genesis : String) : Outputs where
  combined := (targets.combined.or targets.legacyOut).getD "build/genesis.json"
  chain := targets.chainPath
  genesis
  metadata := targets.metadata.getD (sibling targets.chainPath "chain-metadata.json")
  contracts := sibling targets.chainPath "pos-addresses.json"

variable {targets : OutputTargets} {directory : String} {outputs : Outputs}

theorem resolve_eq (targets : OutputTargets) (directory : String) :
    targets.resolve directory = match absolute? directory targets.genesisPath with
      | none => .error (.io targets.genesisPath .invalidInput)
      | some genesis => .ok (targets.found genesis) := rfl

theorem resolve_eq_ok (h : targets.resolve directory = .ok outputs) :
    absolute? directory targets.genesisPath = some outputs.genesis
      ∧ outputs = targets.found outputs.genesis := by
  rw [resolve_eq] at h
  split at h
  case h_1 => cases h
  case h_2 genesis hgenesis =>
    injection h with h
    subst h
    exact ⟨hgenesis, rfl⟩

/-- An older way to say where the combined document goes is not looked at if the newer is used. -/
theorem resolve_legacyOut (h : targets.combined.isSome = true) (legacyOut : Option String)
    (directory : String) :
    { targets with legacyOut }.resolve directory = targets.resolve directory := by
  obtain ⟨combined, hcombined⟩ := Option.isSome_iff_exists.mp h
  rw [resolve, resolve, hcombined, Option.some_or, Option.some_or]

theorem sibling_ne_empty (path : String) {name : String} (h : name ≠ "") :
    sibling path name ≠ "" := by
  rw [sibling, FilePath.join]
  split
  · exact h
  · split <;> exact fun hempty => h (String.append_eq_empty_iff.mp hempty).2

/-- A place beside another is not empty, so the empty place of the genesis is always a place that
was said. -/
theorem genesisPath_eq_empty_iff : targets.genesisPath = "" ↔ targets.genesis = some "" := by
  rw [genesisPath]
  cases targets.genesis with
  | none => exact ⟨fun h => absurd h (sibling_ne_empty _ (by decide)), fun h => (nomatch h)⟩
  | some path => exact Option.some_inj.symm

theorem resolve_eq_error_iff {error : FileError} :
    targets.resolve directory = .error error
      ↔ targets.genesis = some "" ∧ error = .io "" .invalidInput := by
  have hempty : absolute? directory targets.genesisPath = none ↔ targets.genesis = some "" :=
    FilePath.absolute?_eq_none_iff.trans genesisPath_eq_empty_iff
  rw [← hempty, resolve_eq]
  cases hgenesis : absolute? directory targets.genesisPath with
  | some genesis => exact ⟨fun h => (nomatch h), fun h => (nomatch h.1)⟩
  | none =>
    rw [FilePath.absolute?_eq_none_iff.mp hgenesis]
    exact ⟨fun h => ⟨rfl, (Except.error.inj h).symm⟩, fun ⟨_, h⟩ => h ▸ rfl⟩

end OutputTargets

/-! ## Places said again -/

/-- The places that were found, said as targets. -/
def Outputs.targets (outputs : Outputs) (legacyOut : Option String) : OutputTargets where
  combined := some outputs.combined
  legacyOut
  chain := some outputs.chain
  genesis := some outputs.genesis
  metadata := some outputs.metadata

namespace OutputTargets

/-- What holds of the places that are found for targets from a working directory. -/
structure Settled (targets : OutputTargets) (directory : String) (outputs : Outputs) : Prop where
  /-- A place that is said, but for that of the genesis, is where it is said to be. -/
  said : (∀ path ∈ targets.combined, outputs.combined = path)
    ∧ (∀ path ∈ targets.chain, outputs.chain = path)
    ∧ ∀ path ∈ targets.metadata, outputs.metadata = path
  /-- The genesis has an absolute path. -/
  absolute : isAbsolute outputs.genesis = true
  /-- It is the path that is said, or the one beside the chain configuration, as it is seen from the
  working directory. -/
  seen : components outputs.genesis = .root
    :: ((if isAbsolute targets.genesisPath then [] else names directory)
      ++ names targets.genesisPath).map .name
  /-- No component of it is a point. -/
  noPoint : Component.here ∉ components outputs.genesis
  /-- No segment of its text is a point either, unless there is one in the working directory. -/
  points : ['.'] ∈ split outputs.genesis.toList → ['.'] ∈ split directory.toList
  /-- Said again, from any working directory, the places are the same paths. -/
  again : ∀ legacyOut other, ∃ genesis,
    (outputs.targets legacyOut).resolve other = .ok { outputs with genesis }
      ∧ components genesis = components outputs.genesis
  /-- They are the same to the letter if the working directory has a tidy path, as that of a file
  system has. -/
  exactly : IsTidy directory → ∀ legacyOut other,
    (outputs.targets legacyOut).resolve other = .ok outputs

variable {targets : OutputTargets} {directory : String} {outputs : Outputs}

/-- Places that were found are found again, but for the path of the genesis, which is made absolute
once more. -/
theorem resolve_targets (h : targets.resolve directory = .ok outputs) {genesis other : String}
    (hgenesis : absolute? other outputs.genesis = some genesis) (legacyOut : Option String) :
    (outputs.targets legacyOut).resolve other = .ok { outputs with genesis } := by
  have hpath : (outputs.targets legacyOut).genesisPath = outputs.genesis := rfl
  have hfound : (outputs.targets legacyOut).found genesis = { outputs with genesis } := by
    rw [(resolve_eq_ok h).2]
    rfl
  rw [resolve_eq, hpath, hgenesis, ← hfound]

theorem settled_of_resolve (hdirectory : isAbsolute directory = true)
    (h : targets.resolve directory = .ok outputs) : targets.Settled directory outputs := by
  obtain ⟨hgenesis, hfound⟩ := resolve_eq_ok h
  have habsolute := FilePath.isAbsolute_of_absolute? hdirectory hgenesis
  constructor
  case said =>
    rw [hfound]
    refine ⟨fun path hpath => ?_, fun path hpath => ?_, fun path hpath => ?_⟩
    · rw [found, hpath, Option.some_or, Option.getD_some]
    · rw [found, chainPath, hpath, Option.getD_some]
    · rw [found, hpath, Option.getD_some]
  case absolute => exact habsolute
  case seen => exact FilePath.components_of_absolute? hdirectory hgenesis
  case noPoint => exact FilePath.here_not_mem_components habsolute
  case points => exact FilePath.point_mem_split_of_absolute? hdirectory hgenesis
  case again =>
    intro legacyOut other
    have hagain : absolute? other outputs.genesis = some _ :=
      FilePath.absolute?_of_isAbsolute habsolute
    exact ⟨_, resolve_targets h hagain legacyOut, FilePath.components_rejoin_rootText habsolute⟩
  case exactly =>
    intro htidy legacyOut other
    exact resolve_targets h (FilePath.absolute?_absolute? hdirectory htidy hgenesis other) legacyOut

/--
**Places that are found stay where they are.** From a working directory with an absolute path,
finding the places fails only if the genesis is said to have the empty path. The older way to say
where the combined document goes counts for nothing beside the newer. And the places that are found
are found again when they are said, whatever is said in the older way.
-/
theorem resolve_settles (targets : OutputTargets) {directory : String}
    (hdirectory : isAbsolute directory = true) :
    (∀ error, targets.resolve directory = .error error
      ↔ targets.genesis = some "" ∧ error = .io "" .invalidInput)
    ∧ (targets.combined.isSome = true → ∀ legacyOut,
      { targets with legacyOut }.resolve directory = targets.resolve directory)
    ∧ ∀ outputs, targets.resolve directory = .ok outputs → targets.Settled directory outputs :=
  ⟨fun _ => resolve_eq_error_iff, fun h legacyOut => resolve_legacyOut h legacyOut directory,
    fun _ => settled_of_resolve hdirectory⟩

/-- **Places that are found in a file system are found again to the letter**, whatever is said in
the older way and wherever they are looked for. -/
theorem resolve_again {targets : OutputTargets} {outputs : Outputs} {fs : FileSystem}
    (hnames : ∀ name ∈ fs.workingDirectory, CanName name.toList)
    (h : targets.resolve fs.workingPath = .ok outputs) (legacyOut : Option String)
    (other : String) : (outputs.targets legacyOut).resolve other = .ok outputs := by
  have hsettled := settled_of_resolve (FilePath.isAbsolute_workingPath fs) h
  exact hsettled.exactly (FilePath.isTidy_workingPath hnames) legacyOut other

/-- Targets of which one is said in the older way, one with points and one as the empty path. -/
def scatteredTargets : OutputTargets :=
  ⟨none, some "out//legacy.json", none, some "./a//b/./../c/", some ""⟩

/-- The path of the genesis loses its points and its empty segment but keeps `..` and the slash at
its end. -/
theorem resolve_settles_scattered :
    let outputs : Outputs := ⟨"out//legacy.json", "out/chain.json", "/home/work/a/b/../c/", "",
      "out/pos-addresses.json"⟩
    isAbsolute "/home/work" = true
      ∧ scatteredTargets.resolve "/home/work" = .ok outputs
      ∧ Component.here ∉ components outputs.genesis
      ∧ ∀ other, (outputs.targets (some "build/old.json")).resolve other = .ok outputs := by
  intro outputs
  have habsolute : isAbsolute "/home/work" = true := by decide
  have hresolve : scatteredTargets.resolve "/home/work" = .ok outputs := by
    have hgenesis : absolute? "/home/work" scatteredTargets.genesisPath
        = some "/home/work/a/b/../c/" := by decide
    have hfound : scatteredTargets.found "/home/work/a/b/../c/" = outputs := by decide
    rw [resolve_eq, hgenesis, ← hfound]
  have htidy : IsTidy "/home/work" :=
    @FilePath.isTidy_workingPath (.empty ["home", "work"]) (by decide)
  obtain ⟨_, _, hsettled⟩ := resolve_settles scatteredTargets habsolute
  have hsettled := hsettled outputs hresolve
  exact ⟨habsolute, hresolve, hsettled.noPoint, hsettled.exactly htidy _⟩

end OutputTargets

end ChainGenesis
