import ChainGenesis.Proofs.Build.Combined
import ChainGenesis.Proofs.Outputs
import ChainGenesis.Proofs.Validation.Chain

/-!
# What a build makes is accepted

A build validates a document that it never writes: the chain configuration with a stand-in
for the path of the genesis, and the raw genesis beside it. The three documents that it does
write are accepted all the same, and under every policy. The keys of the old layout are gone
from them, so no policy finds anything to judge, and a genesis is judged alike in the combined
document, by itself and in its own file.
-/

namespace ChainGenesis.Build

open Validation (legacyKeys)

section

variable {fs : FileSystem} {opts : BuildOptions} {result : Build}

/-! ## The place of the genesis -/

/-- The chain configuration states the genesis by an absolute path. -/
theorem isAbsolute_genesis {targets : OutputTargets} {directory : String} {outputs : Outputs}
    (hdirectory : FilePath.isAbsolute directory = true)
    (h : targets.resolve directory = .ok outputs) :
    FilePath.isAbsolute outputs.genesis = true :=
  FilePath.isAbsolute_of_absolute? hdirectory (OutputTargets.resolve_eq_ok h).1

/-! ## The combined document -/

/-- No key of the old layout comes through a build. -/
theorem Course.get?_legacyKey (course : Course fs opts result) {key : String}
    (h : key ∈ legacyKeys) : result.combined.get? key = none := by
  rw [course.combined_eq, get?_combine_legacyKey _ _ _ _ h]

/-! ## The documents as they are validated and as they are written -/

/-- The members of the combined document, as they are and with another genesis. -/
theorem Course.members (course : Course fs opts result) :
    ∃ members : Members, result.combined = .object members
      ∧ result.genesis.isObject = true
      ∧ Named.lookup? "genesis" members = some result.genesis
      ∧ (∀ key ∈ legacyKeys, Named.lookup? key members = none)
      ∧ ∀ path, withGenesis path result.combined
        = .object (Named.put "genesis" (.string path) members) := by
  obtain ⟨members, hcombined, hgenesis⟩ := Document.get?_eq_some course.get?_genesis
  obtain ⟨_, inner, hobject⟩ := embeddedGenesis_eq_ok_iff.mp course.genesisFound
  refine ⟨members, hcombined, by rw [hobject]; rfl, hgenesis, fun key hmem => ?_, fun path => ?_⟩
  · have hkey := course.get?_legacyKey hmem
    rwa [hcombined] at hkey
  · rw [hcombined]
    rfl

theorem lookup?_put_legacyKey {members : Members}
    (h : ∀ key ∈ legacyKeys, Named.lookup? key members = none) (value : Document) :
    ∀ key ∈ legacyKeys, Named.lookup? key (Named.put "genesis" value members) = none := by
  intro key hmem
  have hname : "genesis" ≠ key := by
    rintro rfl
    exact absurd hmem (by decide)
  rw [Named.lookup?_put, if_neg hname]
  exact h key hmem

/-- The parameters of a combined document are found in order under every policy. -/
theorem Course.errors_checkParams (course : Course fs opts result) {members : Members}
    (hcombined : result.combined = .object members) :
    ∀ policy, (Validation.checkParams policy members (DocPath.root.field "params")
      (Named.lookup? "params" members)).errors = [] := by
  obtain ⟨_, hsame, _, _, hlegacy, hwith⟩ := course.members
  rw [hcombined] at hsame
  injection hsame with hsame
  subst hsame
  intro policy
  -- they were validated once, beside the stand-in for the genesis and under one policy
  have hfound := course.accepted
  rw [findings, Findings.errors_append, List.append_eq_nil_iff, hwith,
    Validation.chainConfig_object (lookup?_put_legacyKey hlegacy _), List.append_eq_nil_iff,
    Named.lookup?_put, if_neg (by decide)] at hfound
  rw [Validation.checkParams_congr (Validation.namesLegacyEngine_eq_false
    (hlegacy _ (by decide))) (Validation.namesLegacyEngine_eq_false
    (lookup?_put_legacyKey hlegacy _ _ (by decide)))]
  exact hfound.1.1

theorem Course.errors_rawGenesis (course : Course fs opts result) :
    (Validation.rawGenesis result.genesis).errors = [] := by
  have hfound := course.accepted
  rw [findings, Findings.errors_append, List.append_eq_nil_iff] at hfound
  exact hfound.2

theorem Course.errors_combined (course : Course fs opts result) (other : FileSystem)
    (policy : Policy) : (Validation.chainConfig other policy result.combined).errors = [] := by
  obtain ⟨members, hcombined, hobject, hgenesis, hlegacy, _⟩ := course.members
  obtain ⟨inner, hinner⟩ := Option.isSome_iff_exists.mp hobject
  have hinner := Document.members?_eq_some hinner
  have hraw := course.errors_rawGenesis
  rw [hcombined, Validation.chainConfig_object hlegacy, List.append_eq_nil_iff, hgenesis, hinner]
  rw [hinner] at hraw
  exact ⟨course.errors_checkParams hcombined policy,
    Validation.errors_checkGenesis_eq_nil_iff.mpr (Validation.errors_rawGenesis_eq_nil_iff.mp hraw)⟩

theorem Course.errors_chain (course : Course fs opts result) {other : FileSystem}
    (policy : Policy)
    (h : other.isFile result.outputs.genesis = false
      ∨ other.loadDocument result.outputs.genesis = .ok result.genesis) :
    (Validation.chainConfig other policy result.chain).errors = [] := by
  obtain ⟨members, hcombined, _, _, hlegacy, hwith⟩ := course.members
  have hlegacy' := lookup?_put_legacyKey hlegacy (.string result.outputs.genesis)
  have habsolute := isAbsolute_genesis (FilePath.isAbsolute_workingPath fs) course.resolved
  have hparams := course.errors_checkParams hcombined policy
  rw [course.chain_eq, hwith, Validation.chainConfig_object hlegacy', List.append_eq_nil_iff,
    Named.lookup?_put, Named.lookup?_put, if_neg (by decide), if_pos rfl]
  rw [Validation.checkParams_congr (Validation.namesLegacyEngine_eq_false
    (hlegacy _ (by decide))) (Validation.namesLegacyEngine_eq_false
    (hlegacy' _ (by decide)))] at hparams
  have hblank := FilePath.isBlank_of_isAbsolute habsolute
  refine ⟨hparams, Validation.errors_checkReference_eq_nil_iff.mpr ⟨_, rfl, ?_⟩⟩
  rcases h with hfile | hload
  · exact .absent hblank hfile
  · exact .loaded hblank hload (Validation.errors_rawGenesis_eq_nil_iff.mp course.errors_rawGenesis)

/-! ## The engine -/

/-- The engine is the one that was asked for, or there is a warning. -/
theorem Course.engine (course : Course fs opts result) :
    ∃ found, result.combined.at? ["params", "engine", "ibft", "type"] = some (.string found)
      ∧ (found = opts.consensus.engineType
        ∨ Warning.engineMismatch found opts.consensus ∈ result.warnings) := by
  obtain ⟨members, hcombined, _, _, hlegacy, _⟩ := course.members
  obtain ⟨params, hparams, hsound⟩ := Validation.errors_checkParams_eq_nil_iff.mp
    (course.errors_checkParams hcombined opts.policy)
  obtain ⟨found, hfound⟩ := hsound.engineType (hlegacy "consensus" (by decide))
  have hat : result.combined.at? ["params", "engine", "ibft", "type"] = some (.string found) := by
    rw [hcombined, Document.at?_cons, Document.get?_object, hparams]
    exact hfound
  refine ⟨found, hat, ?_⟩
  by_cases hsame : found = opts.consensus.engineType
  · exact .inl hsame
  · -- the engine was compared before the upgrades were added, which leave it alone
    refine .inr ?_
    rw [course.combined_eq, Document.at?_ensureForks _ _ _ _ (by decide)] at hat
    rw [course.warnings_eq, engineWarnings, hat]
    dsimp only
    rw [if_neg hsame]
    exact List.mem_append_left _ (List.mem_append_right _ List.mem_cons_self)

end

/-! ## The artifacts -/

/--
**The documents of a build agree and are accepted.** The raw genesis is the genesis of the
combined document, and the chain configuration is the combined document with an absolute path
in its place. Under every policy the combined document is accepted, and so is the chain
configuration wherever its path leads to no file or to the raw genesis. The engine is the one
that was asked for, or the build warns of it.
-/
theorem artifacts_accepted {fs : FileSystem} {opts : BuildOptions} {result : Build}
    (hbuild : build fs opts = .ok result) :
    result.combined.get? "genesis" = some result.genesis
      ∧ FilePath.isAbsolute result.outputs.genesis = true
      ∧ (∃ members, result.combined = .object members
        ∧ result.chain = .object (Named.put "genesis" (.string result.outputs.genesis) members))
      ∧ (∀ name, result.chain.get? name
        = if name = "genesis" then some (.string result.outputs.genesis)
          else result.combined.get? name)
      ∧ (Validation.rawGenesis result.genesis).errors = []
      ∧ (∀ other policy, (Validation.chainConfig other policy result.combined).errors = [])
      ∧ (∀ other policy, other.isFile result.outputs.genesis = false
          ∨ other.loadDocument result.outputs.genesis = .ok result.genesis →
        (Validation.chainConfig other policy result.chain).errors = [])
      ∧ ∃ found, result.combined.at? ["params", "engine", "ibft", "type"] = some (.string found)
        ∧ (found = opts.consensus.engineType
          ∨ Warning.engineMismatch found opts.consensus ∈ result.warnings) := by
  obtain ⟨course⟩ := build_eq_ok_iff.mp hbuild
  obtain ⟨members, hcombined, _, _, _, hwith⟩ := course.members
  have hchain := course.chain_eq.trans (hwith _)
  refine ⟨course.get?_genesis, isAbsolute_genesis (FilePath.isAbsolute_workingPath fs)
    course.resolved, ⟨members, hcombined, hchain⟩, fun name => ?_, course.errors_rawGenesis,
    course.errors_combined, fun other policy => course.errors_chain policy, course.engine⟩
  by_cases hname : name = "genesis"
  · rw [if_pos hname, hname, hchain, Document.get?_object, Named.lookup?_put, if_pos rfl]
  · rw [if_neg hname]
    exact course.get?_chain hname

/-- The smallest build is accepted as a whole and split, without its files being there. -/
theorem artifacts_accepted_smallest :
    FilePath.isAbsolute smallest.outputs.genesis = true
      ∧ (∀ policy, (Validation.chainConfig (FileSystem.empty []) policy smallest.combined).errors
        = [])
      ∧ (∀ policy, (Validation.chainConfig (FileSystem.empty []) policy smallest.chain).errors
        = []) := by
  obtain ⟨_, habsolute, _, _, _, hcombined, hchain, _⟩ := artifacts_accepted build_smallest
  exact ⟨habsolute, hcombined _, fun policy => hchain _ policy (.inl rfl)⟩

end ChainGenesis.Build
