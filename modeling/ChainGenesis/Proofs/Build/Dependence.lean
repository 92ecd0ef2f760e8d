import ChainGenesis.Proofs.Build.Stages

/-!
# What a build depends on

A build is meant to depend on its options and the files that they name, so that independent
operators with the same inputs get the same chain whatever else is on their disks. The first
stage keeps to this. The validation does not quite: it takes the stand-in for the path of the
genesis for a real path, and if there is a file of that name it validates the file. Such a file
can make a build fail. It can do no more: when a build succeeds, no file but its inputs has had
a part in the result.
-/

namespace ChainGenesis.Build

/-- The files that the options name are read alike in both file systems. -/
structure SameInputs (opts : BuildOptions) (fs other : FileSystem) : Prop where
  workingDirectory : fs.workingDirectory = other.workingDirectory
  token : fs.read opts.token = other.read opts.token
  allocations : fs.read opts.allocations = other.read opts.allocations
  template : fs.read opts.template = other.read opts.template
  overlay : fs.read opts.overlay = other.read opts.overlay
  /-- The deployments file is no input of other chains. -/
  deployments : opts.consensus = .pos → fs.read opts.deployments = other.read opts.deployments

/-- The build stopped at errors that the validation found. -/
def FailsValidation (outcome : Except GenesisError Build) : Prop :=
  ∃ first total, outcome = .error (.validation first total)

/-- The build came as far as its validation: it stopped there, or it has a result. -/
def IsJudged (outcome : Except GenesisError Build) : Prop :=
  FailsValidation outcome ∨ ∃ result, outcome = .ok result

section

variable {fs other : FileSystem} {opts : BuildOptions}

/-! ## Gathering -/

theorem contractsFor_congr (h : SameInputs opts fs other) :
    contractsFor fs opts = contractsFor other opts := by
  unfold contractsFor
  cases hconsensus : opts.consensus with
  | poa => rfl
  | pos =>
      have hread := h.deployments hconsensus
      have hload : Contracts.load fs opts.deployments = Contracts.load other opts.deployments := by
        unfold Contracts.load
        rw [FileSystem.load_congr hread]
      rw [hload]

theorem gather_congr (h : SameInputs opts fs other) : gather fs opts = gather other opts := by
  have hpath : fs.workingPath = other.workingPath := by
    unfold FileSystem.workingPath
    rw [h.workingDirectory]
  have htoken : loadToken fs opts.token = loadToken other opts.token := by
    unfold loadToken
    rw [FileSystem.load_congr h.token]
  have halloc : loadAlloc fs opts.allocations = loadAlloc other opts.allocations := by
    unfold loadAlloc
    rw [FileSystem.load_congr h.allocations]
  have htemplate : fs.loadDocument opts.template = other.loadDocument opts.template :=
    FileSystem.load_congr h.template _
  have hoverlay : fs.loadDocument opts.overlay = other.loadDocument opts.overlay :=
    FileSystem.load_congr h.overlay _
  unfold gather
  rw [hpath, htoken, halloc, htemplate, hoverlay, contractsFor_congr h]

/-! ## Finishing -/

theorem finish_of_errors {layout : Layout} {inputs : Inputs} {drafted : Draft} {found : Findings}
    {first : Issue} {rest : List Issue} (h : found.errors = first :: rest) :
    finish layout inputs drafted found = .error (.validation first (rest.length + 1)) := by
  unfold finish accept
  rw [h]
  rfl

theorem isJudged_finish (layout : Layout) (inputs : Inputs) (drafted : Draft)
    (found : Findings) : IsJudged (finish layout inputs drafted found) := by
  cases herrors : found.errors with
  | cons first rest => exact .inl ⟨_, _, finish_of_errors herrors⟩
  | nil =>
      exact .inr ⟨_, bind_eq_ok.mpr ⟨(), accept_eq_ok_iff.mpr herrors, rfl⟩⟩

/-- A build fails validation where its document, put together elsewhere, has errors. -/
theorem build_of_findings {result : Build} (h : SameInputs opts fs other)
    (hbuild : build fs opts = .ok result) {first : Issue} {rest : List Issue}
    (hfound : (findings other opts.policy result.combined result.genesis).errors = first :: rest) :
    build other opts = .error (.validation first (rest.length + 1)) := by
  obtain ⟨inputs, drafted, hgather, hdraft, hcombined, hgenesis⟩ := stages_of_build hbuild
  rw [hcombined, hgenesis] at hfound
  rw [build_eq_stages, ← gather_congr h, hgather, ok_bind, hdraft, ok_bind]
  exact finish_of_errors hfound

/-- Findings that differ in errors alone finish a draft alike, or one of them ends it. -/
theorem finish_congr {found found' : Findings} (hwarnings : found.warnings = found'.warnings)
    (layout : Layout) (inputs : Inputs) (drafted : Draft) :
    finish layout inputs drafted found = finish layout inputs drafted found'
      ∨ FailsValidation (finish layout inputs drafted found)
      ∨ FailsValidation (finish layout inputs drafted found') := by
  cases herrors : found.errors with
  | cons first rest => exact .inr (.inl ⟨_, _, finish_of_errors herrors⟩)
  | nil =>
      cases herrors' : found'.errors with
      | cons first rest => exact .inr (.inr ⟨_, _, finish_of_errors herrors'⟩)
      | nil =>
          refine .inl ?_
          unfold finish accept
          rw [herrors, herrors', hwarnings]

end

/-! ## The whole build -/

/--
**A build depends on its inputs and on the file with the name of the stand-in.** Where the
inputs are read alike, and that file too if there is one, builds have the same outcome: the
same result or the same error. Whatever that file is, it has no part in a result: outcomes are
the same unless both builds come to their validation and one of them fails there.
-/
theorem build_of_same_inputs {fs other : FileSystem} {opts : BuildOptions}
    (h : SameInputs opts fs other) :
    (FileSystem.SameFile fs other genesisStandIn → build fs opts = build other opts)
      ∧ (build fs opts = build other opts
        ∨ IsJudged (build fs opts) ∧ IsJudged (build other opts)
          ∧ (FailsValidation (build fs opts) ∨ FailsValidation (build other opts))) := by
  rw [build_eq_stages, build_eq_stages, gather_congr h]
  constructor
  · intro hfile
    refine congrArg (gather other opts >>= ·) (funext fun inputs => ?_)
    refine congrArg (draft opts inputs >>= ·) (funext fun drafted => ?_)
    rw [findings_congr hfile]
  · cases gather other opts with
    | error error => exact .inl rfl
    | ok inputs =>
        rw [ok_bind, ok_bind]
        cases draft opts inputs with
        | error error => exact .inl rfl
        | ok drafted =>
            rw [ok_bind, ok_bind]
            refine (finish_congr (warnings_findings_congr fs other _ _ _) opts.layout inputs
              drafted).imp_right fun hfails => ?_
            exact ⟨isJudged_finish .., isJudged_finish .., hfails⟩

/-- The files of the smallest build, and an old genesis where its own is to go. -/
def filesWithOldGenesis : FileSystem :=
  smallestFiles.put ["genesis"] (.file (Document.null.canonical .compact).toUTF8)

/-- The old genesis is not looked at. -/
theorem build_of_same_inputs_old_genesis :
    SameInputs smallestOptions smallestFiles filesWithOldGenesis
      ∧ FileSystem.SameFile smallestFiles filesWithOldGenesis genesisStandIn
      ∧ build filesWithOldGenesis smallestOptions = .ok smallest := by
  have hinputs : SameInputs smallestOptions smallestFiles filesWithOldGenesis :=
    ⟨rfl, rfl, rfl, rfl, rfl, fun _ => rfl⟩
  have hfile : FileSystem.SameFile smallestFiles filesWithOldGenesis genesisStandIn :=
    fun _ => Iff.rfl
  refine ⟨hinputs, hfile, ?_⟩
  rw [← (build_of_same_inputs hinputs).1 hfile]
  exact build_smallest

/-- The files of the smallest build, and one that has the name of the stand-in. -/
def filesWithStandIn : FileSystem :=
  smallestFiles.put [genesisStandIn] (.file (Document.null.canonical .compact).toUTF8)

/-- The stand-in leads to a file that holds no genesis, and nothing else is found. -/
theorem errors_findings_standIn : (findings filesWithStandIn smallestOptions.policy
    smallest.combined smallest.genesis).errors
      = [⟨.root, .inFile .genesisNotObject genesisStandIn⟩] := by
  have hload : filesWithStandIn.loadDocument genesisStandIn = .ok .null :=
    FileSystem.loadDocument_canonical rfl (by decide) (by decide) (by decide)
  have hthere : filesWithStandIn.isFile genesisStandIn = true := FileSystem.isFile_of_load hload
  have hblank : Text.isBlank genesisStandIn = false := by decide
  have hfile : Validation.checkGenesisFile filesWithStandIn (DocPath.root.field "genesis")
      genesisStandIn = ⟨[⟨.root, .inFile .genesisNotObject genesisStandIn⟩], []⟩ := by
    rw [Validation.checkGenesisFile, hthere, hload]
    rfl
  rw [findings, withGenesis, smallest, smallestCombined, Document.set, Validation.chainConfig_put,
    Validation.checkReference, hblank, if_neg Bool.false_ne_true, hfile]
  rfl

/-- **A file that is no input can make a build fail**: the one that happens to have the name of
the stand-in, if it holds no genesis. -/
theorem build_fails_by_stand_in :
    SameInputs smallestOptions smallestFiles filesWithStandIn
      ∧ build smallestFiles smallestOptions = .ok smallest
      ∧ build filesWithStandIn smallestOptions
        = .error (.validation ⟨.root, .inFile .genesisNotObject genesisStandIn⟩ 1) := by
  have hinputs : SameInputs smallestOptions smallestFiles filesWithStandIn :=
    ⟨rfl, rfl, rfl, rfl, rfl, fun _ => rfl⟩
  exact ⟨hinputs, build_smallest,
    build_of_findings hinputs build_smallest errors_findings_standIn⟩

end ChainGenesis.Build
