import ChainGenesis.Proofs.Build.Stages
import ChainGenesis.Proofs.Ledger.Reordered

/-!
# The order of the inputs

The inputs of a build are read in three ways: as a document of any shape, as a record, and as a
ledger, whose operators are a list. None of them lets the order of members through, and the
order of operators gets no further than the ledger. So a build makes the same of its inputs in
whatever order they were written, down to the bytes of its artifacts.
-/

namespace ChainGenesis

open Written (Permuted Stable)

/-! ## The records -/

theorem Token.stable_ofWritten : Stable Token.ofWritten :=
  Written.stable_readRecord (by simp [Token.fields]) _

@[simp] theorem Contracts.stable_readContract : Stable Contracts.readContract :=
  Written.stable_readRecord (by simp) _

theorem Contracts.stable_ofWritten : Stable Contracts.ofWritten :=
  Written.stable_readRecord (by simp [Contracts.fields]) _

/-! ## Loading -/

section

variable {fs other : FileSystem} {path : String}

theorem FileSystem.Related.load_stable {α : Type} {read : Written → Except Fault α}
    (hread : Stable read) (h : FileSystem.Related Permuted fs other path) {value : α}
    (hload : fs.load read path = .ok value) : other.load read path = .ok value := by
  obtain ⟨_, hload, rfl⟩ :=
    h.load Eq.refl (fun hpermuted hv => ⟨_, hread hpermuted hv, rfl⟩) hload
  exact hload

theorem FileSystem.Related.load_iff {α : Type} {read : Written → Except Fault α}
    (hread : Stable read) (h : FileSystem.Related Permuted fs other path) {value : α} :
    fs.load read path = .ok value ↔ other.load read path = .ok value :=
  ⟨h.load_stable hread, (h.symm Permuted.symm).load_stable hread⟩

/-- Contracts are those of the file in lowercase, if the file has both. -/
theorem Contracts.load_eq_ok_iff {contracts : Contracts} :
    Contracts.load fs path = .ok contracts ↔ ∃ found, fs.load Contracts.ofWritten path = .ok found
      ∧ (found.staking.isEmpty || found.validatorSet.isEmpty) = false
      ∧ contracts = ⟨Text.lowercase found.staking, Text.lowercase found.validatorSet⟩ := by
  unfold Contracts.load
  constructor
  · intro h
    split at h
    · exact absurd h (by simp)
    · exact absurd h (by simp)
    · rename_i found hload
      split at h
      · exact absurd h (by simp)
      · rename_i hboth
        injection h with h
        exact ⟨found, hload, Bool.not_eq_true _ ▸ hboth, h.symm⟩
  · rintro ⟨found, hload, hboth, rfl⟩
    rw [hload]
    dsimp only
    rw [hboth, if_neg Bool.false_ne_true]

theorem Contracts.load_iff (h : FileSystem.Related Permuted fs other path)
    {contracts : Contracts} :
    Contracts.load fs path = .ok contracts ↔ Contracts.load other path = .ok contracts := by
  rw [Contracts.load_eq_ok_iff, Contracts.load_eq_ok_iff]
  exact exists_congr fun found => and_congr_left' (h.load_iff Contracts.stable_ofWritten)

end

namespace Build

/-! ## The inputs -/

/-- Inputs that differ in the order of their members alone, or in the order of operators. -/
structure SameInputsReordered (opts : BuildOptions) (fs other : FileSystem) : Prop where
  workingDirectory : fs.workingDirectory = other.workingDirectory
  token : FileSystem.Related Permuted fs other opts.token
  allocations : FileSystem.Related Ledger.Reordered fs other opts.allocations
  template : FileSystem.Related Permuted fs other opts.template
  overlay : FileSystem.Related Permuted fs other opts.overlay
  /-- The deployments file is no input of other chains. -/
  deployments : opts.consensus = .pos → FileSystem.Related Permuted fs other opts.deployments
  /-- The file with the name of the stand-in is looked at too. It can be one of the inputs. -/
  standIn : FileSystem.Related Ledger.Reordered fs other genesisStandIn

section

variable {fs other : FileSystem} {opts : BuildOptions}

theorem contractsFor_reordered (h : SameInputsReordered opts fs other)
    {found : Option Contracts} (hfound : contractsFor fs opts = .ok found) :
    contractsFor other opts = .ok found := by
  cases hconsensus : opts.consensus with
  | poa =>
      rw [contractsFor_poa fs hconsensus] at hfound
      rw [contractsFor_poa other hconsensus, hfound]
  | pos =>
      have hload : ∀ contracts, Contracts.load fs opts.deployments = .ok contracts
          ↔ Contracts.load other opts.deployments = .ok contracts :=
        fun _ => Contracts.load_iff (h.deployments hconsensus)
      rw [contractsFor_pos_eq_ok_iff hconsensus] at hfound ⊢
      simp only [ne_eq, hload] at hfound
      exact hfound

/-- A file is an accepted genesis in another order too. -/
theorem errors_checkGenesisFile_reordered {file : String} {path : DocPath}
    (h : FileSystem.Related Ledger.Reordered fs other file)
    (hfs : (Validation.checkGenesisFile fs path file).errors = []) :
    (Validation.checkGenesisFile other path file).errors = [] := by
  rw [Validation.errors_checkGenesisFile_eq_nil_iff] at *
  intro hthere
  obtain ⟨genesis, hload, hgenesis⟩ := hfs (h.isFile hthere)
  obtain ⟨genesis', hload', halike⟩ :=
    h.load Document.AlikeBut.refl (fun hreordered => hreordered.document) hload
  refine ⟨genesis', hload', ?_⟩
  rw [← Validation.rawGenesis_congr halike (by decide)]
  exact hgenesis

theorem errors_findings_reordered (h : SameInputsReordered opts fs other) {policy : Policy}
    {combined genesis : Document} (hfs : (findings fs policy combined genesis).errors = []) :
    (findings other policy combined genesis).errors = [] := by
  unfold findings at *
  rw [Findings.errors_append, List.append_eq_nil_iff] at *
  refine ⟨Validation.errors_chainConfig_mono (fun file path hfile => ?_) hfs.1, hfs.2⟩
  obtain rfl := get?_withGenesis hfile
  exact errors_checkGenesisFile_reordered h.standIn

/-! ## The result -/

/-- **A build does not depend on the order of its inputs.** Where the members of the objects in
its inputs are in another order, at any depth, or the operators of its ledger are, a build that
succeeds has the same result: the documents and so the bytes of every artifact, the total, the
places they go to and the warnings. -/
theorem build_of_reordered_inputs {result : Build} (h : SameInputsReordered opts fs other)
    (hbuild : build fs opts = .ok result) : build other opts = .ok result := by
  obtain ⟨course⟩ := build_eq_ok_iff.mp hbuild
  have hpath : fs.workingPath = other.workingPath := by
    unfold FileSystem.workingPath
    rw [h.workingDirectory]
  have hdocument : Stable (Document.ofWritten Document.maxDepth) := Document.stable_ofWritten _
  -- the ledger is another one, but it has the same balances
  obtain ⟨ledger, hledger, hshuffled⟩ := h.allocations.load Ledger.Shuffled.refl
    (fun hreordered => hreordered.ofWritten) course.ledgerLoaded
  refine build_eq_ok_iff.mpr ⟨{
    ledger
    alloc := course.alloc
    template := course.template
    overlay := course.overlay
    checked := course.checked
    resolved := hpath ▸ course.resolved
    tokenLoaded := h.token.load_stable Token.stable_ofWritten course.tokenLoaded
    tokenChecked := course.tokenChecked
    ledgerLoaded := hledger
    sound := hshuffled.sound course.sound
    rendered := (hshuffled.alloc course.sound).symm.trans course.rendered
    templateLoaded := h.template.load_stable hdocument course.templateLoaded
    overlayLoaded := h.overlay.load_stable hdocument course.overlayLoaded
    contractsFound := contractsFor_reordered h course.contractsFound
    templateFilled := course.templateFilled
    overlayFilled := course.overlayFilled
    combined_eq := course.combined_eq
    genesisFound := course.genesisFound
    accepted := errors_findings_reordered h course.accepted
    chain_eq := course.chain_eq
    total_eq := course.total_eq
    layout_eq := course.layout_eq
    warnings_eq := ?_ }⟩
  rw [course.warnings_eq, warnings_findings_congr fs other]

end

/-! ## A build from files that are turned round -/

/-- The smallest ledger with two operators. -/
def crewLedger : Ledger :=
  { smallestLedger with operators := [
      ⟨"0x00000000000000000000000000000000000000cc", "11"⟩,
      ⟨"0x00000000000000000000000000000000000000dd", "12"⟩] }

def crewAlloc : Ledger.Alloc :=
  ⟨Named.ofList crewLedger.funds, Wei.sum (crewLedger.entries.map fun entry => entry.2.wei)⟩

def crewOperators : List Document := [
  .array [.string "0x00000000000000000000000000000000000000cc", .string "11"],
  .array [.string "0x00000000000000000000000000000000000000dd", .string "12"]]

/-- The members of a file for that ledger. -/
def crewMembers (operators : List Document) : List (String × Document) :=
  [("meta", .array [.string "wei", .number (.integer 18), .string "QIK"]),
    ("buckets", .object [("treasury",
      .array [.string "0x00000000000000000000000000000000000000aA", .string "007"])])]
    ++ (Ledger.operatorsName, .array operators)
    :: [("deployer", .array [.string "0x00000000000000000000000000000000000000bb", .string "5"])]

def crewFiles : FileSystem :=
  smallestFiles.put ["ledger"]
    (.file ((Document.object (crewMembers crewOperators)).textIn .compact).toUTF8)

/-- The members of the template, the last first. -/
def turnedTemplate : List (String × Document) := [
  ("params", .object [("chainID", .string "\x7b\x7bCHAIN_ID\x7d\x7d")]),
  ("genesis", smallestGenesis (.string "\x7b\x7bPREALLOCATIONS\x7d\x7d"))]

/-- The same files with the members of template and ledger and the operators the other way
round, and in another layout. -/
def turnedFiles : FileSystem :=
  (smallestFiles.put ["ledger"] (.file ((Document.object
      (crewMembers crewOperators.reverse).reverse).textIn .pretty).toUTF8)).put
    ["template"] (.file ((Document.object turnedTemplate).textIn .pretty).toUTF8)

def crewCombined : Document := .object [
  ("genesis", smallestGenesis crewAlloc.document),
  ("params", .object [
    ("chainID", .number (.integer 18446744073709551615)),
    ("engine", .object [("ibft", .object [("type", .string "PoA")])]),
    ("forks", .object [])])]

def crew : Build :=
  { smallest with
    combined := crewCombined
    chain := withGenesis "/genesis" crewCombined
    genesis := smallestGenesis crewAlloc.document
    total := crewAlloc.total }

theorem sound_crewLedger : crewLedger.Sound Ledger.defaultOptions where
  unit := rfl
  decimals := rfl
  token := rfl
  buckets := by decide
  entries := by decide
  distinct := by decide

theorem load_crewLedger :
    crewFiles.load Ledger.ofWritten smallestOptions.allocations = .ok crewLedger :=
  FileSystem.load_textIn (.object (crewMembers crewOperators)) rfl (by decide) rfl

theorem findings_crew : findings crewFiles smallestOptions.policy crew.combined crew.genesis
    = ⟨[], [.noMinGasPrice]⟩ := by rfl

theorem combine_crew :
    combine (smallestTemplate.fill (values smallestOptions crewAlloc crew.contracts))
        (smallestOverlay.fill (values smallestOptions crewAlloc crew.contracts))
      = combine (.object [
          ("genesis", smallestGenesis crewAlloc.document),
          ("params", .object [("chainID", .number (.integer 18446744073709551615))])])
        smallestOverlay := by
  rw [fill_smallestTemplate_alloc smallestOptions crewAlloc crew.contracts rfl rfl,
    fill_smallestOverlay]

theorem build_crew : build crewFiles smallestOptions = .ok crew :=
  build_eq_ok_iff.mpr ⟨{
    ledger := crewLedger
    alloc := crewAlloc
    template := smallestTemplate
    overlay := smallestOverlay
    checked := rfl
    resolved := rfl
    tokenLoaded := FileSystem.load_canonical smallestTokenFile rfl (by decide) (by decide) rfl
    tokenChecked := rfl
    ledgerLoaded := load_crewLedger
    sound := sound_crewLedger
    rendered := sound_crewLedger.alloc
    templateLoaded := FileSystem.loadDocument_canonical rfl (by decide) (by decide) (by decide)
    overlayLoaded := FileSystem.loadDocument_canonical rfl (by decide) (by decide) (by decide)
    contractsFound := rfl
    templateFilled := .inl rfl
    overlayFilled := .inl rfl
    combined_eq := by
      rw [combine_crew]
      rfl
    genesisFound := rfl
    accepted := congrArg Findings.errors findings_crew
    chain_eq := rfl
    total_eq := rfl
    layout_eq := rfl
    warnings_eq := by
      have hresolved : smallestTemplate.unresolved (values smallestOptions crewAlloc crew.contracts)
          ++ smallestOverlay.unresolved (values smallestOptions crewAlloc crew.contracts) = [] :=
        unresolved_smallest crewAlloc
      rw [hresolved, combine_crew, findings_crew]
      rfl }⟩

theorem permuted_turnedTemplate :
    Permuted smallestTemplate.written (Document.object turnedTemplate).written :=
  Document.permuted_written (.swap _ _ _) (by decide)

theorem reordered_crewLedger :
    Ledger.Reordered (Document.object (crewMembers crewOperators)).written
      (Document.object (crewMembers crewOperators.reverse).reverse).written :=
  (Ledger.reordered_written (List.reverse_perm _).symm).trans
    (.permuted (Document.permuted_written (List.reverse_perm _).symm (by decide)))

/-- Two operators are written the other way round, and so are the members of ledger and
template: the build has the result that it had. -/
theorem build_of_reordered_inputs_turned :
    SameInputsReordered smallestOptions crewFiles turnedFiles
      ∧ build crewFiles smallestOptions = .ok crew
      ∧ build turnedFiles smallestOptions = .ok crew := by
  -- both sides are evaluated, since the file systems themselves are not to be compared
  have htoken : crewFiles.read smallestOptions.token = turnedFiles.read smallestOptions.token :=
    Eq.trans (b := .ok (smallestTokenFile.canonical .compact).toUTF8) rfl rfl
  have hoverlay : crewFiles.read smallestOptions.overlay
      = turnedFiles.read smallestOptions.overlay :=
    Eq.trans (b := .ok (smallestOverlay.canonical .compact).toUTF8) rfl rfl
  have hstandIn : crewFiles.read genesisStandIn = turnedFiles.read genesisStandIn :=
    Eq.trans (b := .error .notFound) rfl rfl
  have hinputs : SameInputsReordered smallestOptions crewFiles turnedFiles := {
    workingDirectory := rfl
    token := .inl htoken
    allocations := .inr ⟨((Document.object (crewMembers crewOperators)).textIn .compact).toUTF8,
      ((Document.object (crewMembers crewOperators.reverse).reverse).textIn .pretty).toUTF8,
      _, _, rfl, rfl, spells_textIn_bytes .compact (by decide),
      spells_textIn_bytes .pretty (by decide), reordered_crewLedger⟩
    template := .inr ⟨(smallestTemplate.canonical .compact).toUTF8,
      ((Document.object turnedTemplate).textIn .pretty).toUTF8, _, _, rfl, rfl,
      spells_canonical_bytes .compact (by decide) (by decide),
      spells_textIn_bytes .pretty (by decide), permuted_turnedTemplate⟩
    overlay := .inl hoverlay
    deployments := fun hpos => absurd hpos (by decide)
    standIn := .inl hstandIn }
  exact ⟨hinputs, build_crew, build_of_reordered_inputs hinputs build_crew⟩

end Build

end ChainGenesis
