import ChainGenesis.Proofs.Build.Values
import ChainGenesis.Proofs.Load

/-!
# The course of a build

A build stops at the first stage that fails, so a result is there only if every stage
succeeded. `Course` is the record of such a run: what the stages read and made, and that the
result was put together from it. What is said about results is said from their course.
-/

namespace ChainGenesis

namespace Build

theorem loadToken_eq_ok_iff {fs : FileSystem} {path : String} {token : Token} :
    loadToken fs path = .ok token
      ↔ fs.load Token.ofWritten path = .ok token ∧ token.check = .ok () := by
  unfold loadToken
  constructor
  · intro h
    obtain ⟨found, hload, h⟩ := bind_eq_ok.mp h
    obtain ⟨_, hcheck, h⟩ := bind_eq_ok.mp h
    injection h with h
    subst h
    exact ⟨wrapError_eq_ok.mp hload, wrapError_eq_ok.mp hcheck⟩
  · rintro ⟨hload, hcheck⟩
    exact bind_eq_ok.mpr ⟨token, wrapError_eq_ok.mpr hload,
      bind_eq_ok.mpr ⟨(), wrapError_eq_ok.mpr hcheck, rfl⟩⟩

theorem loadAlloc_eq_ok_iff {fs : FileSystem} {path : String} {alloc : Ledger.Alloc} :
    loadAlloc fs path = .ok alloc
      ↔ ∃ ledger, fs.load Ledger.ofWritten path = .ok ledger
        ∧ ledger.Sound Ledger.defaultOptions ∧ ledger.alloc = .ok alloc := by
  unfold loadAlloc
  constructor
  · intro h
    obtain ⟨ledger, hload, h⟩ := bind_eq_ok.mp h
    split at h
    · exact absurd h throw_ne_ok
    · rename_i hissues
      exact ⟨ledger, wrapError_eq_ok.mp hload, Ledger.verify_issues_eq_nil_iff.mp hissues,
        wrapError_eq_ok.mp h⟩
  · rintro ⟨ledger, hload, hsound, halloc⟩
    refine bind_eq_ok.mpr ⟨ledger, wrapError_eq_ok.mpr hload, ?_⟩
    rw [Ledger.verify_issues_eq_nil_iff.mpr hsound]
    exact wrapError_eq_ok.mpr halloc

theorem contractsFor_poa (fs : FileSystem) {opts : BuildOptions} (hpoa : opts.consensus = .poa) :
    contractsFor fs opts = .ok none := by
  unfold contractsFor
  rw [hpoa]

/-- A chain for proof of stake has the contracts that are loaded, or tokens in their place where
it may do without. -/
theorem contractsFor_pos_eq_ok_iff {fs : FileSystem} {opts : BuildOptions}
    {found : Option Contracts} (hpos : opts.consensus = .pos) :
    contractsFor fs opts = .ok found
      ↔ (∃ contracts, Contracts.load fs opts.deployments = .ok contracts ∧ found = some contracts)
        ∨ (∀ contracts, Contracts.load fs opts.deployments ≠ .ok contracts)
          ∧ opts.allowMissingContracts = true ∧ found = some .placeholders := by
  unfold contractsFor
  rw [hpos]
  dsimp only
  cases Contracts.load fs opts.deployments with
  | ok contracts =>
      constructor
      · intro h
        injection h with h
        exact .inl ⟨contracts, rfl, h.symm⟩
      · rintro (⟨_, hload, rfl⟩ | ⟨hnone, _⟩)
        · injection hload with hload
          rw [hload]
        · exact absurd rfl (hnone contracts)
  | error problem =>
      cases opts.allowMissingContracts with
      | false => simp
      | true =>
          constructor
          · intro h
            injection h with h
            exact .inr ⟨by simp, rfl, h.symm⟩
          · rintro (⟨_, hload, _⟩ | ⟨_, _, rfl⟩)
            · exact absurd hload (by simp)
            · rfl

theorem embeddedGenesis_eq_ok_iff {combined genesis : Document} :
    embeddedGenesis combined = .ok genesis
      ↔ combined.get? "genesis" = some genesis ∧ ∃ members, genesis = .object members := by
  unfold embeddedGenesis
  constructor
  · intro h
    split at h
    · rename_i members hget
      injection h with h
      subst h
      exact ⟨hget, members, rfl⟩
    · exact absurd h (by simp)
  · rintro ⟨hget, members, rfl⟩
    rw [hget]

theorem accept_eq_ok_iff {found : Findings} : accept found = .ok () ↔ found.errors = [] := by
  unfold accept
  cases found.errors with
  | nil => simp
  | cons first rest => simp

/-- How a result came about. -/
structure Course (fs : FileSystem) (opts : BuildOptions) (result : Build) where
  ledger : Ledger
  alloc : Ledger.Alloc
  /-- The template, before its placeholders are filled in. -/
  template : Document
  /-- The overlay, before its placeholders are filled in. -/
  overlay : Document
  checked : opts.check = .ok ()
  resolved : opts.targets.resolve fs.workingPath = .ok result.outputs
  tokenLoaded : fs.load Token.ofWritten opts.token = .ok result.token
  tokenChecked : result.token.check = .ok ()
  ledgerLoaded : fs.load Ledger.ofWritten opts.allocations = .ok ledger
  sound : ledger.Sound Ledger.defaultOptions
  rendered : ledger.alloc = .ok alloc
  templateLoaded : fs.loadDocument opts.template = .ok template
  overlayLoaded : fs.loadDocument opts.overlay = .ok overlay
  contractsFound : contractsFor fs opts = .ok result.contracts
  templateFilled : opts.policy.strict = false
    ∨ template.unresolved (values opts alloc result.contracts) = []
  overlayFilled : opts.policy.strict = false
    ∨ overlay.unresolved (values opts alloc result.contracts) = []
  combined_eq : result.combined
    = (combine (template.fill (values opts alloc result.contracts))
        (overlay.fill (values opts alloc result.contracts))).ensureForks
      opts.environment opts.supportedForks
  genesisFound : embeddedGenesis result.combined = .ok result.genesis
  accepted : (findings fs opts.policy result.combined result.genesis).errors = []
  chain_eq : result.chain = withGenesis result.outputs.genesis result.combined
  total_eq : result.total = alloc.total
  layout_eq : result.layout = opts.layout
  warnings_eq : result.warnings
    = (template.unresolved (values opts alloc result.contracts)
        ++ overlay.unresolved (values opts alloc result.contracts)).map Warning.unresolved
      ++ engineWarnings opts.consensus
        (combine (template.fill (values opts alloc result.contracts))
          (overlay.fill (values opts alloc result.contracts)))
      ++ (findings fs opts.policy result.combined result.genesis).warnings

/-- The balances of a build are those of its ledger. -/
theorem Course.alloc_eq {fs : FileSystem} {opts : BuildOptions} {result : Build}
    (course : Course fs opts result) :
    course.alloc = ⟨Named.ofList course.ledger.funds,
      Wei.sum (course.ledger.entries.map fun entry => entry.2.wei)⟩ := by
  have h := course.rendered
  rw [course.sound.alloc] at h
  injection h with h
  exact h.symm

/-- **A build has a result exactly if the result has a course.** -/
theorem build_eq_ok_iff {fs : FileSystem} {opts : BuildOptions} {result : Build} :
    build fs opts = .ok result ↔ Nonempty (Course fs opts result) := by
  unfold build
  constructor
  · intro h
    obtain ⟨_, hchecked, h⟩ := bind_eq_ok.mp h
    obtain ⟨outputs, hresolved, h⟩ := bind_eq_ok.mp h
    obtain ⟨token, htoken, h⟩ := bind_eq_ok.mp h
    obtain ⟨alloc, halloc, h⟩ := bind_eq_ok.mp h
    obtain ⟨template, htemplate, h⟩ := bind_eq_ok.mp h
    obtain ⟨overlay, hoverlay, h⟩ := bind_eq_ok.mp h
    obtain ⟨contracts, hcontracts, h⟩ := bind_eq_ok.mp h
    obtain ⟨filledTemplate, hft, h⟩ := bind_eq_ok.mp h
    obtain ⟨filledOverlay, hfo, h⟩ := bind_eq_ok.mp h
    obtain ⟨genesis, hgenesis, h⟩ := bind_eq_ok.mp h
    obtain ⟨_, haccept, h⟩ := bind_eq_ok.mp h
    -- what the stages that have a name of their own did
    obtain ⟨hloaded, hcheck⟩ := loadToken_eq_ok_iff.mp htoken
    obtain ⟨ledger, hledger, hsound, hrendered⟩ := loadAlloc_eq_ok_iff.mp halloc
    obtain ⟨hstrict, rfl⟩ := resolve_eq_ok_iff.mp (wrapError_eq_ok.mp hft)
    obtain ⟨hstrict', rfl⟩ := resolve_eq_ok_iff.mp (wrapError_eq_ok.mp hfo)
    injection h with h
    subst h
    exact ⟨{
      ledger, alloc, template, overlay
      checked := wrapError_eq_ok.mp hchecked
      resolved := wrapError_eq_ok.mp hresolved
      tokenLoaded := hloaded
      tokenChecked := hcheck
      ledgerLoaded := hledger
      sound := hsound
      rendered := hrendered
      templateLoaded := wrapError_eq_ok.mp htemplate
      overlayLoaded := wrapError_eq_ok.mp hoverlay
      contractsFound := hcontracts
      templateFilled := hstrict
      overlayFilled := hstrict'
      combined_eq := rfl
      genesisFound := hgenesis
      accepted := accept_eq_ok_iff.mp haccept
      chain_eq := rfl
      total_eq := rfl
      layout_eq := rfl
      warnings_eq := rfl }⟩
  · rintro ⟨course⟩
    obtain ⟨combined, chain, genesis, token, contracts, total, layout, outputs, warnings⟩ := result
    -- with what the result was put together from in its place, each stage can be run
    obtain ⟨ledger, alloc, template, overlay, hchecked, hresolved, htoken, hcheck, hledger,
      hsound, hrendered, htemplate, hoverlay, hcontracts, hft, hfo, hcombined, hgenesis,
      haccepted, hchain, htotal, hlayout, hwarnings⟩ := course
    dsimp only at *
    subst hchain htotal hlayout hwarnings hcombined
    refine bind_eq_ok.mpr ⟨_, wrapError_eq_ok.mpr hchecked, ?_⟩
    refine bind_eq_ok.mpr ⟨_, wrapError_eq_ok.mpr hresolved, ?_⟩
    refine bind_eq_ok.mpr ⟨_, loadToken_eq_ok_iff.mpr ⟨htoken, hcheck⟩, ?_⟩
    refine bind_eq_ok.mpr
      ⟨_, loadAlloc_eq_ok_iff.mpr ⟨ledger, hledger, hsound, hrendered⟩, ?_⟩
    refine bind_eq_ok.mpr ⟨_, wrapError_eq_ok.mpr htemplate, ?_⟩
    refine bind_eq_ok.mpr ⟨_, wrapError_eq_ok.mpr hoverlay, ?_⟩
    refine bind_eq_ok.mpr ⟨_, hcontracts, ?_⟩
    refine bind_eq_ok.mpr ⟨_, wrapError_eq_ok.mpr (resolve_eq_ok_iff.mpr ⟨hft, rfl⟩), ?_⟩
    refine bind_eq_ok.mpr ⟨_, wrapError_eq_ok.mpr (resolve_eq_ok_iff.mpr ⟨hfo, rfl⟩), ?_⟩
    refine bind_eq_ok.mpr ⟨_, hgenesis, ?_⟩
    exact bind_eq_ok.mpr ⟨_, accept_eq_ok_iff.mpr haccepted, rfl⟩

/-! ## A smallest build

Builds do succeed: one with two allocations, no more in the template than a genesis must
have, and the largest chain id. -/

def smallestLedger : Ledger :=
  { header := ⟨"wei", 18, "QIK"⟩
    buckets := [("treasury", ⟨"0x00000000000000000000000000000000000000aA", "007"⟩)]
    operators := []
    deployer := ⟨"0x00000000000000000000000000000000000000bb", "5"⟩ }

def smallestAlloc : Ledger.Alloc :=
  ⟨Named.ofList smallestLedger.funds,
    Wei.sum (smallestLedger.entries.map fun entry => entry.2.wei)⟩

/-- The ledger as a file has it, its records as arrays. -/
def smallestLedgerFile : Document := .array [
  .array [.string "wei", .number (.integer 18), .string "QIK"],
  .object [("treasury",
    .array [.string "0x00000000000000000000000000000000000000aA", .string "007"])],
  .array [],
  .array [.string "0x00000000000000000000000000000000000000bb", .string "5"]]

def smallestTokenFile : Document := .array [
  .string "QIK", .string "QIK", .number (.integer 18), .string "fixed", .string "0"]

/-- A genesis with the given balances. -/
def smallestGenesis (alloc : Document) : Document := .object [
  ("alloc", alloc), ("baseFeeEnabled", .bool true), ("difficulty", .string "0x1"),
  ("extraData", .string "0x"), ("gasLimit", .string "0x1")]

def smallestTemplate : Document := .object [
  ("genesis", smallestGenesis (.string "\x7b\x7bPREALLOCATIONS\x7d\x7d")),
  ("params", .object [("chainID", .string "\x7b\x7bCHAIN_ID\x7d\x7d")])]

def smallestOverlay : Document := .object [
  ("params", .object [("engine", .object [("ibft", .object [("type", .string "PoA")])])])]

def smallestFiles : FileSystem :=
  { nodes := [
      (["template"], .file (smallestTemplate.canonical .compact).toUTF8),
      (["poa.json"], .file (smallestOverlay.canonical .compact).toUTF8),
      (["token"], .file (smallestTokenFile.canonical .compact).toUTF8),
      (["ledger"], .file (smallestLedgerFile.canonical .compact).toUTF8)]
    workingDirectory := [] }

def smallestOptions : BuildOptions :=
  { BuildOptions.default with
    environment := .mainnet
    template := "template"
    overlayDirectory := ""
    token := "token"
    allocations := "ledger"
    chainId := 18446744073709551615
    targets := ⟨some "all", none, none, some "genesis", none⟩ }

/-- The template with its placeholders filled in. -/
def smallestFilled : Document := .object [
  ("genesis", smallestGenesis smallestAlloc.document),
  ("params", .object [("chainID", .number (.integer 18446744073709551615))])]

def smallestCombined : Document := .object [
  ("genesis", smallestGenesis smallestAlloc.document),
  ("params", .object [
    ("chainID", .number (.integer 18446744073709551615)),
    ("engine", .object [("ibft", .object [("type", .string "PoA")])]),
    ("forks", .object [])])]

def smallest : Build :=
  { combined := smallestCombined
    chain := withGenesis "/genesis" smallestCombined
    genesis := smallestGenesis smallestAlloc.document
    token := ⟨"QIK", "QIK", 18, "fixed", "0"⟩
    contracts := none
    total := smallestAlloc.total
    layout := .compact
    outputs := ⟨"all", "chain.json", "/genesis", "chain-metadata.json", "pos-addresses.json"⟩
    warnings := [.noMinGasPrice] }

theorem sound_smallestLedger : smallestLedger.Sound Ledger.defaultOptions where
  unit := rfl
  decimals := rfl
  token := rfl
  buckets := by decide
  entries := by decide
  distinct := by decide

theorem load_smallestToken : smallestFiles.load Token.ofWritten smallestOptions.token
    = .ok ⟨"QIK", "QIK", 18, "fixed", "0"⟩ :=
  FileSystem.load_canonical smallestTokenFile rfl (by decide) (by decide) rfl

theorem load_smallestLedger : smallestFiles.load Ledger.ofWritten smallestOptions.allocations
    = .ok smallestLedger :=
  FileSystem.load_canonical smallestLedgerFile rfl (by decide) (by decide) rfl

theorem load_smallestTemplate :
    smallestFiles.loadDocument smallestOptions.template = .ok smallestTemplate :=
  FileSystem.loadDocument_canonical rfl (by decide) (by decide) (by decide)

theorem load_smallestOverlay :
    smallestFiles.loadDocument smallestOptions.overlay = .ok smallestOverlay :=
  FileSystem.loadDocument_canonical rfl (by decide) (by decide) (by decide)

/-- The template is filled in alike for every ledger and every engine. -/
theorem fill_smallestTemplate_alloc (opts : BuildOptions) (alloc : Ledger.Alloc) {ledger : Ledger}
    (contracts : Option Contracts) (halloc : alloc.accounts = Named.ofList ledger.funds)
    (h : opts.chainId = 18446744073709551615) :
    smallestTemplate.fill (values opts alloc contracts) = .object [
      ("genesis", smallestGenesis alloc.document),
      ("params", .object [("chainID", .number (.integer 18446744073709551615))])] := by
  have hpreallocations := fill_preallocations opts alloc contracts halloc
  have hid := fill_chainId opts alloc contracts (by rw [h]; decide)
  rw [h] at hid
  generalize values opts alloc contracts = values at hpreallocations hid
  rw [Document.fill] at hpreallocations hid
  have hone : Placeholder.fill values "0x1" = .string "0x1" :=
    Placeholder.fill_plain values (by decide)
  have hdata : Placeholder.fill values "0x" = .string "0x" :=
    Placeholder.fill_plain values (by decide)
  simp only [smallestTemplate, smallestGenesis, Document.fill, Document.fillMembers,
    hpreallocations, hid, hone, hdata]
  rfl

theorem fill_smallestTemplate (opts : BuildOptions) (contracts : Option Contracts)
    (h : opts.chainId = 18446744073709551615) :
    smallestTemplate.fill (values opts smallestAlloc contracts) = smallestFilled :=
  fill_smallestTemplate_alloc opts smallestAlloc contracts rfl h

theorem fill_smallestOverlay (values : Placeholder.Values) :
    smallestOverlay.fill values = smallestOverlay := by
  have htype : Placeholder.fill values "PoA" = .string "PoA" :=
    Placeholder.fill_plain values (by decide)
  simp only [smallestOverlay, Document.fill, Document.fillMembers, htype]

theorem combine_smallest (values : Placeholder.Values)
    (h : smallestTemplate.fill values = smallestFilled) :
    (combine (smallestTemplate.fill values) (smallestOverlay.fill values)).ensureForks
      smallestOptions.environment smallestOptions.supportedForks = smallestCombined := by
  rw [h, fill_smallestOverlay]
  rfl

theorem findings_smallest : findings smallestFiles smallestOptions.policy smallestCombined
    (smallestGenesis smallestAlloc.document) = ⟨[], [.noMinGasPrice]⟩ := by rfl

theorem tokens_smallestTemplate :
    smallestTemplate.tokens = ["PREALLOCATIONS", "CHAIN_ID"] := by
  have hone : Placeholder.names "0x1" = [] := Placeholder.names_plain (by decide)
  have hdata : Placeholder.names "0x" = [] := Placeholder.names_plain (by decide)
  simp only [smallestTemplate, smallestGenesis, Document.tokens, Document.tokensOfMembers,
    names_chainId, names_preallocations, hone, hdata]
  rfl

theorem tokens_smallestOverlay : smallestOverlay.tokens = [] := by
  have htype : Placeholder.names "PoA" = [] := Placeholder.names_plain (by decide)
  simp only [smallestOverlay, Document.tokens, Document.tokensOfMembers, htype]
  rfl

theorem unresolved_smallest (alloc : Ledger.Alloc) :
    smallestTemplate.unresolved (values smallestOptions alloc none)
      ++ smallestOverlay.unresolved (values smallestOptions alloc none) = [] := by
  rw [Document.unresolved, Document.unresolved, tokens_smallestTemplate, tokens_smallestOverlay]
  rfl

theorem warnings_smallest (values : Placeholder.Values)
    (hunresolved : smallestTemplate.unresolved values ++ smallestOverlay.unresolved values = [])
    (hfill : smallestTemplate.fill values = smallestFilled) :
    (smallestTemplate.unresolved values ++ smallestOverlay.unresolved values).map
        Warning.unresolved
      ++ engineWarnings smallestOptions.consensus
        (combine (smallestTemplate.fill values) (smallestOverlay.fill values))
      ++ (findings smallestFiles smallestOptions.policy smallestCombined
        (smallestGenesis smallestAlloc.document)).warnings = [.noMinGasPrice] := by
  rw [hunresolved, hfill, fill_smallestOverlay, findings_smallest]
  rfl

/-- **There are builds that succeed.** -/
theorem build_smallest : build smallestFiles smallestOptions = .ok smallest :=
  build_eq_ok_iff.mpr ⟨{
    ledger := smallestLedger
    alloc := smallestAlloc
    template := smallestTemplate
    overlay := smallestOverlay
    checked := rfl
    resolved := rfl
    tokenLoaded := load_smallestToken
    tokenChecked := rfl
    ledgerLoaded := load_smallestLedger
    sound := sound_smallestLedger
    rendered := sound_smallestLedger.alloc
    templateLoaded := load_smallestTemplate
    overlayLoaded := load_smallestOverlay
    contractsFound := rfl
    templateFilled := .inl rfl
    overlayFilled := .inl rfl
    combined_eq := (combine_smallest _ (fill_smallestTemplate _ _ rfl)).symm
    genesisFound := rfl
    accepted := congrArg Findings.errors findings_smallest
    chain_eq := rfl
    total_eq := rfl
    layout_eq := rfl
    warnings_eq :=
      (warnings_smallest _ (unresolved_smallest _) (fill_smallestTemplate _ _ rfl)).symm }⟩

end Build

end ChainGenesis
