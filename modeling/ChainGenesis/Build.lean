import ChainGenesis.Digest
import ChainGenesis.Forks
import ChainGenesis.Ledger.Verify
import ChainGenesis.Options
import ChainGenesis.Placeholder

/-!
# Building a genesis

A build puts a chain together from five files: the token, the ledger, a template, the
overlay of the consensus engine and, for proof of stake, the deployed contracts. The
ledger's balances and the options fill in the placeholders of template and overlay, the
overlay is laid over the template, the engine is taken from the overlay alone, the upgrades
are added, and what comes out is validated before anything is written.

Out of the combined document come two more: the raw genesis inside it, and the chain
configuration that refers to the raw genesis by path. While the chain configuration is
validated the path is a stand-in, so that a stale file at the real place cannot decide
whether a build succeeds.

`build` reads files and writes none. `Build.write` writes the artifacts, one after the
other. If one cannot be written those before it stay, and of the one that failed the
beginning can be left.
-/

namespace ChainGenesis

/-- What a build makes, and where it is to go. -/
structure Build where
  /-- The chain configuration with the genesis inside it. -/
  combined : Document
  /-- The chain configuration that refers to the genesis. -/
  chain : Document
  /-- The raw genesis. -/
  genesis : Document
  token : Token
  /-- The contracts of a proof-of-stake chain. -/
  contracts : Option Contracts
  /-- The exact sum of the ledger. -/
  total : Wei
  layout : Layout
  outputs : Outputs
  warnings : List Warning

namespace Build

/-! ## Filling in the placeholders -/

/-- A text as a replacement that stays a string whatever it looks like. -/
def quoted (text : String) : String := String.ofList (Text.json text)

/-- The addresses of the contracts, if the chain needs any. -/
def contractsFor (fs : FileSystem) (opts : BuildOptions) :
    Except GenesisError (Option Contracts) :=
  match opts.consensus with
  | .poa => .ok none
  | .pos =>
    match Contracts.load fs opts.deployments with
    | .ok contracts => .ok (some contracts)
    | .error problem =>
      if opts.allowMissingContracts then .ok (some .placeholders)
      else .error (.deployments problem)

/-- What the placeholders of a build stand for. -/
def values (opts : BuildOptions) (alloc : Ledger.Alloc) (contracts : Option Contracts) :
    Placeholder.Values :=
  let common : List (String × String) := [
    ("CHAIN_ID", Nat.repr opts.chainId),
    ("BLOCK_GAS_LIMIT", quoted opts.gasLimit),
    ("GENESIS_DIFFICULTY", quoted opts.difficulty),
    ("MIN_GAS_PRICE", quoted opts.minGasPrice),
    ("BASE_FEE_ENABLED", String.ofList (Text.bool opts.baseFeeEnabled)),
    ("PREALLOCATIONS", alloc.text),
    ("POS_BLOCK_REWARD", quoted "0"),
    ("VALIDATOR_EXTRA_DATA", quoted opts.extraData)]
  let ofContracts : List (String × String) :=
    match contracts with
    | none => []
    | some contracts => [
        ("STAKING_ADDRESS", contracts.staking),
        ("VALIDATOR_SET_ADDRESS", contracts.validatorSet)]
  Named.ofList (common ++ ofContracts)

/-! ## Putting the document together -/

/-- An object without the keys of the old layout. -/
def withoutLegacyKeys : Document → Document
  | .object root =>
    .object (Validation.legacyKeys.foldl (fun root key => Named.remove key root) root)
  | other => other

/-- An object whose engine entries are the overlay's wherever the overlay has them, so that
nothing of the template's entry is left in them. -/
def withEngineOf (overlay : Document) : Document → Document
  | .object root =>
    let params := Document.objectAt root "params"
    let engine := Document.objectAt params "engine"
    let changes := ((overlay.at? ["params", "engine"]).bind Document.members?).getD []
    let params := Named.put "engine" (.object (Named.putAll engine changes)) params
    .object (Named.put "params" (.object params) root)
  | other => other

/-- The warning that the document names another engine than the one that was asked for. -/
def engineWarnings (consensus : Consensus) (doc : Document) : List Warning :=
  match doc.at? ["params", "engine", "ibft", "type"] with
  | some (.string found) =>
    if found = consensus.engineType then [] else [.engineMismatch found consensus]
  | _ => []

/-- The combined document of a filled-in template and overlay, but for the upgrades. -/
def combine (template overlay : Document) : Document :=
  withEngineOf overlay (withoutLegacyKeys (template.merge overlay))

/-- The document with another genesis. -/
def withGenesis (path : String) (doc : Document) : Document := doc.set "genesis" (.string path)

/-- Stands in for the path of the raw genesis while the chain configuration is validated. -/
def genesisStandIn : String := "__GENESIS_PATH__"

/-- The findings on a combined document with a genesis. -/
def findings (fs : FileSystem) (policy : Policy) (combined genesis : Document) : Findings :=
  Validation.chainConfig fs policy (withGenesis genesisStandIn combined)
    ++ Validation.rawGenesis genesis

/-- Turns errors that were found into a failure. -/
def accept (found : Findings) : Except GenesisError Unit :=
  match found.errors with
  | [] => .ok ()
  | first :: rest => .error (.validation first (rest.length + 1))

/-! ## The stages -/

/-- The token, checked. -/
def loadToken (fs : FileSystem) (path : String) : Except GenesisError Token := do
  let token ← wrapError .file (fs.load Token.ofWritten path)
  wrapError .token token.check
  return token

/-- The ledger's balances, once it is verified. -/
def loadAlloc (fs : FileSystem) (path : String) : Except GenesisError Ledger.Alloc := do
  let ledger ← wrapError .file (fs.load Ledger.ofWritten path)
  match (ledger.verify Ledger.defaultOptions).issues with
  | first :: rest => throw (.allocation (.unsound first (rest.length + 1)))
  | [] => wrapError .allocation ledger.alloc

/-- The genesis inside the combined document. -/
def embeddedGenesis (combined : Document) : Except GenesisError Document :=
  match combined.get? "genesis" with
  | some (.object members) => .ok (.object members)
  | _ => .error .missingGenesis

end Build

/-- Builds a genesis from the files that the options name. -/
def build (fs : FileSystem) (opts : BuildOptions) : Except GenesisError Build := do
  wrapError .options opts.check
  let outputs ← wrapError .file (opts.targets.resolve fs.workingPath)
  let token ← Build.loadToken fs opts.token
  let alloc ← Build.loadAlloc fs opts.allocations
  let template ← wrapError .file (fs.loadDocument opts.template)
  let overlay ← wrapError .file (fs.loadDocument opts.overlay)
  let contracts ← Build.contractsFor fs opts
  let values := Build.values opts alloc contracts
  let template ← wrapError .unresolved (resolve values opts.policy.strict template)
  let overlay ← wrapError .unresolved (resolve values opts.policy.strict overlay)
  let unresolved := (template.unresolved ++ overlay.unresolved).map Warning.unresolved
  let combined := Build.combine template.document overlay.document
  let mismatch := Build.engineWarnings opts.consensus combined
  let combined := combined.ensureForks opts.environment opts.supportedForks
  let genesis ← Build.embeddedGenesis combined
  let found := Build.findings fs opts.policy combined genesis
  Build.accept found
  return {
    combined
    chain := Build.withGenesis outputs.genesis combined
    genesis
    token
    contracts
    total := alloc.total
    layout := opts.layout
    outputs
    warnings := unresolved ++ mismatch ++ found.warnings }

namespace Build

/-! ## Artifacts -/

/-- The text of the contracts artifact, which is pretty in every build. -/
def contractsText (result : Build) : Option String :=
  result.contracts.map fun contracts => contracts.document.canonical .pretty

/-- The texts of the artifacts, by name. -/
def texts (result : Build) : List (String × String) :=
  [("chain", result.chain.canonical result.layout),
    ("combined", result.combined.canonical result.layout),
    ("genesis", result.genesis.canonical result.layout),
    ("metadata", result.token.metadata)]
    ++ (result.contractsText.map fun text => ("posAddresses", text)).toList

/-- The digests of the artifacts, by name. -/
def digests (result : Build) : List (String × Digest) :=
  result.texts.map fun (name, text) => (name, Digest.ofText text)

/-- The artifacts with their paths, in the order in which they are written. -/
def artifacts (result : Build) : List (String × String) :=
  [(result.outputs.genesis, result.genesis.canonical result.layout),
    (result.outputs.combined, result.combined.canonical result.layout),
    (result.outputs.chain, result.chain.canonical result.layout),
    (result.outputs.metadata, result.token.metadata)]
    ++ (result.contractsText.map fun text => (result.outputs.contracts, text)).toList

/-! ## Writing -/

/-- Makes the directory that a path stands in. -/
def makeParent (fs : FileSystem) (path : String) : FileSystem × Except FileError Unit :=
  match FilePath.parent? path with
  | none => (fs, .ok ())
  | some directory =>
    match fs.makeDirectories directory with
    | (fs, .ok ()) => (fs, .ok ())
    | (fs, .error fault) => (fs, .error (.io directory fault))

/-- Writes one artifact. -/
def writeArtifact (fs : FileSystem) (path text : String) : FileSystem × Except FileError Unit :=
  match makeParent fs path with
  | (fs, .error error) => (fs, .error error)
  | (fs, .ok ()) =>
    match fs.write path text.toUTF8 with
    | (fs, .ok ()) => (fs, .ok ())
    | (fs, .error fault) => (fs, .error (.io path fault))

/-- Writes artifacts one after the other, up to the first that fails. -/
def writeAll (fs : FileSystem) : List (String × String) → FileSystem × Except FileError Unit
  | [] => (fs, .ok ())
  | (path, text) :: rest =>
    match writeArtifact fs path text with
    | (fs, .ok ()) => writeAll fs rest
    | failed => failed

/-- Writes every artifact of a build. -/
def write (fs : FileSystem) (result : Build) : FileSystem × Except FileError Unit :=
  writeAll fs result.artifacts

end Build

end ChainGenesis
