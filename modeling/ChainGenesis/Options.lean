import ChainGenesis.Error
import ChainGenesis.Validation

/-!
# Options of a build

A build is told which network it is for, which files to read, the parameters of the first
block, how strict to be, and where its artifacts go. What is left out has a default, and a
place that is left out is found next to another: the chain configuration next to the
combined document, everything else next to the chain configuration.
-/

namespace ChainGenesis

/-- Where the artifacts are to go, as far as it was said. -/
structure OutputTargets where
  combined : Option String
  /-- An older way to say `combined`, which is ignored if that is said too. -/
  legacyOut : Option String
  chain : Option String
  genesis : Option String
  metadata : Option String
  deriving DecidableEq

/-- Where each artifact goes. -/
structure Outputs where
  combined : String
  chain : String
  /-- The raw genesis, whose path is absolute because the chain configuration states it. -/
  genesis : String
  metadata : String
  contracts : String
  deriving DecidableEq

namespace OutputTargets

/-- Nothing was said. -/
def unsaid : OutputTargets := ⟨none, none, none, none, none⟩

/-- Finds a place for each artifact. -/
def resolve (targets : OutputTargets) (workingDirectory : String) : Except FileError Outputs :=
  let combined := (targets.combined.or targets.legacyOut).getD "build/genesis.json"
  let chain := targets.chain.getD (FilePath.sibling combined "chain.json")
  let genesis := targets.genesis.getD (FilePath.sibling chain "genesis-eth.json")
  match FilePath.absolute? workingDirectory genesis with
  | none => .error (.io genesis .invalidInput)
  | some genesis => .ok {
      combined
      chain
      genesis
      metadata := targets.metadata.getD (FilePath.sibling chain "chain-metadata.json")
      contracts := FilePath.sibling chain "pos-addresses.json" }

end OutputTargets

structure BuildOptions where
  consensus : Consensus
  environment : Environment
  /-- The template of the document, with placeholders. -/
  template : String
  /-- The directory with an overlay for each consensus engine. -/
  overlayDirectory : String
  token : String
  allocations : String
  /-- The deployments file, which only proof of stake reads. -/
  deployments : String
  chainId : Nat
  gasLimit : String
  difficulty : String
  extraData : String
  minGasPrice : String
  baseFeeEnabled : Bool
  policy : Policy
  /-- Proof of stake may do without the addresses of its contracts. -/
  allowMissingContracts : Bool
  layout : Layout
  /-- The upgrades the node supports; none means all of them. -/
  supportedForks : Option (List String)
  targets : OutputTargets

namespace BuildOptions

/-- The ledger of an environment, if no other is named. -/
def defaultAllocations (environment : Environment) : String :=
  "config/allocations/" ++ environment.name ++ ".json"

/-- What holds if nothing is said. -/
def default : BuildOptions :=
  { consensus := .poa
    environment := .devnet
    template := "config/genesis.template.json"
    overlayDirectory := "config/consensus"
    token := "config/token.json"
    allocations := defaultAllocations .devnet
    deployments := "build/pos-deployments.json"
    chainId := 0
    gasLimit := "0x1c9c380"
    difficulty := "0x1"
    extraData := "0x"
    minGasPrice := "0"
    baseFeeEnabled := false
    policy := ⟨false, false⟩
    allowMissingContracts := false
    layout := .compact
    supportedForks := none
    targets := .unsaid }

/-- The overlay for the consensus engine. -/
def overlay (opts : BuildOptions) : String :=
  FilePath.join opts.overlayDirectory (opts.consensus.name ++ ".json")

/-- Refuses options that no build can satisfy. -/
def check (opts : BuildOptions) : Except OptionProblem Unit :=
  if opts.chainId = 0 then .error (.noChainId (opts.environment = .mainnet)) else .ok ()

end BuildOptions

end ChainGenesis
