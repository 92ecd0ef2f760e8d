import ChainGenesis.Cli.Arguments
import ChainGenesis.Options

/-!
# Commands

The words at the front of a command line name a command, and each command has a form of its
own. What is read here is only what the command line says: the files it names need not
exist, and an option that no build can satisfy is still read.
-/

namespace ChainGenesis.Cli

/-- What is to be built, and how the outcome is shown. -/
structure BuildRequest where
  options : BuildOptions
  /-- The ledger that was named; without one the environment decides. -/
  allocations : Option String
  json : Bool

/-- What is to be validated, and how the findings are shown. -/
structure ValidateRequest where
  file : String
  policy : Policy
  json : Bool

/-- Which ledger is to be verified. -/
structure VerifyRequest where
  file : String
  allowZeroAddress : Bool

/-- Which ledger is to be reported on, and how the report is shown. -/
structure ReportRequest where
  file : String
  token : String
  maxDecimals : Int
  json : Bool

/-- Which document is to be written canonically; without a file, the one that is piped in. -/
structure CanonicalizeRequest where
  input : Option String
  pretty : Bool

inductive Command where
  | build (request : BuildRequest)
  | validate (request : ValidateRequest)
  | verify (request : VerifyRequest)
  | report (request : ReportRequest)
  | canonicalize (request : CanonicalizeRequest)

/-! ## Forms -/

namespace BuildRequest

/-- The options of the build, with the ledger of the environment if no other was named. -/
def complete (request : BuildRequest) : BuildOptions :=
  let allocations :=
    request.allocations.getD (BuildOptions.defaultAllocations request.options.environment)
  { request.options with allocations }

/-- An option that sets one of the options of the build. -/
def option {β : Type} (name : String) (read : String → Option β)
    (store : BuildOptions → β → BuildOptions) : Parameter BuildRequest :=
  Parameter.valued name read fun request value =>
    { request with options := store request.options value }

/-- A switch that sets one of the options of the build. -/
def switch (name : String) (set : BuildOptions → BuildOptions) : Parameter BuildRequest :=
  Parameter.switch name fun request => { request with options := set request.options }

/-- An option that says where an artifact goes. -/
def target (name : String) (store : OutputTargets → String → OutputTargets) :
    Parameter BuildRequest :=
  option name Value.path? fun options path => { options with targets := store options.targets path }

/-- More upgrades that the node supports. -/
def supportForks (text : String) (request : BuildRequest) : Option BuildRequest :=
  let names := request.options.supportedForks.getD [] ++ text.splitOn ","
  some { request with options := { request.options with supportedForks := some names } }

def parameters : List (Parameter BuildRequest) := [
  option "consensus" (fun word => (Consensus.parse word).toOption) (fun options consensus =>
    { options with consensus }) |>.orVariable "QIKCHAIN_CONSENSUS",
  option "env" (fun word => (Environment.parse word).toOption) (fun options environment =>
    { options with environment }) |>.orVariable "QIKCHAIN_ENV",
  option "template" Value.path? (fun options template =>
    { options with template }) |>.orVariable "QIKCHAIN_TEMPLATE",
  option "overlay-dir" Value.path? (fun options overlayDirectory =>
    { options with overlayDirectory }) |>.orVariable "QIKCHAIN_OVERLAY_DIR",
  option "token" Value.path? (fun options token =>
    { options with token }) |>.orVariable "QIKCHAIN_TOKEN",
  Parameter.valued "allocations" Value.path? (fun request path =>
    { request with allocations := some path }) |>.orVariable "QIKCHAIN_ALLOCATIONS",
  option "pos-deployments" Value.path? (fun options deployments =>
    { options with deployments }) |>.orVariable "QIKCHAIN_POS_DEPLOYMENTS",
  option "chain-id" Value.natural? (fun options chainId =>
    { options with chainId }) |>.orVariable "QIKCHAIN_CHAIN_ID",
  { option "gas-limit" some (fun options gasLimit => { options with gasLimit }) with
    otherName := some "block-gas-limit" },
  option "difficulty" some fun options difficulty => { options with difficulty },
  option "extra-data" some fun options extraData => { options with extraData },
  option "min-gas-price" some fun options minGasPrice => { options with minGasPrice },
  switch "base-fee-enabled" fun options => { options with baseFeeEnabled := true },
  switch "strict" fun options =>
    { options with policy := { options.policy with strict := true } },
  switch "accept-legacy-consensus" fun options =>
    { options with policy := { options.policy with acceptLegacyConsensus := true } },
  switch "allow-missing-pos-addresses" fun options =>
    { options with allowMissingContracts := true },
  switch "pretty" fun options => { options with layout := .pretty },
  { name := "supported-forks", effect := .values supportForks },
  target "out-combined" fun targets path => { targets with combined := some path },
  target "out" fun targets path => { targets with legacyOut := some path },
  target "out-chain" fun targets path => { targets with chain := some path },
  target "out-genesis" fun targets path => { targets with genesis := some path },
  target "metadata-out" fun targets path => { targets with metadata := some path },
  Parameter.switch "json" fun request => { request with json := true }]

def form : Form BuildRequest :=
  { start := ⟨BuildOptions.default, none, false⟩, parameters }

end BuildRequest

namespace ValidateRequest

def form : Form ValidateRequest :=
  { start := ⟨"", ⟨false, false⟩, false⟩
    parameters := [
      Parameter.switch "strict" fun request =>
        { request with policy := { request.policy with strict := true } },
      Parameter.switch "accept-legacy-consensus" fun request =>
        { request with policy := { request.policy with acceptLegacyConsensus := true } },
      Parameter.switch "json" fun request => { request with json := true }]
    word := some fun text request => (Value.path? text).map fun file => { request with file }
    wordRequired := true }

end ValidateRequest

/-- The ledger if no other is named. -/
def defaultLedger : String := BuildOptions.defaultAllocations .devnet

namespace VerifyRequest

def form : Form VerifyRequest :=
  { start := ⟨defaultLedger, false⟩
    parameters := [
      Parameter.valued "file" Value.path? (fun (request : VerifyRequest) file =>
        { request with file }) |>.orVariable "QIKCHAIN_ALLOCATIONS",
      Parameter.switch "allow-zero-address" fun request =>
        { request with allowZeroAddress := true }] }

end VerifyRequest

namespace ReportRequest

/-- Decimals of amounts in display units if nothing else is said. -/
def defaultDecimals : Int := 6

def form : Form ReportRequest :=
  { start := ⟨defaultLedger, BuildOptions.default.token, defaultDecimals, false⟩
    parameters := [
      Parameter.valued "file" Value.path? (fun (request : ReportRequest) file =>
        { request with file }) |>.orVariable "QIKCHAIN_ALLOCATIONS",
      Parameter.valued "token" Value.path? (fun (request : ReportRequest) token =>
        { request with token }) |>.orVariable "QIKCHAIN_TOKEN",
      Parameter.valued "max-decimals" Value.integer? fun request maxDecimals =>
        { request with maxDecimals },
      Parameter.switch "json" fun request => { request with json := true }] }

end ReportRequest

namespace CanonicalizeRequest

def form : Form CanonicalizeRequest :=
  { start := ⟨none, false⟩
    parameters := [Parameter.switch "pretty" fun request => { request with pretty := true }]
    word := some fun text request =>
      (Value.path? text).map fun path => { request with input := some path } }

end CanonicalizeRequest

/-- The variables of the environment that a command line may take values from. -/
def variableNames : List String :=
  BuildRequest.parameters.filterMap Parameter.source

/-! ## The words in front -/

/-- What help can be asked for by name. -/
def helpTopics : List (List String) := [
  [], ["help"], ["canonicalize"],
  ["genesis"], ["genesis", "help"], ["genesis", "build"], ["genesis", "validate"],
  ["allocations"], ["allocations", "help"], ["allocations", "verify"], ["allocations", "report"]]

/-- The first word of a command line, and what stands behind it. -/
def readWord : List String → Except Stop (String × List String)
  | [] => .error .usage
  | argument :: rest =>
    match Argument.ofText argument with
    | .word text => .ok (text, rest)
    | .letters letters => do
      readLetters letters
      readWord rest
    | .option name value => do
      readCommon name value
      readWord rest
    | .separator => .error .usage

/-- Answers a request for help on a topic. -/
def helpOn {α : Type} (topic : List String) : Except Stop α :=
  .error (if helpTopics.contains topic then .help else .usage)

namespace Command

/-- Reads a command on a genesis. -/
def parseGenesis (vars : Variables) (arguments : List String) : Except Stop Command := do
  let (word, arguments) ← readWord arguments
  match word with
  | "build" => return .build (← BuildRequest.form.read vars arguments)
  | "validate" => return .validate (← ValidateRequest.form.read vars arguments)
  | "help" => helpOn ("genesis" :: arguments)
  | _ => throw .usage

/-- Reads a command on a ledger. -/
def parseAllocations (vars : Variables) (arguments : List String) :
    Except Stop Command := do
  let (word, arguments) ← readWord arguments
  match word with
  | "verify" => return .verify (← VerifyRequest.form.read vars arguments)
  | "report" => return .report (← ReportRequest.form.read vars arguments)
  | "help" => helpOn ("allocations" :: arguments)
  | _ => throw .usage

/-- Reads a command line. -/
def parse (vars : Variables) (arguments : List String) : Except Stop Command := do
  let (word, arguments) ← readWord arguments
  match word with
  | "genesis" => parseGenesis vars arguments
  | "allocations" => parseAllocations vars arguments
  | "canonicalize" => return .canonicalize (← CanonicalizeRequest.form.read vars arguments)
  | "help" => helpOn arguments
  | _ => throw .usage

end Command

end ChainGenesis.Cli
