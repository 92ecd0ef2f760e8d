import ChainGenesis.Amount
import ChainGenesis.Issue
import ChainGenesis.Text.Blank

/-!
# Validating documents

Two kinds of document are validated. A raw genesis funds accounts and sets the parameters
of the first block. A chain configuration names the chain, its upgrades and its engine, and
holds a genesis or the path of one. Each rule is a function from what it looks at to its
findings, and the findings of a document are those of its rules, one after the other.

A genesis that is referred to by path is validated with the rest if it is there, since a
split configuration should be judged as the document it was split from.
-/

namespace ChainGenesis

/-- Everything that was found, in the order of the rules. -/
structure Findings where
  errors : List Issue
  warnings : List Warning
  deriving DecidableEq

namespace Findings

def none : Findings := ⟨[], []⟩

def error (path : DocPath) (problem : Problem) : Findings := ⟨[⟨path, problem⟩], []⟩

def warning (w : Warning) : Findings := ⟨[], [w]⟩

instance : Append Findings := ⟨fun a b => ⟨a.errors ++ b.errors, a.warnings ++ b.warnings⟩⟩

@[simp] theorem errors_append (a b : Findings) : (a ++ b).errors = a.errors ++ b.errors := rfl

@[simp] theorem warnings_append (a b : Findings) :
    (a ++ b).warnings = a.warnings ++ b.warnings := rfl

/-- The findings of a list of rules. -/
def concat (findings : List Findings) : Findings := findings.foldr (· ++ ·) none

def isOk (findings : Findings) : Bool := findings.errors.isEmpty

end Findings

/-- How a chain configuration is judged. -/
structure Policy where
  /-- Keys of the old layout are errors, not warnings. -/
  strict : Bool
  /-- A missing engine is accepted where the old layout names one. -/
  acceptLegacyConsensus : Bool
  deriving DecidableEq

namespace Validation

/-! ## Raw genesis -/

/-- The rule for a balance: a string of decimal digits. -/
def checkBalance (path : DocPath) (balance : Option Document) : Findings :=
  match balance with
  | some (.string text) =>
    if Wei.isDigitString text then .none else .error (path.field "balance") .balanceNotDigits
  | _ => .error (path.field "balance") .balanceNotDigits

/-- The rules for one funded account. -/
def checkFunded (path : DocPath) (key : String) (entry : Document) : Findings :=
  (if Address.isValid key then .none else .error path .keyNotAddress)
    ++ match entry with
      | .object members => checkBalance path (Named.lookup? "balance" members)
      | _ => .error path .notObject

/-- The rules for the map of funded accounts. -/
def checkAlloc (path : DocPath) (alloc : Option Document) : Findings :=
  match alloc with
  | some (.object accounts) =>
    .concat (accounts.map fun (key, entry) => checkFunded (path.field key) key entry)
  | _ => .error path .notObject

/-- The rule for a string that must be there. -/
def checkString (path : DocPath) (value : Option Document) : Findings :=
  match value with
  | some (.string _) => .none
  | _ => .error path .stringRequired

/-- The rule for a truth value that must be there. -/
def checkBool (path : DocPath) (value : Option Document) : Findings :=
  match value with
  | some (.bool _) => .none
  | _ => .error path .booleanRequired

/-- The rules for a genesis that stands at a path. -/
def checkGenesis (path : DocPath) (doc : Document) : Findings :=
  match doc with
  | .object top =>
    checkAlloc (path.field "alloc") (Named.lookup? "alloc" top)
      ++ .concat (["gasLimit", "difficulty", "extraData"].map fun name =>
        checkString (path.field name) (Named.lookup? name top))
      ++ checkBool (path.field "baseFeeEnabled") (Named.lookup? "baseFeeEnabled" top)
  | _ => .error path .genesisNotObject

/-- Validates a raw genesis. -/
def rawGenesis (doc : Document) : Findings := checkGenesis .root doc

/-! ## Chain configuration -/

/-- Top-level keys of the old layout, which `params.engine.ibft` replaces. -/
def legacyKeys : List String := ["consensus", "consensusMode", "pos", "consensusRaw"]

/-- The keys of the old layout that a document has. -/
def legacyKeysOf (top : Members) : List String := legacyKeys.filter (Named.has top)

/-- The rule for keys of the old layout. -/
def checkLegacyKeys (policy : Policy) (top : Members) : Findings :=
  match legacyKeysOf top with
  | [] => .none
  | keys => if policy.strict then .error .root (.legacyKeys keys) else .warning (.legacyKeys keys)

/-- Whether there is a number under a name. -/
def hasNumber (members : Members) (name : String) : Bool :=
  (Named.lookup? name members).any Document.isNumber

/-- The rule for the upgrades: an object of objects. -/
def checkForks (path : DocPath) (forks : Option Document) : Findings :=
  match forks with
  | some (.object entries) =>
    .concat (entries.map fun (name, fork) =>
      if fork.isObject then .none else .error (path.field name) .forkNotObject)
  | _ => .error path .forksNotObject

/-- The rule for the type of the engine. -/
def checkEngineType (path : DocPath) (kind : Option Document) : Findings :=
  match kind with
  | none => .error path .required
  | some (.string kind) =>
    if kind.isEmpty then .error path .required
    else if kind = Consensus.engineType .poa ∨ kind = Consensus.engineType .pos then .none
    else .error path .engineTypeUnknown
  | some _ => .error path .engineTypeUnknown

/-- Whether the old layout names the engine. -/
def namesLegacyEngine (top : Members) : Bool :=
  match ((Named.lookup? "consensus" top).bind fun consensus => consensus.get? "type") with
  | some (.string kind) => Text.sameWord kind "ibft"
  | _ => false

/-- The rules for the engine. -/
def checkEngine (policy : Policy) (top : Members) (path : DocPath) (engine : Option Document) :
    Findings :=
  match engine with
  | some (.object engine) =>
    match Named.lookup? "ibft" engine with
    | some (.object ibft) =>
      checkEngineType (path.field "ibft" |>.field "type") (Named.lookup? "type" ibft)
    | _ =>
      if policy.acceptLegacyConsensus && namesLegacyEngine top then .warning .legacyConsensus
      else .error (path.field "ibft") .notObject
  | _ => .error path .notObject

/-- The rules for the parameters of a chain. -/
def checkParams (policy : Policy) (top : Members) (path : DocPath) (params : Option Document) :
    Findings :=
  match params with
  | some (.object params) =>
    (if hasNumber params "chainID" || hasNumber params "chainId" then .none
      else .error (path.field "chainID") .chainIdNotNumeric)
      ++ (if Named.has params "minGasPrice" then .none else .warning .noMinGasPrice)
      ++ checkForks (path.field "forks") (Named.lookup? "forks" params)
      ++ checkEngine policy top (path.field "engine") (Named.lookup? "engine" params)
  | _ => .error path .objectRequired

/-- Findings about a file, which say the name of the file. -/
def inFile (findings : Findings) (file : String) : Findings :=
  { findings with
    errors := findings.errors.map fun issue =>
      { issue with problem := .inFile issue.problem file } }

/-- The rules for a genesis that is referred to by path. A path that leads to no file is
left alone, because the file may not have been written yet. -/
def checkGenesisFile (fs : FileSystem) (path : DocPath) (file : String) : Findings :=
  if fs.isFile file then
    match fs.loadDocument file with
    | .ok doc => inFile (rawGenesis doc) file
    | .error error => .error path (.genesisUnloadable error)
  else .none

/-- The rules for the genesis of a chain: embedded, or a path that is not blank. -/
def checkReference (fs : FileSystem) (path : DocPath) (genesis : Option Document) : Findings :=
  match genesis with
  | none => .error path .required
  | some (.object members) => checkGenesis path (.object members)
  | some (.string file) =>
    if Text.isBlank file then .error path .genesisNotReferenced
    else checkGenesisFile fs path file
  | some _ => .error path .genesisNotReferenced

/-- Validates a chain configuration. -/
def chainConfig (fs : FileSystem) (policy : Policy) (doc : Document) : Findings :=
  match doc with
  | .object top =>
    checkLegacyKeys policy top
      ++ checkParams policy top (DocPath.root.field "params") (Named.lookup? "params" top)
      ++ checkReference fs (DocPath.root.field "genesis") (Named.lookup? "genesis" top)
  | _ => .error .root .chainNotObject

/-! ## Either -/

/-- Validates a document as a raw genesis if it funds accounts, and as a chain configuration
if it does not. -/
def document (fs : FileSystem) (policy : Policy) (doc : Document) : Findings :=
  if (doc.get? "alloc").isSome then rawGenesis doc else chainConfig fs policy doc

/-- Loads a file and validates it. -/
def file (fs : FileSystem) (policy : Policy) (path : String) : Except FileError Findings :=
  (fs.loadDocument path).map (document fs policy)

end Validation

end ChainGenesis
