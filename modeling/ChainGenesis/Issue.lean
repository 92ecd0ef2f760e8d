import ChainGenesis.Address
import ChainGenesis.DocPath
import ChainGenesis.Files.Load
import ChainGenesis.Network

/-!
# Issues and warnings

Validation and verification do not stop at the first thing that is wrong: they list every
issue, each with the path where it was found, in the order of their rules. What is only
unwise is a warning. The words for both are here, and only here, but for what is said of a
file that cannot be loaded.
-/

namespace ChainGenesis

/-- What is wrong at a path. -/
inductive Problem where
  -- of a chain configuration
  | chainNotObject
  | legacyKeys (keys : List String)
  | objectRequired
  | chainIdNotNumeric
  | forksNotObject
  | forkNotObject
  | engineTypeUnknown
  | genesisNotReferenced
  | genesisUnloadable (error : FileError)
  -- of a genesis
  | genesisNotObject
  | keyNotAddress
  | balanceNotDigits
  | stringRequired
  | booleanRequired
  /-- A problem of a file that the document refers to. -/
  | inFile (problem : Problem) (file : String)
  -- of either
  | required
  | notObject
  -- of a ledger
  | mustBe (expected : String)
  | emptyBuckets
  | addressShape
  | addressZero
  | addressTaken (first : DocPath) (address : Address)
  | amountNegative
  | amountShape
  deriving DecidableEq

/-- Words joined by a comma and a space. -/
def commaList (words : List String) : String := ", ".intercalate words

/-- The advice on keys of the old layout. -/
def legacyMessage (keys : List String) : String :=
  "legacy top-level key(s) present: " ++ commaList keys ++ "; migrate to params.engine.ibft"

namespace Problem

def message (words : Wording) : Problem → String
  | .chainNotObject => "chain config must be a JSON object"
  | .legacyKeys keys => legacyMessage keys
  | .objectRequired => "object is required"
  | .chainIdNotNumeric => "must be numeric (params.chainId is also accepted)"
  | .forksNotObject => "must be a non-null object"
  | .forkNotObject => "must be an object such as \x7b\"block\": 0\x7d"
  | .engineTypeUnknown => "must be \"PoA\" or \"PoS\""
  | .genesisNotReferenced => "must be an embedded object or a non-empty string path"
  | .genesisUnloadable error => "failed to load genesis file: " ++ error.message words
  | .genesisNotObject => "genesis must be a JSON object"
  | .keyNotAddress => "key is not an address"
  | .balanceNotDigits => "must be a non-negative base-10 digit string"
  | .stringRequired => "is required and must be a string"
  | .booleanRequired => "is required and must be a boolean"
  | .inFile problem file => problem.message words ++ " (in " ++ file ++ ")"
  | .required => "is required"
  | .notObject => "must be an object"
  | .mustBe expected => "must be " ++ expected
  | .emptyBuckets => "must not be empty"
  | .addressShape => "must be 0x + 40 hex chars"
  | .addressZero => "zero address is not allowed"
  | .addressTaken first address => "duplicates " ++ first.text ++ " (" ++ address.text ++ ")"
  | .amountNegative => "must be non-negative"
  | .amountShape => "must be a base-10 integer string"

end Problem

/-- Something that is wrong, and where. -/
structure Issue where
  path : DocPath
  problem : Problem
  deriving DecidableEq

namespace Issue

/-- The path as it is shown: an issue of the whole document shows none. -/
def pathText (issue : Issue) : String := if issue.path = [] then "" else issue.path.text

def message (words : Wording) (issue : Issue) : String := issue.problem.message words

/-- The issue in one line. -/
def display (words : Wording) (issue : Issue) : String :=
  if issue.pathText.isEmpty then issue.message words
  else issue.pathText ++ ": " ++ issue.message words

end Issue

/-- Something that is unwise but allowed. -/
inductive Warning where
  | legacyKeys (keys : List String)
  | legacyConsensus
  | noMinGasPrice
  | unresolved (name : String)
  | engineMismatch (found : String) (consensus : Consensus)
  deriving DecidableEq

def Warning.message : Warning → String
  | .legacyKeys keys => legacyMessage keys
  | .legacyConsensus => "legacy consensus schema accepted; migrate to params.engine.ibft"
  | .noMinGasPrice => "params.minGasPrice is recommended"
  | .unresolved name => "placeholder \x7b\x7b" ++ name ++ "\x7d\x7d left unresolved"
  | .engineMismatch found consensus =>
    "params.engine.ibft.type is " ++ Text.quoted found ++ " but " ++ consensus.name
      ++ " consensus expects " ++ Text.quoted consensus.engineType

end ChainGenesis
