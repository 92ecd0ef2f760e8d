import ChainGenesis.Files.Load
import ChainGenesis.Text.Ascii

/-!
# Deployed contracts

A proof-of-stake chain refers to two contracts that were deployed before: the staking
contract and the validator set. The deployments file gives their addresses, which are taken
in lowercase and must both be there. A build that may do without them carries tokens in
their place, to be filled in later.
-/

namespace ChainGenesis

/-- The addresses of the two contracts. -/
structure Contracts where
  staking : String
  validatorSet : String
  deriving DecidableEq

/-- Why the addresses are not known. -/
inductive DeploymentsProblem where
  | unreadable (path : String) (fault : IoFault)
  | unparsable (path : String) (fault : Fault)
  | incomplete (path : String)
  deriving DecidableEq

def DeploymentsProblem.message (words : Wording) : DeploymentsProblem → String
  | .unreadable path fault => "read " ++ path ++ ": " ++ words.system fault
  | .unparsable path fault => "parse " ++ path ++ ": " ++ words.reader (some path) fault
  | .incomplete path => path ++ " is missing staking/validatorSet addresses"

namespace Contracts

/-- Tokens in the place of the addresses. -/
def placeholders : Contracts :=
  ⟨"\x7b\x7bSTAKING_ADDRESS\x7d\x7d", "\x7b\x7bVALIDATOR_SET_ADDRESS\x7d\x7d"⟩

/-- Reads the address of one contract. -/
def readContract : Written → Except Fault String :=
  Written.readRecord [Written.field "address" Written.readText fun _ address => address] ""

def fields : List (Written.Field Contracts) := [
  Written.field "staking" readContract fun contracts staking => { contracts with staking },
  Written.field "validatorSet" readContract fun contracts validatorSet =>
    { contracts with validatorSet }]

/-- Reads a deployments file. -/
def ofWritten : Written → Except Fault Contracts := Written.readRecord fields ⟨"", ""⟩

/-- Loads a deployments file. -/
def load (fs : FileSystem) (path : String) : Except DeploymentsProblem Contracts :=
  match fs.load ofWritten path with
  | .error (.io path fault) => .error (.unreadable path fault)
  | .error (.parse path fault) => .error (.unparsable path fault)
  | .ok contracts =>
    if contracts.staking.isEmpty || contracts.validatorSet.isEmpty then .error (.incomplete path)
    else .ok ⟨Text.lowercase contracts.staking, Text.lowercase contracts.validatorSet⟩

/-- The addresses as JSON. -/
def document (contracts : Contracts) : Document :=
  .object [("staking", .string contracts.staking), ("validatorSet", .string contracts.validatorSet)]

end Contracts

end ChainGenesis
