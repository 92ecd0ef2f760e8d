import ChainGenesis.Deployments
import ChainGenesis.Ledger.Balances
import ChainGenesis.Token

/-!
# Errors

Everything that can end an operation on a genesis, by cause. The wording of an error is
`GenesisError.message`, and only the system and the JSON reader add words of their own.
-/

namespace ChainGenesis

/-- Why an operation on a genesis failed. -/
inductive GenesisError where
  | file (error : FileError)
  | token (problem : TokenProblem)
  | allocation (problem : AllocationProblem)
  | unresolved (names : List String)
  | deployments (problem : DeploymentsProblem)
  | missingGenesis
  /-- Validation found errors; the first of them, and how many. -/
  | validation (first : Issue) (total : Nat)
  | options (problem : OptionProblem)
  deriving DecidableEq

def GenesisError.message (words : Wording) : GenesisError → String
  | .file error => error.message words
  | .token problem => "token config invariant violated: " ++ problem.message
  | .allocation problem => "allocation verification failed: " ++ problem.message words
  | .unresolved names => "unresolved placeholders: " ++ commaList names
  | .deployments problem => "pos deployments: " ++ problem.message words
  | .missingGenesis => "genesis object is required"
  | .validation first total =>
    "genesis validation failed: " ++ first.display words ++ " (" ++ errorCount total ++ ")"
  | .options problem => "invalid options: " ++ problem.message

/-- An outcome whose failure has another cause here. -/
def wrapError {ε δ α : Type} (wrap : ε → δ) : Except ε α → Except δ α
  | .ok value => .ok value
  | .error error => .error (wrap error)

end ChainGenesis
