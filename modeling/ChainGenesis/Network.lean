import ChainGenesis.Text.Ascii
import ChainGenesis.Text.Quoted

/-!
# What a network is chosen by

A build is for one consensus engine, in one environment, under one chain id. The words for
the first two are read in any case of ASCII letters; the chain id has no default, because
a network that shares another's id accepts its transactions.
-/

namespace ChainGenesis

/-- Why the options of a build cannot be used. -/
inductive OptionProblem where
  | unknownConsensus (word : String)
  | unknownEnvironment (word : String)
  | noChainId (onMainnet : Bool)
  deriving DecidableEq

def OptionProblem.message : OptionProblem → String
  | .unknownConsensus word => "consensus must be poa or pos, got " ++ Text.quoted word
  | .unknownEnvironment word =>
    "env must be devnet, staging or mainnet, got " ++ Text.quoted word
  | .noChainId onMainnet =>
    "chain id is required and must be non-zero"
      ++ if onMainnet then " (mandatory for mainnet)" else ""

/-- The consensus engine of a chain. -/
inductive Consensus where
  /-- Proof of authority. -/
  | poa
  /-- Proof of stake. -/
  | pos
  deriving DecidableEq

namespace Consensus

/-- The word for the engine, which is also the name of its overlay. -/
def name : Consensus → String
  | .poa => "poa"
  | .pos => "pos"

/-- The engine's type as the chain configuration states it. -/
def engineType : Consensus → String
  | .poa => "PoA"
  | .pos => "PoS"

def parse (word : String) : Except OptionProblem Consensus :=
  let word := Text.lowercase word
  if word = "poa" then .ok .poa
  else if word = "pos" then .ok .pos
  else .error (.unknownConsensus word)

end Consensus

/-- Where a chain is deployed. -/
inductive Environment where
  /-- A local network for development. -/
  | devnet
  /-- The network before production. -/
  | staging
  /-- The production network. -/
  | mainnet
  deriving DecidableEq

namespace Environment

def name : Environment → String
  | .devnet => "devnet"
  | .staging => "staging"
  | .mainnet => "mainnet"

def parse (word : String) : Except OptionProblem Environment :=
  let word := Text.lowercase word
  if word = "devnet" then .ok .devnet
  else if word = "staging" then .ok .staging
  else if word = "mainnet" then .ok .mainnet
  else .error (.unknownEnvironment word)

end Environment

end ChainGenesis
