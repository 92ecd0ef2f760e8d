import ChainGenesis.Merge
import ChainGenesis.Network

/-!
# Fork activation

A development network runs every protocol upgrade from its first block, as far as the node
supports it; other networks schedule theirs by other means and start with none. Saying
nothing about what the node supports, or naming nothing, means everything.
-/

namespace ChainGenesis

namespace Forks

/-- The upgrades a development network activates, in the order in which they are listed. -/
def catalogue : List String := [
  "homestead", "byzantium", "constantinople", "petersburg", "istanbul", "london",
  "eip150", "eip155", "eip158", "quorumCalcAlignment", "txHashWithType", "londonFix"]

/-- The upgrades a node supports, as far as the list says anything. -/
def restriction (supported : Option (List String)) : Option (List String) :=
  supported.filter fun names => names.any fun name => name ≠ ""

/-- The upgrades that are active at genesis. -/
def active (env : Environment) (supported : Option (List String)) : List String :=
  match env with
  | .devnet =>
    match restriction supported with
    | none => catalogue
    | some names => catalogue.filter fun fork => names.contains fork
  | _ => []

/-- An upgrade that is active from the first block. -/
def atGenesis : Document := .object [("block", .number (.integer 0))]

/-- The active upgrades as a chain configuration states them. -/
def activations (env : Environment) (supported : Option (List String)) : Document :=
  .object (Named.ofList ((active env supported).map fun fork => (fork, atGenesis)))

end Forks

/-- Puts the active upgrades under `params.forks` of an object that has no object there,
making `params` an object if it is none. -/
def Document.ensureForks (env : Environment) (supported : Option (List String)) :
    Document → Document
  | .object root =>
    let params := objectAt root "params"
    match Named.lookup? "forks" params with
    | some (.object _) => .object root
    | _ =>
      let params := Named.put "forks" (Forks.activations env supported) params
      .object (Named.put "params" (.object params) root)
  | other => other

end ChainGenesis
