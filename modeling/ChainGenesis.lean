import ChainGenesis.Build
import ChainGenesis.Cli.Run
import ChainGenesis.Ledger.Report
import ChainGenesis.Main
import ChainGenesis.Proofs.Amount.Parsing
import ChainGenesis.Proofs.Build.Accepted
import ChainGenesis.Proofs.Build.Addresses
import ChainGenesis.Proofs.Build.Dependence
import ChainGenesis.Proofs.Build.Edits
import ChainGenesis.Proofs.Build.Interrupted
import ChainGenesis.Proofs.Build.OnDisk
import ChainGenesis.Proofs.Build.OptionValues
import ChainGenesis.Proofs.Build.Policy
import ChainGenesis.Proofs.Build.Premine
import ChainGenesis.Proofs.Build.Reordered
import ChainGenesis.Proofs.Cli.Validate
import ChainGenesis.Proofs.Digest
import ChainGenesis.Proofs.DocPath.Unambiguous
import ChainGenesis.Proofs.Forks
import ChainGenesis.Proofs.Json.Identity
import ChainGenesis.Proofs.Json.Layouts
import ChainGenesis.Proofs.Json.Permuted
import ChainGenesis.Proofs.Json.Records
import ChainGenesis.Proofs.Ledger.Ascending
import ChainGenesis.Proofs.Ledger.Breakdown
import ChainGenesis.Proofs.Ledger.Conserved
import ChainGenesis.Proofs.Ledger.Consumers
import ChainGenesis.Proofs.Ledger.Counted
import ChainGenesis.Proofs.Ledger.Issues
import ChainGenesis.Proofs.Ledger.Located
import ChainGenesis.Proofs.Ledger.Reordered
import ChainGenesis.Proofs.Merge
import ChainGenesis.Proofs.Outputs
import ChainGenesis.Proofs.Placeholder.Merged
import ChainGenesis.Proofs.Placeholder.Settled
import ChainGenesis.Proofs.SplitVerdict
import ChainGenesis.Proofs.Token
import ChainGenesis.Proofs.Validation.Chain
import ChainGenesis.Proofs.Validation.Flags
