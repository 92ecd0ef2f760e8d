import ChainGenesis.Ledger.Balances
import ChainGenesis.Token

/-!
# The premine report

The report breaks the total down for a reader: a line for each bucket by name, for each
operator by address, and for the deployer, with the exact amount and the amount in display
units. The lines are cut to some decimals, so their sum can fall short of the total.

The report does not wait for the balances: it goes through the ledger on its own, parses every
field again and adds up a total of its own. Where it stops it says so in its own words for the
place.
-/

namespace ChainGenesis

/-- One allocation as the report shows it. -/
structure ReportLine where
  name : String
  address : String
  wei : String
  units : String
  deriving DecidableEq

/-- An entry as the report comes to it: the name of its line, and where it stands. -/
structure ReportRow where
  name : String
  place : String
  entry : Allocation
  deriving DecidableEq

structure Report where
  token : Token
  buckets : List ReportLine
  operators : List ReportLine
  deployer : ReportLine
  totalWei : String
  totalUnits : String
  deriving DecidableEq

namespace Report

/-- What the total means under the supply policy. -/
def supplyPolicyNote : String := "fixed supply => premine total is total supply if no inflation"

/-- The buckets by name. -/
def bucketRows (buckets : Named Allocation) : List ReportRow :=
  buckets.map fun (name, entry) => ⟨name, "buckets." ++ name, entry⟩

/-- The operators from a position on. -/
def operatorRows : Nat → List Allocation → List ReportRow
  | _, [] => []
  | n, entry :: rest =>
    ⟨"operator", "operators[" ++ Nat.repr n ++ "]", entry⟩ :: operatorRows (n + 1) rest

def deployerRow (entry : Allocation) : ReportRow := ⟨"deployer", "deployer", entry⟩

/-- The line of an entry, and the total with its amount added. -/
def line (maxDecimals : Int) (row : ReportRow) (total : Wei) :
    Except AllocationProblem (ReportLine × Wei) :=
  match Address.parse row.entry.address with
  | .error rejection => .error (.unparsable (row.place ++ ".address") rejection)
  | .ok address =>
    match Wei.parse row.entry.amount with
    | .error rejection => .error (.unparsable (row.place ++ ".amount") rejection)
    | .ok amount =>
      .ok ({ name := row.name
             address := address.text
             wei := amount.text
             units := amount.inUnits maxDecimals }, total + amount)

/-- The lines of entries in their order, and the total with all of them added. -/
def linesOf (maxDecimals : Int) :
    List ReportRow → Wei → Except AllocationProblem (List ReportLine × Wei)
  | [], total => .ok ([], total)
  | row :: rest, total => do
    let (first, total) ← line maxDecimals row total
    let (others, total) ← linesOf maxDecimals rest total
    return (first :: others, total)

/-- Lines in ascending order of address, lines of one address in the order they had. -/
def byAddress (lines : List ReportLine) : List ReportLine :=
  lines.mergeSort fun a b => !decide (b.address < a.address)

/-- The report on a ledger. -/
def ofLedger (maxDecimals : Int) (token : Token) (ledger : Ledger) :
    Except AllocationProblem Report := do
  let (buckets, total) ← linesOf maxDecimals (bucketRows ledger.buckets) .zero
  let (operators, total) ← linesOf maxDecimals (operatorRows 0 ledger.operators) total
  let (deployer, total) ← line maxDecimals (deployerRow ledger.deployer) total
  return {
    token
    buckets
    operators := byAddress operators
    deployer
    totalWei := total.text
    totalUnits := total.inUnits maxDecimals }

/-- Every line, in the order of the report. -/
def lines (report : Report) : List ReportLine :=
  report.buckets ++ report.operators ++ [report.deployer]

/-! ## As JSON -/

def lineDocument (line : ReportLine) : Document :=
  .object [
    ("name", .string line.name),
    ("address", .string line.address),
    ("wei", .string line.wei),
    ("qik", .string line.units)]

/-- The report as JSON, its fields in their order. -/
def document (report : Report) : Document :=
  .object [
    ("token", report.token.document),
    ("buckets", .array (report.buckets.map lineDocument)),
    ("operators", .array (report.operators.map lineDocument)),
    ("deployer", lineDocument report.deployer),
    ("totalPremineWei", .string report.totalWei),
    ("totalPremineQIK", .string report.totalUnits),
    ("supplyPolicyNote", .string supplyPolicyNote)]

end Report

end ChainGenesis
