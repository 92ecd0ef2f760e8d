import ChainGenesis.Address
import ChainGenesis.Amount
import ChainGenesis.DocPath
import ChainGenesis.Json.Record

/-!
# The allocation ledger

The ledger says who holds the token at genesis: named buckets, the operators in the order
of the file, and the deployer. `Ledger.entries` lists all of them with the path of each,
and everything that goes through the ledger goes through it in that order.
-/

namespace ChainGenesis

/-- An address and an amount, as they are written. -/
structure Allocation where
  address : String
  amount : String
  deriving DecidableEq

/-- The header of the ledger. -/
structure LedgerHeader where
  unit : String
  decimals : Int
  token : String
  deriving DecidableEq

/-- Who holds the token at genesis. -/
structure Ledger where
  header : LedgerHeader
  buckets : Named Allocation
  operators : List Allocation
  deployer : Allocation
  deriving DecidableEq

namespace Ledger

/-- The buckets with their paths. -/
def bucketEntries (buckets : Named Allocation) : List (DocPath × Allocation) :=
  buckets.map fun (name, bucket) => (DocPath.root.field "buckets" |>.field name, bucket)

/-- The operators from a position on, with their paths. -/
def operatorEntries : Nat → List Allocation → List (DocPath × Allocation)
  | _, [] => []
  | n, operator :: rest =>
    (DocPath.root.field "operators" |>.index n, operator) :: operatorEntries (n + 1) rest

def deployerPath : DocPath := DocPath.root.field "deployer"

/-- Every allocation with its path: buckets by name, operators in the order of the file, and
the deployer. -/
def entries (ledger : Ledger) : List (DocPath × Allocation) :=
  bucketEntries ledger.buckets ++ operatorEntries 0 ledger.operators
    ++ [(deployerPath, ledger.deployer)]

/-! ## Reading -/

def blankAllocation : Allocation := ⟨"", ""⟩

def allocationFields : List (Written.Field Allocation) := [
  Written.field "address" Written.readText fun entry address => { entry with address },
  Written.field "amount" Written.readText fun entry amount => { entry with amount }]

def readAllocation : Written → Except Fault Allocation :=
  Written.readRecord allocationFields blankAllocation

def blankHeader : LedgerHeader := ⟨"", 0, ""⟩

def headerFields : List (Written.Field LedgerHeader) := [
  Written.field "unit" Written.readText fun header unit => { header with unit },
  Written.field "decimals" Written.readInt64 fun header decimals => { header with decimals },
  Written.field "token" Written.readText fun header token => { header with token }]

def readHeader : Written → Except Fault LedgerHeader :=
  Written.readRecord headerFields blankHeader

/-- A ledger that says nothing. -/
def blank : Ledger := ⟨blankHeader, [], [], blankAllocation⟩

def fields : List (Written.Field Ledger) := [
  Written.field "meta" readHeader fun ledger header => { ledger with header },
  Written.field "buckets" (Written.readNamed readAllocation) fun ledger buckets =>
    { ledger with buckets },
  Written.field "operators" (Written.readList readAllocation) fun ledger operators =>
    { ledger with operators },
  Written.field "deployer" readAllocation fun ledger deployer => { ledger with deployer }]

/-- Reads a ledger file. -/
def ofWritten : Written → Except Fault Ledger := Written.readRecord fields blank

end Ledger

end ChainGenesis
