import ChainGenesis.Json.Layout
import ChainGenesis.Issue
import ChainGenesis.Ledger

/-!
# Balances at genesis

A genesis funds accounts: a map from addresses to balances. Rendering a ledger adds one entry
after another, in the order of the ledger, and stops at the first that is no address or no
amount. The total is the sum over entries, so on a ledger that gives one account twice it is
more than the map holds; verification refuses such a ledger first.
-/

namespace ChainGenesis

/-- Why a ledger gives no balances. -/
inductive AllocationProblem where
  /-- Verification found issues; the first of them, and how many. -/
  | unsound (first : Issue) (count : Nat)
  /-- A field of an entry cannot be parsed; where it stands, and why not. -/
  | unparsable (place : String) (rejection : Rejection)
  deriving DecidableEq

/-- The count of errors as messages put it. -/
def errorCount (n : Nat) : String := Nat.repr n ++ " error(s)"

def AllocationProblem.message (words : Wording) : AllocationProblem → String
  | .unsound first count => first.display words ++ " (" ++ errorCount count ++ ")"
  | .unparsable place rejection => place ++ ": " ++ rejection.message

namespace Ledger

/-- A balance as a genesis states it. -/
def balance (amount : Wei) : Document := .object [("balance", .string amount.text)]

/-- Balances at genesis and their total. -/
structure Alloc where
  accounts : Members
  total : Wei

/-- The balances of no entry at all. -/
def Alloc.empty : Alloc := ⟨[], .zero⟩

/-- The balances with an entry added. An account that has a balance already gets this one in
its place, while the total counts both. -/
def Alloc.add (alloc : Alloc) (path : DocPath) (entry : Allocation) :
    Except AllocationProblem Alloc :=
  match Address.parse entry.address with
  | .error rejection => .error (.unparsable (path.text ++ ".address") rejection)
  | .ok address =>
    match Wei.parse entry.amount with
    | .error rejection => .error (.unparsable (path.text ++ ".amount") rejection)
    | .ok amount =>
      .ok ⟨alloc.accounts.put address.text (balance amount), alloc.total + amount⟩

/-- The balances of a ledger. -/
def alloc (ledger : Ledger) : Except AllocationProblem Alloc :=
  ledger.entries.foldlM (fun alloc entry => alloc.add entry.1 entry.2) .empty

def Alloc.document (alloc : Alloc) : Document := .object alloc.accounts

/-- The map as a canonical text in the pretty layout. -/
def Alloc.text (alloc : Alloc) : String := alloc.document.canonical .pretty

end Ledger

end ChainGenesis
