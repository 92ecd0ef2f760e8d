import ChainGenesis.Issue
import ChainGenesis.Ledger
import ChainGenesis.Token

/-!
# Verifying the ledger

A ledger is sound if its header says what its amounts mean, every allocation has an account
and an amount, and no account is given twice. Verification checks all of it and lists what
is wrong in the order of the ledger: the header, then entry by entry the address and the
amount. Of two entries with one account the later one is at fault.
-/

namespace ChainGenesis

/-- How a ledger is judged. -/
structure VerifyOptions where
  /-- The zero address may be given an allocation. -/
  allowZeroAddress : Bool
  /-- The token the ledger must be for. -/
  expectedToken : String
  deriving DecidableEq

/-- What verification found. -/
structure Verification where
  issues : List Issue
  buckets : Nat
  operators : Nat
  /-- Accounts that were accepted, each once. -/
  addresses : Nat
  deriving DecidableEq

namespace Ledger

/-- The zero address is not allowed, and the token is the one this program issues. -/
def defaultOptions : VerifyOptions := ⟨false, Token.requiredSymbol⟩

/-- The unit of amounts. -/
def requiredUnit : String := "wei"

def headerPath (name : String) : DocPath := DocPath.root.field "meta" |>.field name

/-- The rule that a header field has one value. -/
def checkValue (path : DocPath) (ok : Bool) (expected : String) : List Issue :=
  if ok then [] else [⟨path, .mustBe expected⟩]

/-- The rules for the header and for having buckets at all. -/
def checkHeader (opts : VerifyOptions) (ledger : Ledger) : List Issue :=
  checkValue (headerPath "unit") (ledger.header.unit = requiredUnit) requiredUnit
    ++ checkValue (headerPath "decimals") (ledger.header.decimals = Token.requiredDecimals)
      (Token.intText Token.requiredDecimals)
    ++ checkValue (headerPath "token") (ledger.header.token = opts.expectedToken)
      opts.expectedToken
    ++ if ledger.buckets.isEmpty then [⟨DocPath.root.field "buckets", .emptyBuckets⟩] else []

/-- The account of an entry, or what is wrong with the address. -/
def account (opts : VerifyOptions) (text : String) : Except Problem Address :=
  if text.isEmpty then .error .required
  else
    match Address.parse text with
    | .error _ => .error .addressShape
    | .ok address =>
      if !opts.allowZeroAddress && address.isZero then .error .addressZero else .ok address

/-- The rule for an amount. -/
def checkAmount (path : DocPath) (amount : String) : List Issue :=
  match Wei.parse amount with
  | .ok _ => []
  | .error (.negative _) => [⟨path, .amountNegative⟩]
  | .error (.malformed _ _) => [⟨path, .amountShape⟩]

/-- Accounts that were accepted, with the path of the address that was the first to have
each. -/
abbrev Taken := List (Address × DocPath)

/-- The rules for an address, and the accounts that are taken after it. -/
def checkAddress (opts : VerifyOptions) (taken : Taken) (path : DocPath) (address : String) :
    List Issue × Taken :=
  match account opts address with
  | .error problem => ([⟨path, problem⟩], taken)
  | .ok address =>
    match taken.lookup address with
    | some first => ([⟨path, .addressTaken first address⟩], taken)
    | none => ([], (address, path) :: taken)

/-- The rules for a list of entries, and the accounts that are taken after them. -/
def checkEntries (opts : VerifyOptions) :
    Taken → List (DocPath × Allocation) → List Issue × Taken
  | taken, [] => ([], taken)
  | taken, (path, entry) :: rest =>
    let (ofAddress, taken) := checkAddress opts taken (path.field "address") entry.address
    let (ofRest, taken) := checkEntries opts taken rest
    (ofAddress ++ checkAmount (path.field "amount") entry.amount ++ ofRest, taken)

/-- Verifies a ledger. -/
def verify (opts : VerifyOptions) (ledger : Ledger) : Verification :=
  let (ofEntries, taken) := checkEntries opts [] ledger.entries
  { issues := checkHeader opts ledger ++ ofEntries
    buckets := ledger.buckets.length
    operators := ledger.operators.length
    addresses := taken.length }

end Ledger

end ChainGenesis
