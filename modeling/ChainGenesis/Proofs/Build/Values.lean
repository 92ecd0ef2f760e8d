import ChainGenesis.Build
import ChainGenesis.Proofs.Ledger.Rendered
import ChainGenesis.Proofs.Placeholder

/-!
# What the placeholders of a build become

The values of a build are texts, and a string that is one token becomes what the text says.
The chain id is written as a number and becomes one; the balances are written as a canonical
text and become the map that they were rendered from.
-/

namespace ChainGenesis.Build

open Placeholder (marked)

/-! ## The tokens of chain id and balances -/

def chainIdName : List Char := ['C', 'H', 'A', 'I', 'N', '_', 'I', 'D']

def preallocationsName : List Char :=
  ['P', 'R', 'E', 'A', 'L', 'L', 'O', 'C', 'A', 'T', 'I', 'O', 'N', 'S']

theorem chainId_token :
    "\x7b\x7bCHAIN_ID\x7d\x7d" = String.ofList (marked chainIdName) := rfl

theorem preallocations_token :
    "\x7b\x7bPREALLOCATIONS\x7d\x7d" = String.ofList (marked preallocationsName) := rfl

theorem names_chainId : Placeholder.names "\x7b\x7bCHAIN_ID\x7d\x7d" = ["CHAIN_ID"] := by
  rw [chainId_token]
  exact Placeholder.names_marked (by decide)

theorem names_preallocations :
    Placeholder.names "\x7b\x7bPREALLOCATIONS\x7d\x7d" = ["PREALLOCATIONS"] := by
  rw [preallocations_token]
  exact Placeholder.names_marked (by decide)

/-! ## Their values -/

/-- What the placeholders of options and balances stand for, whatever the contracts are. -/
theorem lookup?_values (opts : BuildOptions) (alloc : Ledger.Alloc)
    (contracts : Option Contracts) :
    ∀ entry ∈ [("CHAIN_ID", Nat.repr opts.chainId), ("BLOCK_GAS_LIMIT", quoted opts.gasLimit),
        ("GENESIS_DIFFICULTY", quoted opts.difficulty), ("MIN_GAS_PRICE", quoted opts.minGasPrice),
        ("BASE_FEE_ENABLED", String.ofList (Text.bool opts.baseFeeEnabled)),
        ("PREALLOCATIONS", alloc.text), ("VALIDATOR_EXTRA_DATA", quoted opts.extraData)],
      Named.lookup? entry.1 (values opts alloc contracts) = some entry.2 := by
  unfold values
  simp only [List.forall_mem_cons, Named.lookup?_ofList]
  cases contracts <;> exact ⟨rfl, rfl, rfl, rfl, rfl, rfl, rfl, List.forall_mem_nil _⟩

theorem lookup?_values_chainId (opts : BuildOptions) (alloc : Ledger.Alloc)
    (contracts : Option Contracts) :
    Named.lookup? "CHAIN_ID" (values opts alloc contracts) = some (Nat.repr opts.chainId) :=
  lookup?_values opts alloc contracts _ List.mem_cons_self

theorem lookup?_values_preallocations (opts : BuildOptions) (alloc : Ledger.Alloc)
    (contracts : Option Contracts) :
    Named.lookup? "PREALLOCATIONS" (values opts alloc contracts) = some alloc.text :=
  lookup?_values opts alloc contracts ("PREALLOCATIONS", alloc.text) (by simp)

/-- The decimal of a chain id is read as that number. -/
theorem parse_chainId {chainId : Nat} (h : chainId < 18446744073709551616) :
    Document.parse (Nat.repr chainId) = .ok (.number (.integer chainId)) := by
  have hrange : Number.InRange chainId := by
    unfold Number.InRange
    omega
  have htext : Nat.repr chainId = String.ofList (Number.integer chainId).text := rfl
  rw [htext]
  exact Document.parse_integer hrange

/-- The token of the chain id becomes the chain id, as a number. -/
theorem fill_chainId (opts : BuildOptions) (alloc : Ledger.Alloc)
    (contracts : Option Contracts) (h : opts.chainId < 18446744073709551616) :
    (Document.string "\x7b\x7bCHAIN_ID\x7d\x7d").fill (values opts alloc contracts)
      = .number (.integer opts.chainId) := by
  rw [chainId_token, Document.fill, ← Placeholder.meaning_of_parse (parse_chainId h)]
  exact Placeholder.fill_marked (by decide)
    (lookup?_values_chainId opts alloc contracts)

/-- The token of the balances becomes the map of balances. -/
theorem fill_preallocations (opts : BuildOptions) (alloc : Ledger.Alloc) {ledger : Ledger}
    (contracts : Option Contracts) (h : alloc.accounts = Named.ofList ledger.funds) :
    (Document.string "\x7b\x7bPREALLOCATIONS\x7d\x7d").fill (values opts alloc contracts)
      = .object alloc.accounts := by
  rw [preallocations_token, Document.fill,
    ← Placeholder.meaning_of_parse (Ledger.Alloc.parse_text h)]
  exact Placeholder.fill_marked (by decide)
    (lookup?_values_preallocations opts alloc contracts)

end ChainGenesis.Build
