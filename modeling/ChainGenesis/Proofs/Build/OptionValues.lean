import ChainGenesis.Proofs.Build.Course

/-!
# Options keep their type

The options of a build stand for placeholders, as texts, and a string that is one token becomes
what its text says in JSON. An option that is a string is quoted for that reason. Whatever it
looks like, be it a number, a truth value, a string with quotes of its own or a token, it is the
same string afterwards. The chain id is a number, the base fee is switched on or off by a truth
value, and the balances are the map that was rendered.
-/

namespace ChainGenesis.Build

open Placeholder (tokenText)

/-- What the placeholders of options and balances are to become. -/
def optionValues (opts : BuildOptions) (alloc : Ledger.Alloc) : List (String × Document) := [
  ("BLOCK_GAS_LIMIT", .string opts.gasLimit),
  ("GENESIS_DIFFICULTY", .string opts.difficulty),
  ("VALIDATOR_EXTRA_DATA", .string opts.extraData),
  ("MIN_GAS_PRICE", .string opts.minGasPrice),
  ("CHAIN_ID", .number (.integer opts.chainId)),
  ("BASE_FEE_ENABLED", .bool opts.baseFeeEnabled),
  ("PREALLOCATIONS", alloc.document)]

theorem isName_of_mem_optionValues {opts : BuildOptions} {alloc : Ledger.Alloc}
    {option : String × Document} (h : option ∈ optionValues opts alloc) :
    Placeholder.IsName option.1.toList := by
  have hnames : ∀ name ∈ (optionValues opts alloc).map Prod.fst,
      Placeholder.IsName name.toList := by
    simp only [optionValues, List.map_cons, List.map_nil]
    decide
  exact hnames _ (List.mem_map_of_mem h)

/-- **The replacement of an option says the option in JSON.** -/
theorem parse_optionValue {opts : BuildOptions} {ledger : Ledger} {alloc : Ledger.Alloc}
    (contracts : Option Contracts) (hrange : opts.chainId < 18446744073709551616)
    (halloc : alloc.accounts = Named.ofList ledger.funds) {option : String × Document}
    (h : option ∈ optionValues opts alloc) :
    ∃ text, Named.lookup? option.1 (values opts alloc contracts) = some text
      ∧ Document.parse text = .ok option.2 := by
  have hvalues := lookup?_values opts alloc contracts
  simp only [List.forall_mem_cons] at hvalues
  obtain ⟨hid, hgas, hdifficulty, hprice, hfee, hbalances, hextra, _⟩ := hvalues
  simp only [optionValues, List.mem_cons, List.not_mem_nil, or_false] at h
  rcases h with rfl | rfl | rfl | rfl | rfl | rfl | rfl
  · exact ⟨_, hgas, Document.parse_json _⟩
  · exact ⟨_, hdifficulty, Document.parse_json _⟩
  · exact ⟨_, hextra, Document.parse_json _⟩
  · exact ⟨_, hprice, Document.parse_json _⟩
  · exact ⟨_, hid, parse_chainId hrange⟩
  · exact ⟨_, hfee, Document.parse_bool _⟩
  · exact ⟨_, hbalances, Ledger.Alloc.parse_text halloc⟩

/--
**Options are not retyped.** If a ledger is verified, its balances can be rendered, and with the
values of a build a token that stands for an option or for the balances becomes exactly what the
option is: a text stays that text, whatever it looks like, the chain id becomes a number, the base
fee a truth value, and the balances the map that was rendered. So it is for the token alone, and
wherever it is the whole of a string in a document that is resolved.
-/
theorem option_values_kept {ledger : Ledger} {verifying : VerifyOptions} (opts : BuildOptions)
    (contracts : Option Contracts) (hrange : opts.chainId < 18446744073709551616)
    (hverified : (ledger.verify verifying).issues = []) :
    ∃ alloc, ledger.alloc = .ok alloc ∧ ∀ option ∈ optionValues opts alloc, ∀ strict,
      resolve (values opts alloc contracts) strict (.string (tokenText option.1))
          = .ok ⟨option.2, []⟩
        ∧ ∀ doc path resolved, doc.valueAt? path = some (.string (tokenText option.1)) →
          resolve (values opts alloc contracts) strict doc = .ok resolved →
          resolved.document.valueAt? path = some option.2 := by
  have hsound := Ledger.verify_issues_eq_nil_iff.mp hverified
  refine ⟨_, hsound.alloc, fun option hoption strict => ?_⟩
  obtain ⟨text, hlookup, hparse⟩ := parse_optionValue contracts hrange rfl hoption
  have hname := isName_of_mem_optionValues hoption
  refine ⟨resolve_token hname hlookup hparse strict, fun doc path resolved hleaf hresolve => ?_⟩
  obtain ⟨_, rfl⟩ := resolve_eq_ok_iff.mp hresolve
  rw [Document.valueAt?_fill _ hleaf, Document.fill, Placeholder.fill_tokenText hname hlookup,
    Placeholder.meaning_of_parse hparse]

/-- Options whose texts look like a number, a truth value, a string in quotes and a token. -/
def disguisedOptions : BuildOptions :=
  { smallestOptions with
    gasLimit := "30000000"
    difficulty := "true"
    extraData := "\"0x\""
    minGasPrice := "\x7b\x7bCHAIN_ID\x7d\x7d"
    baseFeeEnabled := true }

theorem option_values_kept_disguised :
    disguisedOptions.chainId < 18446744073709551616
      ∧ (smallestLedger.verify Ledger.defaultOptions).issues = []
      ∧ ∃ alloc, smallestLedger.alloc = .ok alloc
        ∧ ∀ option ∈ [("BLOCK_GAS_LIMIT", Document.string "30000000"),
            ("GENESIS_DIFFICULTY", .string "true"), ("VALIDATOR_EXTRA_DATA", .string "\"0x\""),
            ("MIN_GAS_PRICE", .string "\x7b\x7bCHAIN_ID\x7d\x7d"),
            ("CHAIN_ID", .number (.integer 18446744073709551615)),
            ("BASE_FEE_ENABLED", .bool true), ("PREALLOCATIONS", alloc.document)],
          resolve (values disguisedOptions alloc none) true (.string (tokenText option.1))
            = .ok ⟨option.2, []⟩ := by
  have hrange : disguisedOptions.chainId < 18446744073709551616 := by decide
  have hverified := Ledger.verify_issues_eq_nil_iff.mpr sound_smallestLedger
  obtain ⟨alloc, halloc, hkept⟩ := option_values_kept disguisedOptions none hrange hverified
  exact ⟨hrange, hverified, alloc, halloc, fun option hoption => (hkept option hoption true).1⟩

end ChainGenesis.Build
