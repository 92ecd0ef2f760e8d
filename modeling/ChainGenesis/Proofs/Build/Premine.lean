import ChainGenesis.Proofs.Build.Combined

/-!
# The premine that is reported is the premine that is shipped

A ledger passes through many hands before its balances are in a genesis: it is verified and
rendered to text, the text stands for a placeholder, is read again as JSON, and the result is
merged, edited and split. Nothing is lost or added on the way, and the total that the build
reports is what the shipped accounts hold.
-/

namespace ChainGenesis.Build

/--
**What a build reports as its premine is what it ships.** If the template has the tokens for
the chain id and the balances in their places and the overlay mentions neither place, then
the genesis, embedded and raw, funds exactly the accounts of the ledger, one for each entry,
they hold the reported total together, and the chain id is the integer that was asked for.
-/
theorem premine_shipped {fs : FileSystem} {opts : BuildOptions} {result : Build}
    {ledger : Ledger} {template overlay : Document} (hbuild : build fs opts = .ok result)
    (hledger : fs.load Ledger.ofWritten opts.allocations = .ok ledger)
    (htemplate : fs.loadDocument opts.template = .ok template)
    (hoverlay : fs.loadDocument opts.overlay = .ok overlay)
    (hid : template.at? ["params", "chainID"] = some (.string "\x7b\x7bCHAIN_ID\x7d\x7d"))
    (halloc : template.at? ["genesis", "alloc"] = some (.string "\x7b\x7bPREALLOCATIONS\x7d\x7d"))
    (hparams : overlay.Leaves ["params", "chainID"])
    (hgenesis : overlay.Leaves ["genesis", "alloc"])
    (hrange : opts.chainId < 18446744073709551616) :
    ∃ accounts : Members,
      result.combined.at? ["genesis", "alloc"] = some (.object accounts)
      ∧ result.genesis.get? "alloc" = some (.object accounts)
      ∧ accounts.Perm ledger.funds
      ∧ (accounts.map Prod.fst).Nodup
      ∧ accounts.length = ledger.buckets.length + ledger.operators.length + 1
      ∧ (∀ entry ∈ ledger.entries, Address.parse entry.2.address = .ok entry.2.account
          ∧ Wei.parse entry.2.amount = .ok entry.2.wei)
      ∧ Ledger.premine? accounts = some result.total
      ∧ result.combined.at? ["params", "chainID"] = some (.number (.integer opts.chainId))
      ∧ result.chain.at? ["params", "chainID"] = some (.number (.integer opts.chainId)) := by
  obtain ⟨course⟩ := build_eq_ok_iff.mp hbuild
  obtain rfl : course.ledger = ledger := by
    injection course.ledgerLoaded.symm.trans hledger
  obtain rfl : course.template = template := by
    injection course.templateLoaded.symm.trans htemplate
  obtain rfl : course.overlay = overlay := by
    injection course.overlayLoaded.symm.trans hoverlay
  have hsound := course.sound
  have haccounts := congrArg Ledger.Alloc.accounts course.alloc_eq
  have htotal : result.total = Wei.sum (course.ledger.entries.map fun entry => entry.2.wei) := by
    rw [course.total_eq, course.alloc_eq]
  -- the two places of the template, through every stage
  have hshipped := course.at?_of_template (.top (by decide) (by decide)) halloc hgenesis
  rw [fill_preallocations opts _ _ haccounts, haccounts] at hshipped
  have hchainId := course.at?_of_template (.params (by decide) (by decide)) hid hparams
  rw [fill_chainId _ _ _ hrange] at hchainId
  have hnodup := (hsound.accounts_perm.map Prod.fst).nodup_iff.mpr hsound.nodup_funds
  refine ⟨Named.ofList course.ledger.funds, hshipped, ?_, hsound.accounts_perm, hnodup, ?_, ?_,
    ?_, hchainId, ?_⟩
  · rw [← Document.at?_singleton, ← course.at?_genesis]
    exact hshipped
  · rw [hsound.accounts_perm.length_eq, Ledger.funds, List.length_map, Ledger.length_entries]
  · intro entry hmem
    have hentry := hsound.entries entry hmem
    refine ⟨?_, Wei.parse_eq_ok_iff.mpr ⟨hentry.amount, rfl⟩⟩
    rw [Address.parse, if_pos hentry.address]
    rfl
  · rw [hsound.premine?, htotal]
  · rw [Document.at?_congr (course.get?_chain (by decide))]
    exact hchainId

/-- The accounts of the smallest build hold seven and five, for the largest chain id. -/
theorem premine_shipped_smallest : ∃ accounts : Members,
    smallest.genesis.get? "alloc" = some (.object accounts)
      ∧ accounts.length = 2
      ∧ smallest.total = ⟨12⟩
      ∧ Ledger.premine? accounts = some smallest.total
      ∧ smallest.chain.at? ["params", "chainID"]
        = some (.number (.integer 18446744073709551615)) := by
  have hparams : smallestOverlay.Leaves ["params", "chainID"] := .inside rfl (.absent rfl)
  have hgenesis : smallestOverlay.Leaves ["genesis", "alloc"] := .absent rfl
  obtain ⟨accounts, _, hraw, _, _, hlength, _, hpremine, _, hid⟩ := premine_shipped build_smallest
    load_smallestLedger load_smallestTemplate load_smallestOverlay rfl rfl hparams hgenesis
    (by decide)
  exact ⟨accounts, hraw, hlength, by decide, hpremine, hid⟩

end ChainGenesis.Build
