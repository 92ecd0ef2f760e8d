import ChainGenesis.Proofs.Build.Combined
import ChainGenesis.Proofs.Validation

/-!
# The stages of a build

A build has three stages. It gathers its inputs, it drafts a combined document from them, and it
makes a result of the draft if nothing is found against it. Files are looked at in the first
stage and by the validation before the last; the policy is asked in the second stage and by the
validation. What two builds have in common is said stage by stage.
-/

namespace ChainGenesis.Build

open Validation (legacyKeys)

/-- What a build reads, and where its artifacts go. -/
structure Inputs where
  outputs : Outputs
  token : Token
  alloc : Ledger.Alloc
  template : Document
  overlay : Document
  contracts : Option Contracts

/-- A combined document that is still to be validated, with the warnings so far. -/
structure Draft where
  combined : Document
  genesis : Document
  warnings : List Warning

/-- The first stage: reads everything. -/
def gather (fs : FileSystem) (opts : BuildOptions) : Except GenesisError Inputs := do
  wrapError .options opts.check
  let outputs ← wrapError .file (opts.targets.resolve fs.workingPath)
  let token ← loadToken fs opts.token
  let alloc ← loadAlloc fs opts.allocations
  let template ← wrapError .file (fs.loadDocument opts.template)
  let overlay ← wrapError .file (fs.loadDocument opts.overlay)
  let contracts ← contractsFor fs opts
  return { outputs, token, alloc, template, overlay, contracts }

/-- The second stage: puts the document together. -/
def draft (opts : BuildOptions) (inputs : Inputs) : Except GenesisError Draft := do
  let values := values opts inputs.alloc inputs.contracts
  let template ← wrapError .unresolved (resolve values opts.policy.strict inputs.template)
  let overlay ← wrapError .unresolved (resolve values opts.policy.strict inputs.overlay)
  let unresolved := (template.unresolved ++ overlay.unresolved).map Warning.unresolved
  let combined := combine template.document overlay.document
  let mismatch := engineWarnings opts.consensus combined
  let combined := combined.ensureForks opts.environment opts.supportedForks
  let genesis ← embeddedGenesis combined
  return { combined, genesis, warnings := unresolved ++ mismatch }

/-- The last stage: turns a draft into a result, unless errors were found. -/
def finish (layout : Layout) (inputs : Inputs) (draft : Draft) (found : Findings) :
    Except GenesisError Build := do
  accept found
  return {
    combined := draft.combined
    chain := withGenesis inputs.outputs.genesis draft.combined
    genesis := draft.genesis
    token := inputs.token
    contracts := inputs.contracts
    total := inputs.alloc.total
    layout
    outputs := inputs.outputs
    warnings := draft.warnings ++ found.warnings }

/-- **A build is its three stages**, with a validation before the last. -/
theorem build_eq_stages (fs : FileSystem) (opts : BuildOptions) :
    build fs opts
      = gather fs opts >>= fun inputs =>
        draft opts inputs >>= fun drafted =>
        finish opts.layout inputs drafted
          (findings fs opts.policy drafted.combined drafted.genesis) := by
  simp only [build, gather, Build.draft, finish, bind_assoc, pure_bind]

/-- What the stages of a build that succeeds have made. -/
theorem stages_of_build {fs : FileSystem} {opts : BuildOptions} {result : Build}
    (h : build fs opts = .ok result) :
    ∃ inputs drafted, gather fs opts = .ok inputs ∧ draft opts inputs = .ok drafted
      ∧ result.combined = drafted.combined ∧ result.genesis = drafted.genesis := by
  rw [build_eq_stages] at h
  obtain ⟨inputs, hgather, h⟩ := bind_eq_ok.mp h
  obtain ⟨drafted, hdraft, h⟩ := bind_eq_ok.mp h
  obtain ⟨_, _, h⟩ := bind_eq_ok.mp h
  injection h with h
  subst h
  exact ⟨inputs, drafted, hgather, hdraft, rfl, rfl⟩

/-- No key of the old layout is left in a draft. -/
theorem get?_legacyKey_of_draft {opts : BuildOptions} {inputs : Inputs} {drafted : Draft}
    (h : draft opts inputs = .ok drafted) {key : String} (hkey : key ∈ legacyKeys) :
    drafted.combined.get? key = none := by
  obtain ⟨template, _, h⟩ := bind_eq_ok.mp h
  obtain ⟨overlay, _, h⟩ := bind_eq_ok.mp h
  obtain ⟨genesis, _, h⟩ := bind_eq_ok.mp h
  injection h with h
  rw [← h]
  exact get?_combine_legacyKey _ _ _ _ hkey

/-! ## What is found in a draft -/

theorem get?_withGenesis {path : String} {doc : Document} {file : String}
    (h : (withGenesis path doc).get? "genesis" = some (.string file)) : file = path := by
  obtain ⟨members, hmembers, hlookup⟩ := Document.get?_eq_some h
  cases doc with
  | object top =>
      injection hmembers with hmembers
      rw [← hmembers, Named.lookup?_put, if_pos rfl] at hlookup
      injection hlookup with hlookup
      injection hlookup with hlookup
      exact hlookup.symm
  | null | bool _ | number _ | string _ | array _ => exact absurd hmembers Document.noConfusion

/-- The findings depend on one file, the one that has the name of the stand-in. -/
theorem findings_congr {fs other : FileSystem}
    (h : FileSystem.SameFile fs other genesisStandIn) (policy : Policy)
    (combined genesis : Document) :
    findings fs policy combined genesis = findings other policy combined genesis := by
  unfold findings
  rw [Validation.chainConfig_congr policy fun file hfile => get?_withGenesis hfile ▸ h]

/-- Whatever files there are, there are the same warnings. -/
theorem warnings_findings_congr (fs other : FileSystem) (policy : Policy)
    (combined genesis : Document) :
    (findings fs policy combined genesis).warnings
      = (findings other policy combined genesis).warnings := by
  unfold findings
  rw [Findings.warnings_append, Findings.warnings_append,
    Validation.warnings_chainConfig_congr fs other]

/-- No policy finds more in a document without keys of the old layout than another. -/
theorem findings_policy {combined : Document}
    (h : ∀ key ∈ legacyKeys, combined.get? key = none) (fs : FileSystem)
    (policy policy' : Policy) (genesis : Document) :
    findings fs policy combined genesis = findings fs policy' combined genesis := by
  unfold findings
  cases combined with
  | object top =>
      rw [withGenesis, Document.set, Validation.chainConfig_put, Validation.chainConfig_put,
        Validation.besideGenesis_congr h policy policy']
  | null | bool _ | number _ | string _ | array _ => rfl

end ChainGenesis.Build
