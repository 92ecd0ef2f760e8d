import ChainGenesis.Proofs.Build.Accepted
import ChainGenesis.Proofs.Build.Stages

/-!
# What the flags decide

Three flags make a build more or less strict: whether placeholders may stay, whether the engine
may be named in the old way, and whether proof of stake may do without its contracts. They are
asked at different stages, some of them more than once. None of them decides what is built. A
flag can turn a build into a failure of one kind, and where it does not the outcome is the same
with the flag and without it, warnings and other failures included.
-/

namespace ChainGenesis

/-! ## The flags -/

namespace BuildOptions

/-- The options with placeholders refused or left standing. -/
def withStrict (opts : BuildOptions) (strict : Bool) : BuildOptions :=
  { opts with policy := { opts.policy with strict } }

/-- The options with the old way to name the engine accepted or refused. -/
def withLegacyConsensus (opts : BuildOptions) (acceptLegacyConsensus : Bool) : BuildOptions :=
  { opts with policy := { opts.policy with acceptLegacyConsensus } }

/-- The options with missing contracts accepted or refused. -/
def withMissingContracts (opts : BuildOptions) (allowMissingContracts : Bool) : BuildOptions :=
  { opts with allowMissingContracts }

end BuildOptions

/-- A strict resolution is any other, unless it fails. -/
theorem resolve_strict (values : Placeholder.Values) (doc : Document) :
    FailsOrIs (fun _ => True) (resolve values true doc) (resolve values false doc) := by
  unfold resolve
  dsimp only
  cases (doc.unresolved values).isEmpty with
  | false => exact .inl ⟨_, trivial, rfl⟩
  | true => exact .inr rfl

namespace Build

open Validation (legacyKeys)

/-- Placeholders that had no replacement ended the build. -/
def IsUnresolved (error : GenesisError) : Prop := ∃ names, error = .unresolved names

/-- Contracts that were not there ended the build. -/
def IsDeployments (error : GenesisError) : Prop := ∃ problem, error = .deployments problem

/-! ## Stage by stage -/

theorem contractsFor_missing (fs : FileSystem) (opts : BuildOptions) :
    FailsOrIs IsDeployments (contractsFor fs (opts.withMissingContracts false))
      (contractsFor fs (opts.withMissingContracts true)) := by
  unfold contractsFor
  dsimp only [BuildOptions.withMissingContracts]
  cases opts.consensus with
  | poa => exact .refl ..
  | pos =>
      cases Contracts.load fs opts.deployments with
      | ok contracts => exact .refl ..
      | error problem => exact .inl ⟨_, ⟨problem, rfl⟩, rfl⟩

theorem gather_missing (fs : FileSystem) (opts : BuildOptions) :
    FailsOrIs IsDeployments (gather fs (opts.withMissingContracts false))
      (gather fs (opts.withMissingContracts true)) := by
  unfold gather
  -- the contracts come last, and what comes before them does not know the flag
  refine .after _ fun _ => .after _ fun outputs => .after _ fun token => .after _ fun alloc => ?_
  refine .after _ fun template => .after _ fun overlay => ?_
  exact (contractsFor_missing fs opts).bind fun contracts _ => .refl ..

theorem draft_strict (opts : BuildOptions) (inputs : Inputs) :
    FailsOrIs IsUnresolved (draft (opts.withStrict true) inputs)
      (draft (opts.withStrict false) inputs) := by
  have hresolve : ∀ doc, FailsOrIs IsUnresolved
      (wrapError .unresolved (resolve (values opts inputs.alloc inputs.contracts) true doc))
      (wrapError .unresolved (resolve (values opts inputs.alloc inputs.contracts) false doc)) :=
    fun doc => (resolve_strict _ doc).wrapError fun names _ => ⟨names, rfl⟩
  refine (hresolve inputs.template).bind fun template _ => ?_
  exact (hresolve inputs.overlay).bind fun overlay _ => .refl ..

/-! ## The whole build -/

/-- Builds whose first two stages are the same but for some failures are the same but for these:
the validation finds the same under every policy, because no key of the old layout is left. -/
theorem build_failsOrIs {reason : GenesisError → Prop} {fs : FileSystem}
    {opts opts' : BuildOptions} (hlayout : opts.layout = opts'.layout)
    (hgather : FailsOrIs reason (gather fs opts) (gather fs opts'))
    (hdraft : ∀ inputs, FailsOrIs reason (draft opts inputs) (draft opts' inputs)) :
    FailsOrIs reason (build fs opts) (build fs opts') := by
  rw [build_eq_stages, build_eq_stages]
  refine hgather.bind fun inputs _ => (hdraft inputs).bind fun drafted hdrafted => .inr ?_
  rw [hlayout, findings_policy (fun _ => get?_legacyKey_of_draft hdrafted) fs opts.policy
    opts'.policy]

/--
**No flag decides what is built.** Whether the old way to name the engine is accepted makes no
difference. With placeholders refused, a build fails because of a placeholder or has the outcome
it has with placeholders left standing; with missing contracts refused, it fails because of
the contracts or has the outcome it has with missing contracts accepted. And the documents of a
build that succeeds have no key of the old layout, wherever one came from.
-/
theorem outcome_of_flags (fs : FileSystem) (opts : BuildOptions) :
    (∀ accepts, build fs (opts.withLegacyConsensus accepts) = build fs opts)
      ∧ FailsOrIs IsUnresolved (build fs (opts.withStrict true))
        (build fs (opts.withStrict false))
      ∧ FailsOrIs IsDeployments (build fs (opts.withMissingContracts false))
        (build fs (opts.withMissingContracts true))
      ∧ ∀ result, build fs opts = .ok result → ∀ key ∈ legacyKeys,
        result.combined.get? key = none ∧ result.chain.get? key = none := by
  refine ⟨fun accepts => ?_, ?_, ?_, fun result hbuild key hkey => ?_⟩
  · have hsame : FailsOrIs (fun _ => False) (build fs (opts.withLegacyConsensus accepts))
        (build fs opts) :=
      build_failsOrIs rfl (.refl _ (gather fs opts)) fun inputs => .refl _ (draft opts inputs)
    exact hsame.eq
  · exact build_failsOrIs rfl (.refl _ (gather fs opts)) (draft_strict opts)
  · exact build_failsOrIs rfl (gather_missing fs opts) fun inputs =>
      .refl _ (draft opts inputs)
  · obtain ⟨course⟩ := build_eq_ok_iff.mp hbuild
    have hname : key ≠ "genesis" := by
      rintro rfl
      exact absurd hkey (by decide)
    have hcombined := course.get?_legacyKey hkey
    exact ⟨hcombined, (course.get?_chain hname).trans hcombined⟩

/-- The smallest build is the same with the old way to name the engine accepted, and none of its
documents has a key of the old layout. -/
theorem outcome_of_flags_smallest :
    build smallestFiles (smallestOptions.withLegacyConsensus true) = .ok smallest
      ∧ ∀ key ∈ ["consensus", "consensusMode", "pos", "consensusRaw"],
        smallest.combined.get? key = none ∧ smallest.chain.get? key = none := by
  obtain ⟨haccepts, _, _, hkeys⟩ := outcome_of_flags smallestFiles smallestOptions
  exact ⟨(haccepts true).trans build_smallest, hkeys smallest build_smallest⟩

end Build

end ChainGenesis
