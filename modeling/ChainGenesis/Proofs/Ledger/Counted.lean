import ChainGenesis.Proofs.Json.Fields
import ChainGenesis.Proofs.Ledger.Rendered
import ChainGenesis.Proofs.Load

/-!
# Which written allocations count

A ledger file writes members of a buckets object, items of an operators array and a deployer.
The buckets are a collection by name, so of the members that are written under one name the last
one is the bucket, and no other is seen by verification or rendered. Everything else that is
written counts: a sound ledger has an account for each bucket name, each operator and the
deployer.
-/

namespace ChainGenesis.Ledger

open Grammar
open Written (Holds)

/-! ## The parts of a written ledger -/

theorem holds_buckets : Holds fields 1 "buckets" (Written.readNamed readAllocation)
    Ledger.buckets :=
  Written.holds_of_field (by decide) rfl (fun _ _ => rfl) (by simp [fields])

theorem holds_operators : Holds fields 2 "operators" (Written.readList readAllocation)
    Ledger.operators :=
  Written.holds_of_field (by decide) rfl (fun _ _ => rfl) (by simp [fields])

theorem holds_deployer : Holds fields 3 "deployer" readAllocation Ledger.deployer :=
  Written.holds_of_field (by decide) rfl (fun _ _ => rfl) (by simp [fields])

/-- The allocations that a ledger writes: the members of its buckets, the items of its operators,
which may be left out, and its deployer. -/
structure Writes (written : Written) (buckets : List (StringLiteral × Written))
    (operators : List Written) (deployer : Written) : Prop where
  buckets : written.fieldAt? "buckets" 1 = some (.object buckets none)
  operators : written.fieldAt? "operators" 2 = some (.array operators none)
    ∨ written.fieldAt? "operators" 2 = none ∧ operators = []
  deployer : written.fieldAt? "deployer" 3 = some deployer

/-- The written allocations that count: the last bucket of each name, the operators and the
deployer. -/
def counted (buckets : List (StringLiteral × Written)) (operators : List Written)
    (deployer : Written) : List Written :=
  (Named.lastOfEach (fun member => member.1.text) buckets).map Prod.snd ++ operators ++ [deployer]

theorem length_counted (buckets : List (StringLiteral × Written)) (operators : List Written)
    (deployer : Written) : (counted buckets operators deployer).length
      = (buckets.map fun member => member.1.text).dedup.length + operators.length + 1 := by
  rw [counted, List.length_append, List.length_append, List.length_map, List.length_singleton,
    ← Named.map_lastOfEach, List.length_map]

/-- All that is written counts if and only if no bucket name is repeated. -/
theorem length_counted_eq_iff {buckets : List (StringLiteral × Written)}
    {operators : List Written} {deployer : Written} :
    (counted buckets operators deployer).length = buckets.length + operators.length + 1
      ↔ (buckets.map fun member => member.1.text).Nodup := by
  rw [← Named.length_lastOfEach_eq_iff, counted, List.length_append, List.length_append,
    List.length_map, List.length_singleton]
  omega

/-- The operators are the items that are written for them. -/
theorem exists_operators {written : Written} {ledger : Ledger}
    (h : ofWritten written = .ok ledger) :
    ∃ operators, (written.fieldAt? "operators" 2 = some (.array operators none)
      ∨ written.fieldAt? "operators" 2 = none ∧ operators = [])
      ∧ operators.mapM readAllocation = .ok ledger.operators := by
  have hget := holds_operators.get_of_record h
  cases hvalue : written.fieldAt? "operators" 2 with
  | none =>
      rw [hvalue] at hget
      exact ⟨[], .inr ⟨rfl, rfl⟩, hget⟩
  | some value =>
      rw [hvalue] at hget
      obtain ⟨items, rfl⟩ := Written.exists_items_of_readList hget
      exact ⟨items, .inl rfl, Written.readList_eq_ok_iff.mp hget⟩

/-- **The allocations of a ledger are those that count in what is written,** if it has buckets and
a deployer at all. -/
theorem exists_writes {written : Written} {ledger : Ledger} (h : ofWritten written = .ok ledger)
    (hbuckets : ledger.buckets ≠ []) (hdeployer : ledger.deployer ≠ blankAllocation) :
    ∃ buckets operators deployer allocations, Writes written buckets operators deployer
      ∧ (counted buckets operators deployer).mapM readAllocation = .ok allocations
      ∧ (ledger.entries.map Prod.snd).Perm allocations := by
  obtain ⟨value, hwritten, hvalue⟩ := holds_buckets.exists_written h hbuckets
  obtain ⟨buckets, rfl⟩ := Written.exists_members_of_readNamed hvalue
  obtain ⟨values, hvalues, hperm⟩ := Written.values_of_readNamed hvalue
  obtain ⟨operators, hlisted, hoperators⟩ := exists_operators h
  obtain ⟨deployer, hdeployed, hread⟩ := holds_deployer.exists_written h hdeployer
  have hlast : [deployer].mapM readAllocation = .ok [ledger.deployer] :=
    mapM_cons_eq_ok.mpr ⟨_, [], hread, rfl, rfl⟩
  refine ⟨buckets, operators, deployer, values ++ ledger.operators ++ [ledger.deployer],
    ⟨hwritten, hlisted, hdeployed⟩,
    mapM_append_eq_ok (mapM_append_eq_ok hvalues hoperators) hlast, ?_⟩
  rw [map_snd_entries]
  exact (hperm.append_right _).append_right _

/-! ## The accounts -/

/-- A sound ledger has a deployer. -/
theorem Sound.deployer {opts : VerifyOptions} {ledger : Ledger} (h : ledger.Sound opts) :
    ledger.deployer ≠ blankAllocation := by
  have hdeployer := (h.entries (deployerPath, ledger.deployer) (by simp [Ledger.entries])).address
  intro hblank
  dsimp only at hdeployer
  rw [hblank] at hdeployer
  exact absurd hdeployer (by decide)

/--
**Every written allocation counts, but for a bucket whose name is written again.** If a ledger file
is loaded and verification finds nothing in it, its balances have an account for the last bucket
that is written under each name, for each operator and for the deployer, and the total is what
these are given. So nothing that is written is left out if and only if no bucket name is repeated.
-/
theorem accounts_of_written {fs : FileSystem} {path : String} {opts : VerifyOptions}
    {ledger : Ledger} (hload : fs.load ofWritten path = .ok ledger)
    (hissues : (ledger.verify opts).issues = []) :
    ∃ content written buckets operators deployer allocations alloc,
      fs.read path = .ok content ∧ Spells (Symbol.ofBytes content) written
        ∧ Writes written buckets operators deployer
        ∧ (counted buckets operators deployer).mapM readAllocation = .ok allocations
        ∧ ledger.alloc = .ok alloc ∧ Document.parse alloc.text = .ok alloc.document
        ∧ alloc.accounts.Perm (allocations.map Allocation.funded)
        ∧ alloc.total.value = (allocations.map fun entry => entry.wei.value).sum
        ∧ alloc.accounts.length
          = (buckets.map fun member => member.1.text).dedup.length + operators.length + 1
        ∧ (alloc.accounts.length = buckets.length + operators.length + 1
          ↔ (buckets.map fun member => member.1.text).Nodup) := by
  obtain ⟨content, written, hfile, hspells, hread⟩ := FileSystem.exists_of_load hload
  have hsound := verify_issues_eq_nil_iff.mp hissues
  obtain ⟨buckets, operators, deployer, allocations, hwrites, hallocations, hperm⟩ :=
    exists_writes hread hsound.buckets hsound.deployer
  have haccounts : (Named.ofList ledger.funds).Perm (allocations.map Allocation.funded) := by
    have hfunds : ledger.funds = (ledger.entries.map Prod.snd).map Allocation.funded := by
      rw [funds, List.map_map]
      rfl
    exact hsound.accounts_perm.trans (hfunds ▸ hperm.map Allocation.funded)
  have htotal : (Wei.sum (ledger.entries.map fun entry => entry.2.wei)).value
      = (allocations.map fun entry => entry.wei.value).sum := by
    rw [Wei.value_sum, List.map_map, ← (hperm.map fun entry => entry.wei.value).sum_nat,
      List.map_map]
    rfl
  have hlength : (Named.ofList ledger.funds).length
      = (counted buckets operators deployer).length := by
    rw [haccounts.length_eq, List.length_map, length_of_mapM hallocations]
  refine ⟨content, written, buckets, operators, deployer, allocations, _, hfile, hspells, hwrites,
    hallocations, hsound.alloc, Alloc.parse_text rfl, haccounts, htotal, ?_, ?_⟩
  · exact hlength.trans (length_counted buckets operators deployer)
  · rw [hlength]
    exact length_counted_eq_iff

/-! ## A name that is written twice -/

def allocationFile (address amount : String) : Document :=
  .object [("address", .string address), ("amount", .string amount)]

/-- The members of a buckets object in which the treasury stands twice. -/
def twiceBuckets : List (String × Document) := [
  ("treasury", allocationFile "0x0000000000000000000000000000000000000001" "5"),
  ("treasury", allocationFile "0x0000000000000000000000000000000000000002" "7")]

def twiceOperator : Document := allocationFile "0x0000000000000000000000000000000000000003" "11"

def twiceDeployer : Document := allocationFile "0x0000000000000000000000000000000000000004" "13"

/-- A ledger file with these buckets, one operator and a deployer. -/
def twiceFile : Document := .object [
  ("meta", .object [("unit", .string "wei"), ("decimals", .number (.integer 18)),
    ("token", .string "QIK")]),
  ("buckets", .object twiceBuckets),
  ("operators", .array [twiceOperator]),
  ("deployer", twiceDeployer)]

def twiceFiles : FileSystem :=
  { nodes := [(["ledger"], .file (twiceFile.textIn .compact).toUTF8)]
    workingDirectory := [] }

/-- The ledger that is read from the file: its treasury is the second one. -/
def twiceLedger : Ledger where
  header := ⟨"wei", 18, "QIK"⟩
  buckets := [("treasury", ⟨"0x0000000000000000000000000000000000000002", "7"⟩)]
  operators := [⟨"0x0000000000000000000000000000000000000003", "11"⟩]
  deployer := ⟨"0x0000000000000000000000000000000000000004", "13"⟩

theorem load_twiceFiles : twiceFiles.load ofWritten "ledger" = .ok twiceLedger :=
  FileSystem.load_textIn twiceFile rfl (by decide) rfl

theorem verify_twiceLedger : (twiceLedger.verify defaultOptions).issues = [] := by decide

/-- The treasury that is written first has no account, and the rest of the file has one each. -/
theorem accounts_of_written_twice :
    twiceFiles.load ofWritten "ledger" = .ok twiceLedger
      ∧ (twiceLedger.verify defaultOptions).issues = []
      ∧ ∃ content written buckets operators deployer alloc,
        twiceFiles.read "ledger" = .ok content ∧ Spells (Symbol.ofBytes content) written
          ∧ Writes written buckets operators deployer ∧ twiceLedger.alloc = .ok alloc
          ∧ alloc.accounts.length
            = (buckets.map fun member => member.1.text).dedup.length + operators.length + 1 := by
  obtain ⟨content, written, buckets, operators, deployer, _, alloc, hfile, hspells, hwrites, _,
    halloc, _, _, _, hlength, _⟩ := accounts_of_written load_twiceFiles verify_twiceLedger
  exact ⟨load_twiceFiles, verify_twiceLedger, content, written, buckets, operators, deployer,
    alloc, hfile, hspells, hwrites, halloc, hlength⟩

/-- A file writes two buckets, an operator and a deployer, is loaded and verified without an issue,
and funds three accounts with 31 of the 36 that it writes. -/
theorem repeated_bucket_dropped :
    twiceFiles.load ofWritten "ledger" = .ok twiceLedger
      ∧ (twiceLedger.verify defaultOptions).issues = []
      ∧ ∃ content buckets alloc,
        twiceFiles.read "ledger" = .ok content
          ∧ Spells (Symbol.ofBytes content) twiceFile.written
          ∧ Writes twiceFile.written buckets [twiceOperator.written] twiceDeployer.written
          ∧ (buckets.map Prod.snd).mapM readAllocation
            = .ok [⟨"0x0000000000000000000000000000000000000001", "5"⟩,
              ⟨"0x0000000000000000000000000000000000000002", "7"⟩]
          ∧ twiceLedger.alloc = .ok alloc
          ∧ alloc.accounts.length = 3 ∧ buckets.length + 1 + 1 = 4
          ∧ alloc.document.get? "0x0000000000000000000000000000000000000001" = none
          ∧ alloc.total = ⟨31⟩ :=
  ⟨load_twiceFiles, verify_twiceLedger, _, Document.writtenMembers twiceBuckets,
    ⟨Named.ofList twiceLedger.funds, ⟨31⟩⟩, rfl,
    spells_textIn_bytes .compact (by decide : twiceFile.Exact), ⟨rfl, .inl rfl, rfl⟩, rfl,
    rfl, rfl, rfl, rfl, rfl⟩

end ChainGenesis.Ledger
