import ChainGenesis.Proofs.Display
import ChainGenesis.Proofs.Ledger.Reported
import ChainGenesis.Proofs.Steps

/-!
# What a report breaks down

A report has one line for each entry of the ledger, and what the lines say in wei is the total.
Buckets are listed by name and operators by address, which loses none of them and keeps operators
of one address in the order of the file. What the lines say in display units is cut, so together
they can say less than the total does, which is cut only once; by how much less is bounded by the
number of lines.
-/

namespace ChainGenesis

/-- A line shows an entry under a name: its account, and its amount in plain decimal. -/
structure ReportLine.Shows (line : ReportLine) (name : String) (entry : Allocation) : Prop where
  name : line.name = name
  address : line.address = Text.lowercase entry.address
  wei : line.wei = entry.wei.text

namespace Report

/-- Lines put in ascending order of address, those of one address in the order they had. -/
structure SortedByAddress (lines sorted : List ReportLine) : Prop where
  perm : sorted.Perm lines
  ascending : sorted.Pairwise fun a b => a.address ≤ b.address
  stable : ∀ address, (sorted.filter fun line => line.address = address)
    = lines.filter fun line => line.address = address

/-- What the lines of a report say less than its total, in display units. -/
def shortfall (report : Report) : ℚ :=
  Decimal.value report.totalUnits
    - (report.lines.map fun line => Decimal.value line.units).sum

/-- A report shows what is in a ledger, and nothing else. -/
structure Breakdown (report : Report) (maxDecimals : Int) (ledger : Ledger) : Prop where
  /-- Every bucket has its line, under its name, -/
  buckets : List.Forall₂ (fun line bucket => line.Shows bucket.1 bucket.2)
    report.buckets ledger.buckets
  /-- in strictly ascending order of name. -/
  names : report.buckets.Pairwise fun a b => a.name < b.name
  /-- Every operator has its line, and the lines are put in order of address. -/
  operators : ∃ lines, List.Forall₂ (fun line entry => line.Shows "operator" entry)
    lines ledger.operators ∧ SortedByAddress lines report.operators
  deployer : report.deployer.Shows "deployer" ledger.deployer
  /-- There is no other line. -/
  length : report.lines.length = ledger.entries.length
  /-- The lines add up to the total. -/
  total : ∃ amounts, (report.lines.mapM fun line => Wei.parse line.wei) = .ok amounts
    ∧ report.totalWei = (Wei.sum amounts).text
  /-- What is shown of the lines falls short of what is shown of the total by less than one last
  place for each line, -/
  shown : 0 ≤ report.shortfall
    ∧ report.shortfall < report.lines.length / 10 ^ Wei.places maxDecimals
  /-- and not at all if every place is shown. -/
  exact : Wei.places maxDecimals = 18 → report.shortfall = 0

/-! ## The order of operators -/

theorem inOrder_iff {a b : ReportLine} :
    (!decide (b.address < a.address)) = true ↔ a.address ≤ b.address := by
  rw [Bool.not_eq_true', decide_eq_false_iff_not, String.not_lt]

/-- **Operators are sorted and nothing else happens to them.** -/
theorem sortedByAddress_byAddress (lines : List ReportLine) :
    SortedByAddress lines (byAddress lines) := by
  have htrans : ∀ a b c : ReportLine, (!decide (b.address < a.address)) = true →
      (!decide (c.address < b.address)) = true → (!decide (c.address < a.address)) = true :=
    fun a b c hab hbc =>
      inOrder_iff.mpr (String.le_trans (inOrder_iff.mp hab) (inOrder_iff.mp hbc))
  have htotal : ∀ a b : ReportLine,
      (!decide (b.address < a.address) || !decide (a.address < b.address)) = true := by
    intro a b
    rw [Bool.or_eq_true, inOrder_iff, inOrder_iff]
    exact String.le_total _ _
  have hperm : (byAddress lines).Perm lines := List.mergeSort_perm lines _
  refine ⟨hperm, ?_, fun address => ?_⟩
  · exact (List.pairwise_mergeSort htrans htotal lines).imp inOrder_iff.mp
  · -- lines of one address are in order already, so sorting keeps them as they stand
    have hsorted : (lines.filter fun line => line.address = address).Pairwise
        fun a b => (!decide (b.address < a.address)) = true := by
      refine List.pairwise_of_forall_mem_list fun a ha b hb => inOrder_iff.mpr ?_
      have ha := of_decide_eq_true (List.mem_filter.mp ha).2
      have hb := of_decide_eq_true (List.mem_filter.mp hb).2
      exact ha.trans hb.symm ▸ String.le_refl a.address
    have hsub : (lines.filter fun line => line.address = address).Sublist (byAddress lines) :=
      List.sublist_mergeSort htrans htotal hsorted List.filter_sublist
    have hkept := hsub.filter fun line => line.address = address
    rw [List.filter_filter] at hkept
    simp only [Bool.and_self] at hkept
    exact (hkept.eq_of_length (hperm.filter _).length_eq.symm).symm

/-- Two operators out of order change places. -/
theorem byAddress_pair {first second : ReportLine} (h : second.address < first.address) :
    byAddress [first, second] = [second, first] := by
  have hmerge (le : ReportLine → ReportLine → Bool) :
      [first, second].mergeSort le = [first].merge [second] le := by
    simp [List.mergeSort, List.MergeSort.Internal.splitInTwo]
  rw [byAddress, hmerge, List.cons_merge_cons_neg, List.merge_right]
  rw [inOrder_iff]
  exact String.not_le.mpr h

/-! ## Lines -/

theorem shows_shown (maxDecimals : Int) (row : ReportRow) :
    (row.shown maxDecimals).Shows row.name row.entry := ⟨rfl, rfl, rfl⟩

theorem shows_operatorRows (maxDecimals : Int) (n : Nat) (operators : List Allocation) :
    List.Forall₂ (fun line entry => line.Shows "operator" entry)
      ((operatorRows n operators).map (ReportRow.shown maxDecimals)) operators := by
  induction operators generalizing n with
  | nil => exact .nil
  | cons operator rest ih => exact .cons ⟨rfl, rfl, rfl⟩ (ih (n + 1))

/-- The lines of a report are those of the ledger in another order. -/
theorem lines_written_perm (maxDecimals : Int) (token : Token) (ledger : Ledger) :
    (written maxDecimals token ledger).lines.Perm
      ((rows ledger).map (ReportRow.shown maxDecimals)) := by
  rw [rows, List.map_append, List.map_append]
  exact ((List.mergeSort_perm _ _).append_left _).append_right _

/-- What a line says in wei is the amount of its entry. -/
theorem mapM_parse_shown (maxDecimals : Int) (rows : List ReportRow) :
    (rows.map (ReportRow.shown maxDecimals)).mapM (fun line => Wei.parse line.wei)
      = .ok (rows.map fun row => row.entry.wei) := by
  induction rows with
  | nil => rfl
  | cons row rest ih =>
      exact mapM_cons_eq_ok.mpr ⟨_, _, Wei.parse_text row.entry.wei, ih, rfl⟩

/-- What the lines fall short of the total is what the amounts do. -/
theorem shortfall_written (maxDecimals : Int) (token : Token) (ledger : Ledger) :
    (written maxDecimals token ledger).shortfall
      = Wei.shortfall maxDecimals (ledger.entries.map fun entry => entry.2.wei) := by
  have hlines := ((lines_written_perm maxDecimals token ledger).map
    fun line => Decimal.value line.units).sum_eq
  rw [shortfall, Wei.shortfall, hlines, ← map_wei_rows, List.map_map, List.map_map]
  rw [written, ← map_wei_rows]
  rfl

theorem length_lines_written (maxDecimals : Int) (token : Token) (ledger : Ledger) :
    (written maxDecimals token ledger).lines.length = ledger.entries.length := by
  have hrows := congrArg List.length (placed_rows ledger)
  rw [List.length_map, List.length_map] at hrows
  rw [(lines_written_perm maxDecimals token ledger).length_eq, List.length_map, hrows]

end Report

/--
**A report is a faithful breakdown of its ledger.** Every entry has exactly one line, with its
address in lowercase and its amount in plain decimal: buckets in strictly ascending order of name,
operators in ascending order of address and otherwise in the order of the file, and the deployer.
The lines add up to the total. In display units they never exceed it, and fall short of it by less
than one last place for each line, and by nothing if all eighteen places are shown.
-/
theorem Ledger.breakdown_of_report {maxDecimals : Int} {token : Token} {ledger : Ledger}
    {report : Report} (hnames : ledger.buckets.Ordered)
    (h : Report.ofLedger maxDecimals token ledger = .ok report) :
    report.Breakdown maxDecimals ledger := by
  obtain ⟨_, rfl⟩ := Report.ofLedger_eq_ok_iff.mp h
  have hlength := Report.length_lines_written maxDecimals token ledger
  constructor
  case buckets =>
    show List.Forall₂ _ ((Report.bucketRows ledger.buckets).map _) ledger.buckets
    rw [Report.bucketRows, List.map_map, List.forall₂_map_left_iff, List.forall₂_same]
    exact fun bucket _ => Report.shows_shown maxDecimals _
  case names =>
    show List.Pairwise _ ((Report.bucketRows ledger.buckets).map _)
    rw [Report.bucketRows, List.map_map, List.pairwise_map]
    exact hnames
  case operators =>
    exact ⟨_, Report.shows_operatorRows maxDecimals 0 ledger.operators,
      Report.sortedByAddress_byAddress _⟩
  case deployer => exact Report.shows_shown maxDecimals _
  case length => exact hlength
  case total =>
    obtain ⟨amounts, hamounts, hperm⟩ := mapM_perm
      (Report.lines_written_perm maxDecimals token ledger).symm
      (Report.mapM_parse_shown maxDecimals (Report.rows ledger))
    refine ⟨amounts, hamounts, ?_⟩
    rw [← Wei.sum_perm hperm, Report.map_wei_rows]
    rfl
  case shown =>
    have hne : (ledger.entries.map fun entry => entry.2.wei) ≠ [] := by
      rw [← List.length_pos_iff, List.length_map, length_entries]
      exact Nat.succ_pos _
    have hbounds := Wei.shortfall_bounds maxDecimals hne
    rw [List.length_map] at hbounds
    rw [hlength, Report.shortfall_written]
    exact hbounds
  case exact =>
    intro hall
    rw [Report.shortfall_written]
    exact Wei.shortfall_eq_zero hall _

/-- A ledger of six tenths of a unit in five places. -/
def tenthsLedger : Ledger where
  header := ⟨"wei", 18, "QIK"⟩
  buckets := [("faucet", ⟨"0x00000000000000000000000000000000000000aa", "600000000000000000"⟩),
    ("treasury", ⟨"0x00000000000000000000000000000000000000bb", "600000000000000000"⟩)]
  operators := [⟨"0x00000000000000000000000000000000000000DD", "600000000000000000"⟩,
    ⟨"0x00000000000000000000000000000000000000cc", "600000000000000000"⟩]
  deployer := ⟨"0x00000000000000000000000000000000000000ee", "600000000000000000"⟩

/-- Five times six tenths are three units, and shown without decimals each of them is nothing. The
operator that comes second in the file comes first in the report. -/
theorem Ledger.breakdown_of_report_tenths :
    tenthsLedger.buckets.Ordered
      ∧ ∃ report, Report.ofLedger 0 ⟨"QIK", "QIK", 18, "fixed", "0"⟩ tenthsLedger = .ok report
        ∧ report.totalUnits = "3" ∧ report.deployer.units = "0"
        ∧ report.operators = [
          ⟨"operator", "0x00000000000000000000000000000000000000cc", "600000000000000000", "0"⟩,
          ⟨"operator", "0x00000000000000000000000000000000000000dd", "600000000000000000", "0"⟩]
        ∧ report.Breakdown 0 tenthsLedger := by
  have hnames : tenthsLedger.buckets.Ordered := by
    unfold Named.Ordered
    decide
  have hentries : ∀ entry ∈ tenthsLedger.entries, entry.2.Renderable :=
    problem?_eq_none_iff.mp (by decide)
  have hreport : Report.ofLedger 0 ⟨"QIK", "QIK", 18, "fixed", "0"⟩ tenthsLedger
      = .ok (Report.written 0 ⟨"QIK", "QIK", 18, "fixed", "0"⟩ tenthsLedger) :=
    Report.ofLedger_eq_ok_iff.mpr ⟨hentries, rfl⟩
  refine ⟨hnames, _, hreport, by decide, by decide, ?_, breakdown_of_report hnames hreport⟩
  exact Report.byAddress_pair (by decide)

end ChainGenesis
