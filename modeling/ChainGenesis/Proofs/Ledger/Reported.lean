import ChainGenesis.Ledger.Report
import ChainGenesis.Proofs.Ledger.Rendered

/-!
# The report and the balances

The report and the rendering go through the ledger each on its own. They come to the entries in
one order, and the report's words for a place are the text of the path that the rendering has.
So they stop at the same field of the same entry and say the same of it; and if nothing stops
them they have the same total.
-/

namespace ChainGenesis

/-! ## The entry that is refused -/

/-- A field of an allocation that cannot be parsed. The amount is looked at only where the address
is in order. -/
inductive Allocation.Refused (entry : Allocation) : String → Rejection → Prop where
  | address {rejection : Rejection} : Address.parse entry.address = .error rejection →
      entry.Refused "address" rejection
  | amount {rejection : Rejection} : Address.isValid entry.address = true →
      Wei.parse entry.amount = .error rejection → entry.Refused "amount" rejection

theorem Allocation.refused_of_problem? {place : String} {entry : Allocation}
    {problem : AllocationProblem} (h : entry.problem? place = some problem) :
    ∃ field rejection, entry.Refused field rejection
      ∧ problem = .unparsable (place ++ ("." ++ field)) rejection := by
  unfold problem? at h
  split at h
  · rename_i rejection haddress
    injection h with h
    exact ⟨"address", rejection, .address haddress, h.symm⟩
  · rename_i rejection haddress hamount
    injection h with h
    exact ⟨"amount", rejection, .amount (Address.parse_eq_ok_iff.mp haddress).1 hamount, h.symm⟩
  · exact absurd h (by simp)

namespace Ledger

/-- The path of the first field of a ledger that cannot be parsed: no entry before that entry has
one, and nor has the entry a field before it. -/
def FirstRefused (ledger : Ledger) (path : DocPath) (rejection : Rejection) : Prop :=
  ∃ front entry back field, ledger.entries = front ++ entry :: back
    ∧ (∀ other ∈ front, other.2.Renderable)
    ∧ entry.2.Refused field rejection ∧ path = entry.1.field field

theorem firstRefused_of_problem? {ledger : Ledger} {problem : AllocationProblem}
    (h : ledger.problem? = some problem) :
    ∃ path rejection, ledger.FirstRefused path rejection
      ∧ problem = .unparsable path.text rejection := by
  obtain ⟨front, entry, back, hentries, hproblem, hfront⟩ := List.findSome?_eq_some_iff.mp h
  obtain ⟨field, rejection, hrefused, rfl⟩ := Allocation.refused_of_problem? hproblem
  have hmem : entry ∈ ledger.entries := by
    rw [hentries]
    exact List.mem_append_right front List.mem_cons_self
  refine ⟨entry.1.field field, rejection, ⟨front, entry, back, field, hentries, fun other hother =>
    Allocation.problem?_eq_none_iff.mp (hfront other hother), hrefused, rfl⟩, ?_⟩
  rw [DocPath.text_field (ne_root_of_mem_entries hmem)]

end Ledger

/-! ## The lines -/

namespace ReportRow

/-- What the entry of a row is refused for, if it is. -/
def problem? (row : ReportRow) : Option AllocationProblem := row.entry.problem? row.place

/-- The line that shows the entry of a row. -/
def shown (maxDecimals : Int) (row : ReportRow) : ReportLine where
  name := row.name
  address := Text.lowercase row.entry.address
  wei := row.entry.wei.text
  units := row.entry.wei.inUnits maxDecimals

/-- The entry of a row, with the place in words. -/
def placed (row : ReportRow) : String × Allocation := (row.place, row.entry)

end ReportRow

namespace Report

/-- An entry has its line, and its amount is added, unless there is something wrong with it. -/
theorem line_eq (maxDecimals : Int) (row : ReportRow) (total : Wei) :
    line maxDecimals row total
      = okUnless row.problem? (row.shown maxDecimals, total + row.entry.wei) :=
  row.entry.parsed_eq row.place fun address amount =>
    (ReportLine.mk row.name address.text amount.text (amount.inUnits maxDecimals), total + amount)

/-- Lines are written one after the other up to the first entry that something is wrong with. -/
theorem linesOf_eq (maxDecimals : Int) (rows : List ReportRow) (total : Wei) :
    linesOf maxDecimals rows total = okUnless (rows.findSome? ReportRow.problem?)
      (rows.map (ReportRow.shown maxDecimals),
        (rows.map fun row => row.entry.wei).foldl (· + ·) total) := by
  induction rows generalizing total with
  | nil => rfl
  | cons row rest ih =>
      rw [linesOf, line_eq, List.findSome?_cons]
      cases row.problem? with
      | some problem => rfl
      | none =>
          show linesOf maxDecimals rest (total + row.entry.wei) >>= _ = _
          rw [ih]
          cases rest.findSome? ReportRow.problem? <;> rfl

/-- Every entry as the report comes to it. -/
def rows (ledger : Ledger) : List ReportRow :=
  bucketRows ledger.buckets ++ operatorRows 0 ledger.operators ++ [deployerRow ledger.deployer]

theorem placed_operatorRows (n : Nat) (operators : List Allocation) :
    (operatorRows n operators).map ReportRow.placed
      = (Ledger.operatorEntries n operators).map fun entry => (entry.1.text, entry.2) := by
  induction operators generalizing n with
  | nil => rfl
  | cons operator rest ih =>
      rw [operatorRows, Ledger.operatorEntries, List.map_cons, List.map_cons, ih]
      exact congrArg (· :: _)
        (congrArg (·, operator) (DocPath.text_field_index "operators" n).symm)

/-- **The report comes to the entries in the order of the ledger,** and its words for a place are
the text of the entry's path. -/
theorem placed_rows (ledger : Ledger) :
    (rows ledger).map ReportRow.placed
      = ledger.entries.map fun entry => (entry.1.text, entry.2) := by
  have hbuckets : (bucketRows ledger.buckets).map ReportRow.placed
      = (Ledger.bucketEntries ledger.buckets).map fun entry => (entry.1.text, entry.2) := by
    rw [bucketRows, Ledger.bucketEntries, List.map_map, List.map_map]
    exact List.map_congr_left fun bucket _ =>
      congrArg (·, bucket.2) (DocPath.text_field_field "buckets" bucket.1).symm
  rw [rows, Ledger.entries, List.map_append, List.map_append, List.map_append, List.map_append,
    hbuckets, placed_operatorRows]
  rfl

theorem findSome?_rows (ledger : Ledger) :
    (rows ledger).findSome? ReportRow.problem? = ledger.problem? := by
  have h := congrArg (List.findSome? fun placed => placed.2.problem? placed.1) (placed_rows ledger)
  rw [List.findSome?_map, List.findSome?_map] at h
  exact h

theorem map_wei_rows (ledger : Ledger) :
    ((rows ledger).map fun row => row.entry.wei) = ledger.entries.map fun entry => entry.2.wei := by
  have h := congrArg (List.map fun placed => placed.2.wei) (placed_rows ledger)
  rw [List.map_map, List.map_map] at h
  exact h

/-- The report on a ledger in which every entry has an address and an amount. -/
def written (maxDecimals : Int) (token : Token) (ledger : Ledger) : Report :=
  let total := Wei.sum (ledger.entries.map fun entry => entry.2.wei)
  { token
    buckets := (bucketRows ledger.buckets).map (ReportRow.shown maxDecimals)
    operators := byAddress ((operatorRows 0 ledger.operators).map (ReportRow.shown maxDecimals))
    deployer := (deployerRow ledger.deployer).shown maxDecimals
    totalWei := total.text
    totalUnits := total.inUnits maxDecimals }

/-- **A ledger is reported on unless one of its entries has a problem,** and then every entry has
its line and goes into the total. -/
theorem ofLedger_eq (maxDecimals : Int) (token : Token) (ledger : Ledger) :
    ofLedger maxDecimals token ledger
      = okUnless ledger.problem? (written maxDecimals token ledger) := by
  rw [written, ← map_wei_rows, ← findSome?_rows, rows, List.findSome?_append,
    List.findSome?_append, List.map_append, List.map_append, Wei.sum, List.foldl_append,
    List.foldl_append, ofLedger, linesOf_eq]
  cases (bucketRows ledger.buckets).findSome? ReportRow.problem? with
  | some problem => rfl
  | none =>
      show linesOf maxDecimals (operatorRows 0 ledger.operators) _ >>= _ = _
      rw [linesOf_eq]
      cases (operatorRows 0 ledger.operators).findSome? ReportRow.problem? with
      | some problem => rfl
      | none =>
          show line maxDecimals (deployerRow ledger.deployer) _ >>= _ = _
          rw [line_eq, List.findSome?_singleton]
          cases (deployerRow ledger.deployer).problem? <;> rfl

theorem ofLedger_eq_ok_iff {maxDecimals : Int} {token : Token} {ledger : Ledger}
    {report : Report} :
    ofLedger maxDecimals token ledger = .ok report
      ↔ (∀ entry ∈ ledger.entries, entry.2.Renderable)
        ∧ report = written maxDecimals token ledger := by
  rw [ofLedger_eq, okUnless_eq_ok_iff, Ledger.problem?_eq_none_iff, eq_comm (a := report)]

end Report

/--
**The report and the balances agree on every ledger.** Whatever is wrong with a ledger, and
whether it was verified or not, it is reported on if and only if it is rendered. If it is, the
report states the total of the balances in plain decimal. If it is not, both fail with one problem
and its message, which names the first field in the order of the ledger that cannot be parsed.
-/
theorem Ledger.report_agrees (words : Wording) (maxDecimals : Int) (token : Token)
    (ledger : Ledger) :
    (∃ report alloc, Report.ofLedger maxDecimals token ledger = .ok report
      ∧ ledger.alloc = .ok alloc ∧ report.totalWei = alloc.total.text)
    ∨ ∃ problem, Report.ofLedger maxDecimals token ledger = .error problem
      ∧ ledger.alloc = .error problem
      ∧ ∃ path rejection, ledger.FirstRefused path rejection
        ∧ problem.message words = path.text ++ ": " ++ rejection.message := by
  rw [Report.ofLedger_eq, alloc_eq]
  cases hproblem : ledger.problem? with
  | none => exact .inl ⟨_, _, rfl, rfl, rfl⟩
  | some problem =>
      obtain ⟨path, rejection, hfirst, rfl⟩ := firstRefused_of_problem? hproblem
      exact .inr ⟨_, rfl, rfl, path, rejection, hfirst, rfl⟩

end ChainGenesis
