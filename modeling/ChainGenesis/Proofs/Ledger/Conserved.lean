import ChainGenesis.Proofs.Ledger.Rendered
import ChainGenesis.Proofs.Paths
import Mathlib.Data.List.Perm.Basic

/-!
# What the balances say of the ledger

The map of balances is built by setting one account after another, and an account that is set
again loses what it had, while the total goes on counting. So the two agree only where no account
is given twice. There the map says as much as the ledger does but for its layout: which accounts
are funded, and with how much.
-/

namespace ChainGenesis

theorem Allocation.not_renderable_iff {entry : Allocation} : ¬entry.Renderable
    ↔ Address.isValid entry.address = false ∨ Wei.isDigitString entry.amount = false := by
  rw [← Bool.not_eq_true, ← Bool.not_eq_true, ← not_and_or]
  exact not_congr ⟨fun h => ⟨h.address, h.amount⟩, fun h => ⟨h.1, h.2⟩⟩

namespace Ledger

/-! ## Conservation -/

/-- A ledger is refused if and only if one of its entries lacks an address or an amount. -/
theorem alloc_eq_error_iff {ledger : Ledger} :
    (∃ problem, ledger.alloc = .error problem)
      ↔ ∃ entry ∈ ledger.entries, Address.isValid entry.2.address = false
        ∨ Wei.isDigitString entry.2.amount = false := by
  have hall : (∃ problem, ledger.alloc = .error problem)
      ↔ ¬∀ entry ∈ ledger.entries, entry.2.Renderable := by
    constructor
    · rintro ⟨problem, hproblem⟩ hall
      exact absurd (hproblem.symm.trans (alloc_eq_ok_iff.mpr ⟨hall, rfl⟩)) (by simp)
    · intro hsome
      cases halloc : ledger.alloc with
      | ok alloc => exact absurd (alloc_eq_ok_iff.mp halloc).1 hsome
      | error problem => exact ⟨problem, rfl⟩
  simp only [hall, not_forall, exists_prop, Allocation.not_renderable_iff]

/-- A sound ledger's map states for each entry the amount of that entry. -/
theorem Sound.lookup?_funds {opts : VerifyOptions} {ledger : Ledger} (h : ledger.Sound opts)
    {entry : DocPath × Allocation} (hmem : entry ∈ ledger.entries) :
    Named.lookup? (Text.lowercase entry.2.address) (Named.ofList ledger.funds)
      = some (balance entry.2.wei) :=
  (Named.ordered_ofList _).lookup?_of_mem
    (h.accounts_perm.mem_iff.mpr (List.mem_map.mpr ⟨entry, hmem, rfl⟩))

/--
**No wei is lost or added on the way from a ledger to its balances.** A ledger in which
verification finds nothing, whatever it was asked to allow, is rendered: there is one account for
each entry, named by the entry's address in lowercase, with that entry's amount in plain decimal,
and what the accounts hold together is the total, the sum of all amounts. And any ledger at all is
refused if and only if one of its entries lacks an address or an amount.
-/
theorem alloc_conserves (ledger : Ledger) :
    (∀ opts, (ledger.verify opts).issues = [] →
      ∃ alloc, ledger.alloc = .ok alloc
        ∧ alloc.accounts.length = ledger.buckets.length + ledger.operators.length + 1
        ∧ (alloc.accounts.map Prod.fst).Perm
          (ledger.entries.map fun entry => Text.lowercase entry.2.address)
        ∧ (∀ entry ∈ ledger.entries,
          alloc.document.get? (Text.lowercase entry.2.address) = some (balance entry.2.wei))
        ∧ premine? alloc.accounts = some alloc.total
        ∧ alloc.total.value
          = (ledger.entries.map fun entry => Nat.ofDigitChars 10 entry.2.amount.toList 0).sum)
    ∧ ((∃ problem, ledger.alloc = .error problem)
      ↔ ∃ entry ∈ ledger.entries, Address.isValid entry.2.address = false
        ∨ Wei.isDigitString entry.2.amount = false) := by
  refine ⟨fun opts hissues => ?_, alloc_eq_error_iff⟩
  have hsound := verify_issues_eq_nil_iff.mp hissues
  have hperm := hsound.accounts_perm
  refine ⟨_, hsound.alloc, ?_, ?_, fun entry hmem => hsound.lookup?_funds hmem,
    hsound.premine?, ?_⟩
  · rw [hperm.length_eq, funds, List.length_map, length_entries]
  · exact map_fst_funds ledger ▸ hperm.map Prod.fst
  · rw [Wei.value_sum, List.map_map]
    rfl

/-- A sound ledger with an address in uppercase and an amount with leading zeros. -/
def mixedLedger : Ledger where
  header := ⟨"wei", 18, "QIK"⟩
  buckets := [("treasury", ⟨"0x00000000000000000000000000000000000000AA", "007"⟩)]
  operators := [⟨"0x00000000000000000000000000000000000000bb", "5"⟩]
  deployer := ⟨"0x00000000000000000000000000000000000000cC", "0"⟩

theorem verify_mixedLedger : (mixedLedger.verify defaultOptions).issues = [] := by decide

/-- Three accounts, one of them with nothing, hold twelve together. -/
theorem alloc_conserves_mixed :
    (mixedLedger.verify defaultOptions).issues = []
      ∧ ∃ alloc, mixedLedger.alloc = .ok alloc
        ∧ alloc.accounts.length = 3
        ∧ alloc.document.get? "0x00000000000000000000000000000000000000aa" = some (balance ⟨7⟩)
        ∧ premine? alloc.accounts = some ⟨12⟩ := by
  obtain ⟨alloc, halloc, hlength, _, hbalances, hpremine, htotal⟩ :=
    (alloc_conserves mixedLedger).1 defaultOptions verify_mixedLedger
  have htwelve : alloc.total = ⟨12⟩ := Wei.ext (htotal.trans (by decide))
  exact ⟨verify_mixedLedger, alloc, halloc, hlength,
    hbalances (DocPath.root.field "buckets" |>.field "treasury",
      ⟨"0x00000000000000000000000000000000000000AA", "007"⟩) List.mem_cons_self,
    htwelve ▸ hpremine⟩

/-! ## The entries alone -/

/-- Who is given how much: the address of each entry in lowercase, and its amount. -/
def grants (ledger : Ledger) : List (String × Nat) :=
  ledger.entries.map fun entry => (Text.lowercase entry.2.address, entry.2.wei.value)

/-- The member of the map that a grant makes. -/
def member (grant : String × Nat) : String × Document := (grant.1, balance ⟨grant.2⟩)

/-- A member of the map tells the grant. -/
theorem member_injective : Function.Injective member := by
  rintro ⟨name, amount⟩ ⟨name', amount'⟩ h
  injection h with hname hbalance
  injection hbalance with hmembers
  injection hmembers with hmember
  injection hmember with _ htext
  injection htext with htext
  exact congrArg₂ Prod.mk hname (congrArg Wei.value (Wei.text_inj htext))

theorem funds_eq (ledger : Ledger) : ledger.funds = ledger.grants.map member := by
  rw [grants, List.map_map]
  rfl

/-- The total is the sum of what is given. -/
theorem sum_wei_eq (ledger : Ledger) :
    Wei.sum (ledger.entries.map fun entry => entry.2.wei)
      = Wei.sum (ledger.grants.map fun grant => ⟨grant.2⟩) := by
  rw [grants, List.map_map]
  rfl

/-- Balances with one text are one map, because the text is read back. -/
theorem Alloc.accounts_eq_of_text {ledger other : Ledger} {alloc alloc' : Alloc}
    (h : alloc.accounts = Named.ofList ledger.funds)
    (h' : alloc'.accounts = Named.ofList other.funds) (htext : alloc.text = alloc'.text) :
    alloc.accounts = alloc'.accounts := by
  have hparsed := parse_text h
  rw [htext, parse_text h'] at hparsed
  injection hparsed with hdocument
  injection hdocument with haccounts
  exact haccounts.symm

/--
**The balances depend on the entries alone, and they tell the entries.** Of two ledgers that are
rendered, each without an account that is given twice, the balances are the same bytes with the
same total if and only if the ledgers give the same amounts to the same accounts, whatever part of
the ledger an entry stands in and however its address and amount are written.
-/
theorem balances_eq_iff_grants_perm {ledger other : Ledger} {alloc alloc' : Alloc}
    (h : ledger.alloc = .ok alloc) (h' : other.alloc = .ok alloc')
    (hdistinct : (ledger.entries.map fun entry => Text.lowercase entry.2.address).Nodup)
    (hdistinct' : (other.entries.map fun entry => Text.lowercase entry.2.address).Nodup) :
    (alloc.text.toUTF8 = alloc'.text.toUTF8 ∧ alloc.total = alloc'.total)
      ↔ ledger.grants.Perm other.grants := by
  obtain ⟨_, rfl⟩ := alloc_eq_ok_iff.mp h
  obtain ⟨_, rfl⟩ := alloc_eq_ok_iff.mp h'
  rw [← map_fst_funds] at hdistinct hdistinct'
  rw [← List.map_perm_map_iff member_injective, ← funds_eq, ← funds_eq]
  constructor
  · rintro ⟨hbytes, _⟩
    -- the maps are one, and neither has lost an entry
    have hmaps := Alloc.accounts_eq_of_text rfl rfl (String.toByteArray_inj.mp hbytes)
    exact ((Named.ofList_perm hdistinct).symm.trans (.of_eq hmaps)).trans
      (Named.ofList_perm hdistinct')
  · intro hperm
    refine ⟨?_, ?_⟩
    · rw [Alloc.text, Alloc.text, Alloc.document, Alloc.document,
        Named.ofList_eq_of_perm hperm hdistinct]
    · have hgrants := (List.map_perm_map_iff member_injective).mp
        (funds_eq ledger ▸ funds_eq other ▸ hperm)
      show Wei.sum _ = Wei.sum _
      rw [sum_wei_eq, sum_wei_eq]
      exact Wei.sum_perm (hgrants.map _)

/-- The ledger from above with its entries in other parts, and spelled otherwise. -/
def rearrangedLedger : Ledger where
  header := ⟨"wei", 18, "QIK"⟩
  buckets := [("reserve", ⟨"0x00000000000000000000000000000000000000Cc", "00"⟩)]
  operators := [⟨"0x00000000000000000000000000000000000000aA", "7"⟩]
  deployer := ⟨"0x00000000000000000000000000000000000000BB", "05"⟩

theorem verify_rearrangedLedger : (rearrangedLedger.verify defaultOptions).issues = [] := by decide

/-- No entry is where it was or as it was, and the bytes are the same. -/
theorem balances_eq_iff_grants_perm_rearranged :
    ∃ alloc alloc', mixedLedger.alloc = .ok alloc ∧ rearrangedLedger.alloc = .ok alloc'
      ∧ (mixedLedger.entries.map fun entry => Text.lowercase entry.2.address).Nodup
      ∧ (rearrangedLedger.entries.map fun entry => Text.lowercase entry.2.address).Nodup
      ∧ alloc.text.toUTF8 = alloc'.text.toUTF8 ∧ alloc.total = alloc'.total := by
  have halloc := (verify_issues_eq_nil_iff.mp verify_mixedLedger).alloc
  have halloc' := (verify_issues_eq_nil_iff.mp verify_rearrangedLedger).alloc
  have hdistinct : (mixedLedger.entries.map fun entry =>
      Text.lowercase entry.2.address).Nodup := by decide
  have hdistinct' : (rearrangedLedger.entries.map fun entry =>
      Text.lowercase entry.2.address).Nodup := by decide
  exact ⟨_, _, halloc, halloc', hdistinct, hdistinct',
    (balances_eq_iff_grants_perm halloc halloc' hdistinct hdistinct').mpr (by decide)⟩

end Ledger

end ChainGenesis
